/-!
Cutting text at a separator and putting it together again. Joining the pieces of a text gives the
text back, no piece holds the separator, and pieces without it are the ones that cutting their join
gives.
-/

namespace FilterQuery.Text

-- The first piece stands apart because there always is one, also for the empty text.
def split (separator : Char) : List Char → List Char × List (List Char)
  | [] => ([], [])
  | char :: rest =>
      let (first, others) := split separator rest
      if char = separator then ([], first :: others) else (char :: first, others)

def join (separator : List Char) : List (List Char) → List Char
  | [] => []
  | [piece] => piece
  | piece :: next :: rest => piece ++ separator ++ join separator (next :: rest)

def pieces (separator : Char) (text : String) : List String :=
  let (first, others) := split separator text.toList
  (first :: others).map String.ofList

def joined (separator : String) (texts : List String) : String :=
  String.ofList (join separator.toList (texts.map String.toList))

theorem join_cons_cons (separator first next : List Char) (rest : List (List Char)) :
    join separator (first :: next :: rest) = first ++ separator ++ join separator (next :: rest) :=
  rfl

theorem join_split (separator : Char) (text : List Char) :
    join [separator] ((split separator text).1 :: (split separator text).2) = text := by
  induction text with
  | nil => rfl
  | cons char rest ih =>
      simp only [split]
      split
      · rename_i same
        simp [join_cons_cons, ih, same]
      · cases others : (split separator rest).2 with
        | nil => simpa [join, others] using ih
        | cons next more =>
            rw [others] at ih
            simp only [join_cons_cons, List.cons_append] at ih ⊢
            rw [ih]

theorem separator_not_mem_split (separator : Char) (text : List Char) :
    ∀ piece ∈ (split separator text).1 :: (split separator text).2, separator ∉ piece := by
  induction text with
  | nil => simp [split]
  | cons char rest ih =>
      simp only [split]
      split
      · simpa using ih
      · rename_i differs
        simp only [List.mem_cons, forall_eq_or_imp, not_or] at ih ⊢
        exact ⟨⟨fun same => differs same.symm, ih.1⟩, ih.2⟩

theorem split_append_separator (separator : Char) (first text : List Char)
    (absent : separator ∉ first) :
    split separator (first ++ separator :: text) =
      (first, (split separator text).1 :: (split separator text).2) := by
  induction first with
  | nil => simp [split]
  | cons char rest ih =>
      rw [List.mem_cons, not_or] at absent
      simp only [List.cons_append, split, ih absent.2, if_neg (Ne.symm absent.1)]

theorem split_of_not_mem (separator : Char) (text : List Char) (absent : separator ∉ text) :
    split separator text = (text, []) := by
  induction text with
  | nil => rfl
  | cons char rest ih =>
      rw [List.mem_cons, not_or] at absent
      simp only [split, ih absent.2, if_neg (Ne.symm absent.1)]

theorem split_join (separator : Char) (first : List Char) (others : List (List Char))
    (absent : ∀ piece ∈ first :: others, separator ∉ piece) :
    split separator (join [separator] (first :: others)) = (first, others) := by
  induction others generalizing first with
  | nil => exact split_of_not_mem separator first (absent first (List.mem_singleton_self _))
  | cons next rest ih =>
      have inFirst := absent first List.mem_cons_self
      have inRest := ih next fun piece held => absent piece (List.mem_cons_of_mem _ held)
      rw [join_cons_cons, List.append_assoc, List.singleton_append,
        split_append_separator separator first _ inFirst, inRest]

theorem separator_not_mem_pieces (separator : Char) (text : String) :
    ∀ piece ∈ pieces separator text, separator ∉ piece.toList := by
  have absent := separator_not_mem_split separator text.toList
  intro piece held
  obtain ⟨chars, inSplit, rfl⟩ := List.mem_map.mp held
  rw [String.toList_ofList]
  exact absent chars inSplit

theorem joined_pieces (separator : Char) (text : String) :
    joined (String.singleton separator) (pieces separator text) = text := by
  have whole := join_split separator text.toList
  simp [joined, pieces, Function.comp_def, whole]

theorem pieces_joined (separator : Char) (first : String) (others : List String)
    (absent : ∀ piece ∈ first :: others, separator ∉ piece.toList) :
    pieces separator (joined (String.singleton separator) (first :: others)) = first :: others := by
  have absentChars : ∀ piece ∈ first.toList :: others.map String.toList, separator ∉ piece := by
    simpa using absent
  simp [pieces, joined, split_join separator _ _ absentChars]

end FilterQuery.Text
