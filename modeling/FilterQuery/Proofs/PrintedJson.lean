import FilterQuery.Proofs.FloatText
import FilterQuery.Proofs.PrintedTexts

/-!
JSON values as they are printed and read. What is printed is cut into lexemes wherever the text goes
on, the lexemes make one tree whatever comes behind them, and the tree denotes the value, with each
float as it is read in its own digits. Main statement: a printed value is read as such a tree.
-/

namespace FilterQuery.Json

/-! A text and the lexemes that it is cut into. -/

/-- The text is cut into the lexemes, under every bound that is large enough. -/
def Lexes (text : List Char) (lexemes : List Lexeme) : Prop :=
  ∀ bound, text.length ≤ bound → lexemesWithin bound text = some lexemes

def FollowsValue (rest : List Char) : Prop :=
  ∀ next ∈ rest.head?, next ∈ [',', ']', '\x7d']

theorem FollowsValue.endsNumber {rest : List Char} (follows : FollowsValue rest) :
    EndsNumber rest := by
  intro next head
  have known := follows next head
  simp only [List.mem_cons, List.not_mem_nil, or_false] at known
  rcases known with rfl | rfl | rfl <;> decide

theorem FollowsValue.endsWord {rest : List Char} (follows : FollowsValue rest) :
    ∀ next ∈ rest.head?, next.isAlpha = false := by
  intro next head
  have known := follows next head
  simp only [List.mem_cons, List.not_mem_nil, or_false] at known
  rcases known with rfl | rfl | rfl <;> decide

theorem Lexes.nil : Lexes [] [] := by
  intro bound _
  cases bound <;> rfl

theorem Lexes.cons {first : Char} {rest more : List Char} {lexeme : Lexeme} {later : List Lexeme}
    (notSpace : isSpace first = false) (scanned : scan first rest = some (lexeme, more))
    (shorter : more.length ≤ rest.length) (lexes : Lexes more later) :
    Lexes (first :: rest) (lexeme :: later) := by
  intro bound enough
  cases bound with
  | zero => cases enough
  | succ bound =>
      have found := lexes bound (Nat.le_trans shorter (Nat.le_of_succ_le_succ enough))
      simp [lexemesWithin, notSpace, scanned, found]

theorem Lexes.mark (sign : Char) (lexeme : Lexeme) {rest : List Char} {later : List Lexeme}
    (known : (sign, lexeme) ∈ [('[', .openList), (']', .closeList), ('\x7b', .openObject),
      ('\x7d', .closeObject), (',', .comma), (':', .colon)])
    (lexes : Lexes rest later) : Lexes (sign :: rest) (lexeme :: later) := by
  simp only [List.mem_cons, List.not_mem_nil, or_false, Prod.mk.injEq] at known
  rcases known with ⟨rfl, rfl⟩ | ⟨rfl, rfl⟩ | ⟨rfl, rfl⟩ | ⟨rfl, rfl⟩ | ⟨rfl, rfl⟩ | ⟨rfl, rfl⟩ <;>
    exact .cons (by decide) rfl (Nat.le_refl _) lexes

theorem Lexes.text {text : String} {rest : List Char} {later : List Lexeme}
    (lexes : Lexes rest later) :
    Lexes (printedText text ++ rest) (.scalar (.text (marks text)) :: later) := by
  have shape : printedText text ++ rest =
      '"' :: (text.toList.flatMap printedChar ++ '"' :: rest) := by
    simp [printedText]
  rw [shape]
  refine .cons (by decide) ?_ ?_ lexes
  · rw [scan, scanText_printed]
    rfl
  · simp only [List.length_append, List.length_cons]
    omega

theorem scan_of_alpha {first : Char} (alpha : first.isAlpha = true) (rest : List Char) :
    scan first rest = (word? (first :: (rest.span Char.isAlpha).1)).map fun scalar =>
      (.scalar scalar, (rest.span Char.isAlpha).2) := by
  unfold scan
  split <;> first | cases alpha | rw [if_pos alpha]

theorem Lexes.word {first : Char} (letters : List Char) {rest : List Char} {scalar : Scalar}
    {later : List Lexeme} (known : word? (first :: letters) = some scalar)
    (alpha : ∀ char ∈ first :: letters, char.isAlpha = true) (notSpace : isSpace first = false)
    (follows : FollowsValue rest) (lexes : Lexes rest later) :
    Lexes (first :: (letters ++ rest)) (.scalar scalar :: later) := by
  obtain ⟨firstAlpha, lettersAlpha⟩ := List.forall_mem_cons.mp alpha
  refine .cons notSpace ?_ (by simp) lexes
  rw [scan_of_alpha firstAlpha, Text.span_run lettersAlpha follows.endsWord, known]
  rfl

theorem scan_of_numeral {first : Char} (numeric : first.isDigit = true ∨ first = '-')
    (rest : List Char) :
    scan first rest = (scanNumeral (first :: rest)).map fun scanned =>
      (.scalar (.number scanned.1), scanned.2) := by
  have notAlpha : first.isAlpha = false := by
    obtain digit | rfl := numeric
    · have range := Text.isDigit_iff.mp digit
      have code : first.val.toNat = first.toNat := rfl
      delta Char.isAlpha Char.isUpper Char.isLower
      simp [UInt32.le_iff_toNat_le]
      omega
    · rfl
  unfold scan
  split
  any_goals simp at numeric
  rw [notAlpha, if_neg Bool.false_ne_true]

theorem not_space_of_numeral {first : Char} (numeric : first.isDigit = true ∨ first = '-') :
    isSpace first = false := by
  obtain digit | rfl := numeric
  · have range := Text.isDigit_iff.mp digit
    refine Bool.not_eq_true _ ▸ fun space => ?_
    simp only [isSpace, Bool.or_eq_true, beq_iff_eq] at space
    rcases space with ((rfl | rfl) | rfl) | rfl <;> revert digit <;> decide
  · rfl

theorem Numeral.IsWritten.starts {numeral : Numeral} (written : numeral.IsWritten) :
    ∃ first others, numeral.text = first :: others ∧ (first.isDigit = true ∨ first = '-') := by
  obtain ⟨digit, others, whole⟩ := List.exists_cons_of_ne_nil written.nonempty
  rw [Numeral.text, whole]
  cases numeral.negative with
  | true => exact ⟨_, _, rfl, .inr rfl⟩
  | false => exact ⟨_, _, rfl, .inl (written.whole digit (whole ▸ List.mem_cons_self))⟩

theorem Lexes.numeral {numeral : Numeral} (written : numeral.IsWritten) {rest : List Char}
    {later : List Lexeme} (follows : FollowsValue rest) (lexes : Lexes rest later) :
    Lexes (numeral.text ++ rest) (.scalar (.number numeral) :: later) := by
  have scanned := scanNumeral_text written follows.endsNumber
  obtain ⟨first, others, text, numeric⟩ := written.starts
  rw [text, List.cons_append] at scanned ⊢
  refine .cons (not_space_of_numeral numeric) ?_ (by simp) lexes
  rw [scan_of_numeral numeric, scanned]
  rfl

/-! A text and the tree that its lexemes make. -/

/-- The text of a value: it is cut into lexemes that make the tree, whatever follows. -/
structure Spells (text : List Char) (tree : Written) (lexemes : List Lexeme) : Prop where
  lexes {rest : List Char} {later : List Lexeme} (follows : FollowsValue rest)
    (lexes : Lexes rest later) :
    Lexes (text ++ rest) (lexemes ++ later)
  makes {bound : Nat} (enough : lexemes.length ≤ bound) (later : List Lexeme) :
    Written.value bound (lexemes ++ later) = some (tree, later)
  opens : ∃ first others, lexemes = first :: others ∧ first ≠ .closeList

structure SpellsItems (text : List Char) (trees : List Written) (lexemes : List Lexeme) : Prop where
  lexes {rest : List Char} {later : List Lexeme} (lexes : Lexes rest later) :
    Lexes (text ++ rest) (lexemes ++ later)
  makes {bound : Nat} (enough : lexemes.length ≤ bound) (later : List Lexeme) :
    Written.moreItems bound (lexemes ++ later) = some (trees, later)
  follows (rest : List Char) : FollowsValue (text ++ rest)

structure SpellsMembers (text : List Char) (trees : List (List Mark × Written))
    (lexemes : List Lexeme) : Prop where
  lexes {rest : List Char} {later : List Lexeme} (lexes : Lexes rest later) :
    Lexes (text ++ rest) (lexemes ++ later)
  makes {bound : Nat} (enough : lexemes.length ≤ bound) (later : List Lexeme) :
    Written.moreMembers bound (lexemes ++ later) = some (trees, later)
  follows (rest : List Char) : FollowsValue (text ++ rest)

theorem Spells.scalar {text : List Char} {scalar : Scalar}
    (lexes : ∀ {rest later}, FollowsValue rest → Lexes rest later →
      Lexes (text ++ rest) (.scalar scalar :: later)) :
    Spells text (.scalar scalar) [.scalar scalar] where
  lexes := lexes
  makes enough later := by
    obtain ⟨bound, rfl⟩ := Nat.exists_eq_succ_of_ne_zero (Nat.ne_zero_of_lt enough)
    rfl
  opens := ⟨_, _, rfl, nofun⟩

theorem FollowsValue.of_head {first : Char} (known : first ∈ [',', ']', '\x7d'])
    (others : List Char) :
    FollowsValue (first :: others) := by
  intro next head
  cases head
  exact known

theorem SpellsItems.close : SpellsItems [']'] [] [.closeList] where
  lexes lexes := lexes.mark ']' .closeList (by simp)
  makes enough later := by
    obtain ⟨bound, rfl⟩ := Nat.exists_eq_succ_of_ne_zero (Nat.ne_zero_of_lt enough)
    rfl
  follows rest := .of_head (by simp) rest

theorem SpellsItems.item {text others : List Char} {tree : Written} {trees : List Written}
    {lexemes otherLexemes : List Lexeme} (first : Spells text tree lexemes)
    (rest : SpellsItems others trees otherLexemes) :
    SpellsItems (',' :: text ++ others) (tree :: trees) (.comma :: lexemes ++ otherLexemes) where
  lexes lexes := by
    have later := first.lexes (rest.follows _) (rest.lexes lexes)
    simpa using later.mark ',' .comma (by simp)
  makes {bound} enough later := by
    simp only [List.cons_append, List.length_cons, List.length_append] at enough
    obtain ⟨bound, rfl⟩ := Nat.exists_eq_add_one_of_ne_zero (show bound ≠ 0 by omega)
    simp only [List.cons_append, List.append_assoc, Written.moreItems, Option.bind_eq_bind,
      Option.bind_some, first.makes (show lexemes.length ≤ bound by omega),
      rest.makes (show otherLexemes.length ≤ bound by omega)]
  follows rest := .of_head (by simp) _

theorem Spells.emptyList : Spells ['[', ']'] (.list []) [.openList, .closeList] where
  lexes _ lexes := (lexes.mark ']' .closeList (by simp)).mark '[' .openList (by simp)
  makes enough later := by
    obtain ⟨bound, rfl⟩ := Nat.exists_eq_succ_of_ne_zero (Nat.ne_zero_of_lt enough)
    rfl
  opens := ⟨_, _, rfl, nofun⟩

theorem Spells.list {text others : List Char} {tree : Written} {trees : List Written}
    {lexemes otherLexemes : List Lexeme} (first : Spells text tree lexemes)
    (rest : SpellsItems others trees otherLexemes) :
    Spells ('[' :: text ++ others) (.list (tree :: trees))
      (.openList :: lexemes ++ otherLexemes) where
  lexes _ lexes := by
    have later := first.lexes (rest.follows _) (rest.lexes lexes)
    simpa using later.mark '[' .openList (by simp)
  makes {bound} enough later := by
    simp only [List.cons_append, List.length_cons, List.length_append] at enough
    obtain ⟨bound, rfl⟩ := Nat.exists_eq_add_one_of_ne_zero (show bound ≠ 0 by omega)
    have made := first.makes (show lexemes.length ≤ bound by omega) (otherLexemes ++ later)
    obtain ⟨lexeme, more, rfl, notClosed⟩ := first.opens
    simp only [List.cons_append, List.append_assoc] at made ⊢
    rw [Written.value]
    · simp only [made, Option.bind_eq_bind, Option.bind_some,
        rest.makes (show otherLexemes.length ≤ bound by omega)]
    · intro behind same
      cases same
      exact notClosed rfl
  opens := ⟨_, _, rfl, nofun⟩

theorem SpellsMembers.close : SpellsMembers ['\x7d'] [] [.closeObject] where
  lexes lexes := lexes.mark '\x7d' .closeObject (by simp)
  makes enough later := by
    obtain ⟨bound, rfl⟩ := Nat.exists_eq_succ_of_ne_zero (Nat.ne_zero_of_lt enough)
    rfl
  follows rest := .of_head (by simp) rest

theorem Lexes.key (key : String) {rest : List Char} {later : List Lexeme}
    (lexes : Lexes rest later) :
    Lexes (printedText key ++ ':' :: rest) (.scalar (.text (marks key)) :: .colon :: later) :=
  (lexes.mark ':' .colon (by simp)).text

theorem SpellsMembers.member (key : String) {text others : List Char} {tree : Written}
    {trees : List (List Mark × Written)} {lexemes otherLexemes : List Lexeme}
    (first : Spells text tree lexemes) (rest : SpellsMembers others trees otherLexemes) :
    SpellsMembers (',' :: printedText key ++ ':' :: text ++ others) ((marks key, tree) :: trees)
      (.comma :: .scalar (.text (marks key)) :: .colon :: lexemes ++ otherLexemes) where
  lexes lexes := by
    have later := (first.lexes (rest.follows _) (rest.lexes lexes)).key key
    simpa using later.mark ',' .comma (by simp)
  makes {bound} enough later := by
    simp only [List.cons_append, List.length_cons, List.length_append] at enough
    obtain ⟨bound, rfl⟩ := Nat.exists_eq_add_one_of_ne_zero (show bound ≠ 0 by omega)
    simp only [List.cons_append, List.append_assoc, Written.moreMembers, Option.bind_eq_bind,
      Option.bind_some, first.makes (show lexemes.length ≤ bound by omega),
      rest.makes (show otherLexemes.length ≤ bound by omega)]
  follows rest := .of_head (by simp) _

theorem Spells.emptyObject : Spells ['\x7b', '\x7d'] (.object []) [.openObject, .closeObject] where
  lexes _ lexes := (lexes.mark '\x7d' .closeObject (by simp)).mark '\x7b' .openObject (by simp)
  makes enough later := by
    obtain ⟨bound, rfl⟩ := Nat.exists_eq_succ_of_ne_zero (Nat.ne_zero_of_lt enough)
    rfl
  opens := ⟨_, _, rfl, nofun⟩

theorem Spells.object (key : String) {text others : List Char} {tree : Written}
    {trees : List (List Mark × Written)} {lexemes otherLexemes : List Lexeme}
    (first : Spells text tree lexemes) (rest : SpellsMembers others trees otherLexemes) :
    Spells ('\x7b' :: printedText key ++ ':' :: text ++ others)
      (.object ((marks key, tree) :: trees))
      (.openObject :: .scalar (.text (marks key)) :: .colon :: lexemes ++ otherLexemes) where
  lexes _ lexes := by
    have later := (first.lexes (rest.follows _) (rest.lexes lexes)).key key
    simpa using later.mark '\x7b' .openObject (by simp)
  makes {bound} enough later := by
    simp only [List.cons_append, List.length_cons, List.length_append] at enough
    obtain ⟨bound, rfl⟩ := Nat.exists_eq_add_one_of_ne_zero (show bound ≠ 0 by omega)
    simp only [List.cons_append, List.append_assoc, Written.value, Option.bind_eq_bind,
      Option.bind_some, first.makes (show lexemes.length ≤ bound by omega),
      rest.makes (show otherLexemes.length ≤ bound by omega)]
  opens := ⟨_, _, rfl, nofun⟩

/-! Values. -/

mutual

/-- The numbers of a value are such as JSON holds: integers of 64 bits, signed or not, and finite
floats. -/
def Fits : Json → Prop
  | .integer value => -Int.pow 2 63 ≤ value ∧ value < Int.pow 2 64
  | .float value => value.isFinite = true
  | .list items => FitsItems items
  | .object members => FitsMembers members
  | _ => True

def FitsItems : List Json → Prop
  | [] => True
  | item :: rest => item.Fits ∧ FitsItems rest

def FitsMembers : List (String × Json) → Prop
  | [] => True
  | (_, value) :: rest => value.Fits ∧ FitsMembers rest

end

mutual

/-- The same value with every float as it is read in its own digits. -/
def reread : Json → Json
  | .float value => .float value.reread
  | .list items => .list (rereadItems items)
  | .object members => .object (rereadMembers members)
  | other => other

def rereadItems : List Json → List Json
  | [] => []
  | item :: rest => item.reread :: rereadItems rest

def rereadMembers : List (String × Json) → List (String × Json)
  | [] => []
  | (key, value) :: rest => (key, value.reread) :: rereadMembers rest

end

mutual

def nesting : Json → Nat
  | .list items => nestingOfItems items + 1
  | .object members => nestingOfMembers members + 1
  | _ => 0

def nestingOfItems : List Json → Nat
  | [] => 0
  | item :: rest => max item.nesting (nestingOfItems rest)

def nestingOfMembers : List (String × Json) → Nat
  | [] => 0
  | (_, value) :: rest => max value.nesting (nestingOfMembers rest)

end

structure Mirrors (tree : Written) (value : Json) : Prop where
  denotes : tree.denoted? = some value.reread
  nesting : tree.nesting = value.nesting

structure MirrorsItems (trees : List Written) (items : List Json) : Prop where
  denotes : Written.denotedItems? trees = some (rereadItems items)
  nesting : Written.nestingOfItems trees = nestingOfItems items

structure MirrorsMembers (trees : List (List Mark × Written))
    (members : List (String × Json)) : Prop where
  denotes : Written.denotedMembers? trees = some (rereadMembers members)
  nesting : Written.nestingOfMembers trees = nestingOfMembers members

theorem MirrorsItems.cons {tree : Written} {item : Json} {trees : List Written} {items : List Json}
    (first : Mirrors tree item) (rest : MirrorsItems trees items) :
    MirrorsItems (tree :: trees) (item :: items) where
  denotes := by simp [Written.denotedItems?, first.denotes, rest.denotes, rereadItems]
  nesting := by rw [Written.nestingOfItems, nestingOfItems, first.nesting, rest.nesting]

theorem MirrorsMembers.cons (key : String) {tree : Written} {value : Json}
    {trees : List (List Mark × Written)} {members : List (String × Json)}
    (first : Mirrors tree value) (rest : MirrorsMembers trees members) :
    MirrorsMembers ((marks key, tree) :: trees) ((key, value) :: members) where
  denotes := by
    simp [Written.denotedMembers?, textOf?_marks, first.denotes, rest.denotes, rereadMembers]
  nesting := by rw [Written.nestingOfMembers, nestingOfMembers, first.nesting, rest.nesting]

theorem Mirrors.list {trees : List Written} {items : List Json} (all : MirrorsItems trees items) :
    Mirrors (.list trees) (.list items) where
  denotes := by rw [Written.denoted?, all.denotes, reread, Option.map_some]
  nesting := by rw [Written.nesting, Json.nesting, all.nesting]

theorem Mirrors.object {trees : List (List Mark × Written)} {members : List (String × Json)}
    (all : MirrorsMembers trees members) : Mirrors (.object trees) (.object members) where
  denotes := by rw [Written.denoted?, all.denotes, reread, Option.map_some]
  nesting := by rw [Written.nesting, Json.nesting, all.nesting]

mutual

theorem exists_spells : (value : Json) → value.Fits → ∃ tree lexemes,
    Spells value.printed tree lexemes ∧ Mirrors tree value
  | .null, _ =>
      ⟨_, _, .scalar fun follows lexes =>
        .word ['u', 'l', 'l'] rfl (List.all_eq_true.mp rfl) rfl follows lexes, rfl, rfl⟩
  | .truth true, _ =>
      ⟨_, _, .scalar fun follows lexes =>
        .word ['r', 'u', 'e'] rfl (List.all_eq_true.mp rfl) rfl follows lexes, rfl, rfl⟩
  | .truth false, _ =>
      ⟨_, _, .scalar fun follows lexes =>
        .word ['a', 'l', 's', 'e'] rfl (List.all_eq_true.mp rfl) rfl follows lexes, rfl, rfl⟩
  | .integer value, fits => by
      refine ⟨.scalar (.number (integerNumeral value)), _, .scalar fun follows lexes => ?_,
        value?_integerNumeral fits.1 fits.2, rfl⟩
      rw [printed, ← text_integerNumeral]
      exact .numeral (isWritten_integerNumeral value) follows lexes
  | .float value, fits => by
      have finite : value.isFinite = true := fits
      obtain ⟨numeral, written, text, denotes, _, _⟩ := Binary64.exists_numeral finite
      refine ⟨.scalar (.number numeral), _, .scalar fun follows lexes => ?_, denotes, rfl⟩
      rw [printed, printedFloat, if_pos finite, text]
      exact .numeral written follows lexes
  | .text value, _ => by
      refine ⟨.scalar (.text (marks value)), _, .scalar fun _ lexes => .text lexes, ?_, rfl⟩
      rw [Written.denoted?, Scalar.value?, textOf?_marks]
      rfl
  | .list [], _ => ⟨_, _, .emptyList, rfl, rfl⟩
  | .list (item :: rest), fits => by
      obtain ⟨tree, lexemes, first, mirrors⟩ := exists_spells item fits.1
      obtain ⟨trees, otherLexemes, others, mirrorOthers⟩ := exists_spellsItems rest fits.2
      exact ⟨_, _, .list first others, .list (.cons mirrors mirrorOthers)⟩
  | .object [], _ => ⟨_, _, .emptyObject, rfl, rfl⟩
  | .object ((key, value) :: rest), fits => by
      obtain ⟨tree, lexemes, first, mirrors⟩ := exists_spells value fits.1
      obtain ⟨trees, otherLexemes, others, mirrorOthers⟩ := exists_spellsMembers rest fits.2
      exact ⟨_, _, .object key first others, .object (.cons key mirrors mirrorOthers)⟩

theorem exists_spellsItems : (items : List Json) → FitsItems items → ∃ trees lexemes,
    SpellsItems (printedItems items) trees lexemes ∧ MirrorsItems trees items
  | [], _ => ⟨_, _, .close, rfl, rfl⟩
  | item :: rest, fits => by
      obtain ⟨tree, lexemes, first, mirrors⟩ := exists_spells item fits.1
      obtain ⟨trees, otherLexemes, others, mirrorOthers⟩ := exists_spellsItems rest fits.2
      exact ⟨_, _, .item first others, .cons mirrors mirrorOthers⟩

theorem exists_spellsMembers :
    (members : List (String × Json)) → FitsMembers members → ∃ trees lexemes,
    SpellsMembers (printedMembers members) trees lexemes ∧ MirrorsMembers trees members
  | [], _ => ⟨_, _, .close, rfl, rfl⟩
  | (key, value) :: rest, fits => by
      obtain ⟨tree, lexemes, first, mirrors⟩ := exists_spells value fits.1
      obtain ⟨trees, otherLexemes, others, mirrorOthers⟩ := exists_spellsMembers rest fits.2
      exact ⟨_, _, .member key first others, .cons key mirrors mirrorOthers⟩

end

/-- A printed value is read, with each float as it is read in its own digits, unless it nests too
deep. -/
theorem read?_print {value : Json} (fits : value.Fits) :
    read? value.print = if value.nesting ≤ Written.maxNesting then some value.reread else none := by
  obtain ⟨tree, lexemes, spells, denotes, nests⟩ := exists_spells value fits
  have nothing : FollowsValue [] := nofun
  have cut := spells.lexes nothing .nil _ (Nat.le_refl _)
  have made := spells.makes (Nat.le_refl _) []
  simp only [List.append_nil] at cut made
  have written : Written.read? value.print = some tree := by
    simp only [Written.read?, print, String.toList_ofList, Json.lexemes, cut, made,
      Option.bind_eq_bind, Option.bind_some]
  rw [read?, written, Option.bind_eq_bind, Option.bind_some, Written.toJson?, nests, denotes]

end FilterQuery.Json
