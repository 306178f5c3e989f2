import FilterQuery.Environment
import FilterQuery.Text.Pieces
import Mathlib.Data.List.Basic
import Mathlib.Data.List.Infix

/-!
References to variables in a text, each on its own: a reference is opened, has a name, and is
closed, and another one does not open in between. Main statement: that is how a text is expanded in
every environment, unless something in it is opened twice before it is closed; there the first
opening counts, and hides the second.
-/

namespace FilterQuery.Environment

def opening : List Char :=
  ['$', '\x7b']

/-- A name that a reference can have. -/
def IsName (name : List Char) : Prop :=
  name ≠ [] ∧ '\x7d' ∉ name ∧ ¬ opening <:+: name

/-- One pass over a text from the left. Set variables give their values in place of the references
to them, and nothing else changes. -/
inductive Expands (environment : Environment) : List Char → List Char → Prop where
  | nil : Expands environment [] []
  | replaced {name rest out : List Char} {value : String} (isName : IsName name)
      (held : environment.value? (String.ofList name) = some value)
      (later : Expands environment rest out) :
      Expands environment (reference name ++ rest) (value.toList ++ out)
  | unset {name rest out : List Char} (isName : IsName name)
      (missing : environment.value? (String.ofList name) = none)
      (later : Expands environment rest out) :
      Expands environment (reference name ++ rest) (reference name ++ out)
  | char {char : Char} {rest out : List Char}
      (plain : ∀ name behind, IsName name → char :: rest ≠ reference name ++ behind)
      (later : Expands environment rest out) :
      Expands environment (char :: rest) (char :: out)

/-- A reference is opened while another is open. -/
def OpensInside (text : List Char) : Prop :=
  ∃ before name behind, text = before ++ reference name ++ behind ∧ '\x7d' ∉ name ∧
    opening <:+: name

theorem reference_append (name rest : List Char) :
    reference name ++ rest = opening ++ name ++ '\x7d' :: rest := by
  simp [reference, opening]

/-- A text has one place where it is closed first. -/
theorem eq_of_first_brace {first second rest otherRest : List Char} (absent : '\x7d' ∉ first)
    (otherAbsent : '\x7d' ∉ second)
    (same : first ++ '\x7d' :: rest = second ++ '\x7d' :: otherRest) :
    first = second ∧ rest = otherRest := by
  have cut := congrArg (fun text => (Text.split '\x7d' text).1) same
  simp only [Text.split_append_separator _ _ _ absent,
    Text.split_append_separator _ _ _ otherAbsent] at cut
  subst cut
  exact ⟨rfl, List.tail_eq_of_cons_eq (List.append_cancel_left same)⟩

theorem not_mem_opening_append {name : List Char} (closes : '\x7d' ∉ name) :
    '\x7d' ∉ opening ++ name := by
  simp [opening, closes]

theorem reference_inj {name other rest otherRest : List Char} (closes : '\x7d' ∉ name)
    (otherCloses : '\x7d' ∉ other) (same : reference name ++ rest = reference other ++ otherRest) :
    name = other ∧ rest = otherRest := by
  rw [reference_append, reference_append] at same
  obtain ⟨whole, sameRest⟩ :=
    eq_of_first_brace (not_mem_opening_append closes) (not_mem_opening_append otherCloses) same
  exact ⟨List.append_cancel_left whole, sameRest⟩

theorem opening_of_reference {text name behind : List Char}
    (same : text = reference name ++ behind) :
    opening <+: text := by
  rw [same, reference_append, List.append_assoc]
  exact List.prefix_append _ _

/-- A text by what the scanner meets: a reference, something that is opened and not closed, or
another character. -/
theorem reading_induction {motive : List Char → Prop} (nil : motive [])
    (closed : ∀ name rest, '\x7d' ∉ name → motive rest → motive (reference name ++ rest))
    (unclosed : ∀ rest, '\x7d' ∉ rest → motive (opening ++ rest))
    (char : ∀ char rest, ¬ opening <+: char :: rest → motive rest → motive (char :: rest))
    (text : List Char) :
    motive text := by
  induction length : text.length using Nat.strong_induction_on generalizing text with
  | _ size ih =>
      have smaller (rest : List Char) (shorter : rest.length < text.length) : motive rest :=
        ih rest.length (length ▸ shorter) rest rfl
      by_cases opens : opening <+: text
      · obtain ⟨rest, rfl⟩ := opens
        by_cases ends : '\x7d' ∈ rest
        · obtain ⟨name, behind, rfl, closes⟩ := List.eq_append_cons_of_mem ends
          have found := closed name behind closes (smaller behind (by simp; omega))
          rwa [reference_append, List.append_assoc] at found
        · exact unclosed rest ends
      · cases text with
        | nil => exact nil
        | cons first rest => exact char first rest opens (smaller rest (by simp))

/-! What the scanner makes of them. -/

section Scanner

variable (environment : Environment)

theorem expandName_closed (seen rest : List Char) {name : List Char} (closes : '\x7d' ∉ name) :
    environment.expandName seen (name ++ '\x7d' :: rest) =
      environment.replacement (seen.reverse ++ name) ++ environment.expand rest := by
  induction name generalizing seen with
  | nil => simp [expandName]
  | cons char more ih =>
      rw [List.mem_cons, not_or] at closes
      simp [expandName, Ne.symm closes.1, ih _ closes.2]

theorem expandName_unclosed (seen : List Char) {text : List Char} (unclosed : '\x7d' ∉ text) :
    environment.expandName seen text = opening ++ seen.reverse ++ text := by
  induction text generalizing seen with
  | nil => simp [expandName, opening]
  | cons char rest ih =>
      rw [List.mem_cons, not_or] at unclosed
      simp [expandName, Ne.symm unclosed.1, ih _ unclosed.2]

theorem expand_reference {name : List Char} (closes : '\x7d' ∉ name) (rest : List Char) :
    environment.expand (reference name ++ rest) = environment.replacement name ++
      environment.expand rest := by
  rw [reference_append, List.append_assoc]
  exact environment.expandName_closed [] rest closes

theorem expand_unclosed {rest : List Char} (unclosed : '\x7d' ∉ rest) :
    environment.expand (opening ++ rest) = opening ++ rest :=
  environment.expandName_unclosed [] unclosed

theorem expand_char {char : Char} {rest : List Char} (plain : ¬ opening <+: char :: rest) :
    environment.expand (char :: rest) = char :: environment.expand rest := by
  have apart (behind : List Char) : char = '$' → rest ≠ '\x7b' :: behind := by
    rintro rfl rfl
    exact plain (List.prefix_append opening behind)
  rw [expand]
  exact apart

end Scanner

theorem expand_empty (text : List Char) : Environment.empty.expand text = text := by
  induction text using reading_induction with
  | nil => rfl
  | closed name rest closes ih => rw [expand_reference _ closes, ih]; rfl
  | unclosed rest unclosed => exact expand_unclosed _ unclosed
  | char char rest plain ih => rw [expand_char _ plain, ih]

/-! One pass against another. -/

theorem Expands.unique {environment : Environment} {text first second : List Char}
    (one : Expands environment text first) (other : Expands environment text second) :
    first = second := by
  induction one generalizing second with
  | nil => cases other; rfl
  | @replaced name rest out value isName held later ih =>
      generalize same : reference name ++ rest = text at other
      cases other with
      | nil => cases same
      | replaced otherName otherHeld otherLater =>
          obtain ⟨rfl, rfl⟩ := reference_inj isName.2.1 otherName.2.1 same
          cases held.symm.trans otherHeld
          rw [ih otherLater]
      | unset otherName missing _ =>
          obtain ⟨rfl, rfl⟩ := reference_inj isName.2.1 otherName.2.1 same
          cases held.symm.trans missing
      | char plain _ => exact absurd same.symm (plain name rest isName)
  | @unset name rest out isName missing later ih =>
      generalize same : reference name ++ rest = text at other
      cases other with
      | nil => cases same
      | replaced otherName held _ =>
          obtain ⟨rfl, rfl⟩ := reference_inj isName.2.1 otherName.2.1 same
          cases held.symm.trans missing
      | unset otherName _ otherLater =>
          obtain ⟨rfl, rfl⟩ := reference_inj isName.2.1 otherName.2.1 same
          rw [ih otherLater]
      | char plain _ => exact absurd same.symm (plain name rest isName)
  | @char char rest out plain later ih =>
      generalize same : char :: rest = text at other
      cases other with
      | nil => cases same
      | replaced otherName _ _ => exact absurd same (plain _ _ otherName)
      | unset otherName _ _ => exact absurd same (plain _ _ otherName)
      | char _ otherLater =>
          cases same
          rw [ih otherLater]

theorem Expands.of_not_opening {environment : Environment} {char : Char} {rest out : List Char}
    (plain : ¬ opening <+: char :: rest) (later : Expands environment rest out) :
    Expands environment (char :: rest) (char :: out) :=
  .char (fun _ _ _ same => plain (opening_of_reference same)) later

theorem Expands.of_plain {environment : Environment} (text : List Char) {rest out : List Char}
    (plain : '$' ∉ text) (later : Expands environment rest out) :
    Expands environment (text ++ rest) (text ++ out) := by
  induction text with
  | nil => exact later
  | cons char more ih =>
      rw [List.mem_cons, not_or] at plain
      exact .of_not_opening (by simp [opening, plain.1]) (ih plain.2)

theorem Expands.of_unclosed (environment : Environment) {text : List Char}
    (unclosed : '\x7d' ∉ text) :
    Expands environment text text := by
  induction text with
  | nil => exact .nil
  | cons char rest ih =>
      refine .char (fun name behind _ same => unclosed ?_)
        (ih fun held => unclosed (List.mem_cons_of_mem _ held))
      rw [same]
      simp [reference]

theorem Expands.of_unset {environment : Environment}
    (missing : ∀ name, IsName name → environment.value? (String.ofList name) = none)
    (text : List Char) :
    Expands environment text text := by
  induction length : text.length using Nat.strong_induction_on generalizing text with
  | _ size ih =>
      have smaller (rest : List Char) (shorter : rest.length < text.length) :
          Expands environment rest rest :=
        ih rest.length (length ▸ shorter) rest rfl
      by_cases starts : ∃ name behind, IsName name ∧ text = reference name ++ behind
      · obtain ⟨name, behind, isName, rfl⟩ := starts
        exact .unset isName (missing name isName) (smaller behind (by simp [reference]; omega))
      · cases text with
        | nil => exact .nil
        | cons char rest =>
            exact .char (fun name behind isName same => starts ⟨name, behind, isName, same⟩)
              (smaller rest (by simp))

theorem OpensInside.of_append {rest : List Char} (before : List Char) (opens : OpensInside rest) :
    OpensInside (before ++ rest) := by
  obtain ⟨front, name, behind, rfl, closes, nested⟩ := opens
  exact ⟨before ++ front, name, behind, by simp, closes, nested⟩

theorem expands_expand (environment : Environment) {text : List Char} (apart : ¬ OpensInside text) :
    Expands environment text (environment.expand text) := by
  induction text using reading_induction with
  | nil => exact .nil
  | unclosed rest unclosed =>
      rw [expand_unclosed _ unclosed]
      exact .of_unclosed environment (not_mem_opening_append unclosed)
  | char char rest plain ih =>
      rw [expand_char _ plain]
      exact .of_not_opening plain (ih fun opens => apart (opens.of_append [char]))
  | closed name rest closes ih =>
      have later := ih fun opens => apart (opens.of_append _)
      have single : ¬ opening <:+: name := fun nested => apart ⟨[], name, rest, rfl, closes, nested⟩
      rw [expand_reference _ closes, replacement]
      by_cases empty : name = []
      · -- Nothing can be named here, and the three characters are taken one by one.
        subst empty
        have third : Expands environment ('\x7d' :: rest) _ :=
          .of_not_opening (by simp [opening]) later
        have second : Expands environment ('\x7b' :: '\x7d' :: rest) _ :=
          .of_not_opening (by simp [opening]) third
        have first : Expands environment ('$' :: '\x7b' :: '\x7d' :: rest) _ := .char
          (fun other behind isName same =>
            isName.1 (reference_inj (by simp) isName.2.1 same).1.symm) second
        cases environment.value? (String.ofList []) <;> exact first
      · have isName : IsName name := ⟨empty, closes, single⟩
        cases held : environment.value? (String.ofList name) with
        | none => exact .unset isName held later
        | some value =>
            rw [List.isEmpty_eq_false_iff.mpr empty]
            exact .replaced isName held later

/-! Texts in which something is opened twice. -/

theorem OpensInside.behind {name rest : List Char} (closes : '\x7d' ∉ name)
    (single : ¬ opening <:+: name) (opens : OpensInside (reference name ++ rest)) :
    OpensInside rest := by
  obtain ⟨before, inner, behind, same, innerCloses, nested⟩ := opens
  have whole : opening ++ name ++ '\x7d' :: rest =
      before ++ (opening ++ inner ++ '\x7d' :: behind) := by
    rw [← reference_append, ← reference_append, same, List.append_assoc]
  by_cases later : '\x7d' ∈ before
  · obtain ⟨front, middle, rfl, absent⟩ := List.eq_append_cons_of_mem later
    obtain ⟨_, found⟩ := eq_of_first_brace (not_mem_opening_append closes) absent
      (whole.trans (List.append_assoc front _ _))
    refine ⟨middle, inner, behind, ?_, innerCloses, nested⟩
    rw [List.append_assoc, reference_append]
    exact found
  · -- The first brace closes both, so the inner name is the end of the outer one.
    have absent : '\x7d' ∉ before ++ (opening ++ inner) := by
      simpa [later] using not_mem_opening_append innerCloses
    obtain ⟨sameName, _⟩ := eq_of_first_brace (not_mem_opening_append closes) absent
      (whole.trans (List.append_assoc before _ _).symm)
    have size := congrArg List.length sameName
    simp only [List.length_append] at size
    have inOuter : inner <:+ opening ++ name := by
      rw [sameName]
      exact (List.suffix_append opening inner).trans (List.suffix_append before _)
    have ends : inner <:+ name :=
      List.suffix_of_suffix_length_le inOuter (List.suffix_append opening name) (by omega)
    exact absurd (nested.trans ends.isInfix) single

theorem OpensInside.tail {char : Char} {rest : List Char} (plain : ¬ opening <+: char :: rest)
    (opens : OpensInside (char :: rest)) : OpensInside rest := by
  obtain ⟨before, name, behind, same, closes, nested⟩ := opens
  cases before with
  | nil => exact absurd (opening_of_reference same) plain
  | cons first others =>
      cases same
      exact ⟨others, name, behind, rfl, closes, nested⟩

theorem value?_single (name value asked : String) :
    (Environment.empty.set name value).value? asked =
      if asked = name then some value else none := by
  rw [value?, set, Dictionary.find?_insert]
  rfl

theorem value?_of_hidden {hidden name : List Char} (nested : opening <:+: hidden)
    (single : ¬ opening <:+: name) :
    (Environment.empty.set (String.ofList hidden) "").value? (String.ofList name) = none := by
  rw [value?_single, if_neg]
  exact fun same => single (String.ofList_injective same ▸ nested)

/-- In an environment with nothing but empty values no text becomes longer. -/
theorem length_expand_le {environment : Environment}
    (blank : ∀ name value, environment.value? name = some value → value = "") (text : List Char) :
    (environment.expand text).length ≤ text.length := by
  induction text using reading_induction with
  | nil => exact Nat.le_refl _
  | unclosed rest unclosed => rw [expand_unclosed _ unclosed]
  | char char rest plain ih =>
      rw [expand_char _ plain]
      exact Nat.succ_le_succ ih
  | closed name rest closes ih =>
      rw [expand_reference _ closes, replacement, List.length_append, List.length_append]
      refine Nat.add_le_add ?_ ih
      cases held : environment.value? (String.ofList name) with
      | none => exact Nat.le_refl _
      | some value =>
          cases blank _ _ held
          by_cases empty : name.isEmpty <;> simp [empty]

/-- Some variable whose name holds an opening is replaced, so the text becomes shorter when its
value is empty. -/
theorem exists_hidden {text : List Char} (opens : OpensInside text) :
    ∃ name, opening <:+: name ∧
      ((Environment.empty.set (String.ofList name) "").expand text).length < text.length := by
  induction text using reading_induction with
  | nil =>
      obtain ⟨before, name, behind, same, _⟩ := opens
      simp [reference] at same
  | unclosed rest unclosed =>
      obtain ⟨before, name, behind, same, _⟩ := opens
      refine absurd ?_ (not_mem_opening_append unclosed)
      rw [same]
      simp [reference]
  | char char rest plain ih =>
      obtain ⟨name, nested, shorter⟩ := ih (opens.tail plain)
      refine ⟨name, nested, ?_⟩
      rw [expand_char _ plain]
      exact Nat.succ_lt_succ shorter
  | closed name rest closes ih =>
      have blank (hidden : List Char) (other value : String)
          (held : (Environment.empty.set (String.ofList hidden) "").value? other = some value) :
          value = "" := by
        rw [value?_single] at held
        split at held <;> cases held
        rfl
      by_cases nested : opening <:+: name
      · refine ⟨name, nested, ?_⟩
        have nonempty : name.isEmpty = false := by
          cases name with
          | nil => simp [opening] at nested
          | cons => rfl
        rw [expand_reference _ closes, replacement, value?_single, if_pos rfl]
        simp only [nonempty, Bool.false_eq_true, if_false]
        have short := length_expand_le (blank name) rest
        simp [reference]
        omega
      · obtain ⟨hidden, inside, shorter⟩ := ih (opens.behind closes nested)
        refine ⟨hidden, inside, ?_⟩
        rw [expand_reference _ closes, replacement, value?_of_hidden inside nested,
          List.length_append, List.length_append]
        exact Nat.add_lt_add_left shorter _

/-- In every environment a text is expanded as one pass over its references says, exactly when
nothing in it is opened twice before it is closed. Where no variable is set, every text stays as it
is. -/
theorem expandText_eq_iff (text : String) :
    ((∀ environment out, Expands environment text.toList out ↔
      out = (environment.expandText text).toList) ↔
        ¬ OpensInside text.toList) ∧
      Environment.empty.expandText text = text := by
  simp only [expandText, String.toList_ofList]
  refine ⟨⟨fun same opens => ?_, fun apart environment out => ⟨fun expands => ?_, ?_⟩⟩, ?_⟩
  · obtain ⟨hidden, nested, shorter⟩ := exists_hidden opens
    -- The one variable that is set has a name that no reference can have, so the pass changes
    -- nothing.
    have unchanged :
        Expands (Environment.empty.set (String.ofList hidden) "") text.toList text.toList :=
      .of_unset (fun name isName => value?_of_hidden nested isName.2.2) text.toList
    rw [← (same _ _).mp unchanged] at shorter
    exact Nat.lt_irrefl _ shorter
  · exact expands.unique (expands_expand environment apart)
  · rintro rfl
    exact expands_expand environment apart
  · rw [expand_empty, String.ofList_toList]

/-- A comment that opens a reference hides the one in the next line, and its variable is not
replaced there. -/
theorem hidden_reference_kept :
    let environment := Environment.empty.set "GROUP" "g"
    let text := "# $\x7b\ndefault_condition_group = \"$\x7bGROUP\x7d\""
    let expanded := "# $\x7b\ndefault_condition_group = \"g\""
    Expands environment text.toList expanded.toList ∧ environment.expandText text = text ∧
      text ≠ expanded := by
  refine ⟨?_, by decide, by decide⟩
  have comment : ['#', ' '] ++ '$' :: (('\x7b' :: "\ndefault_condition_group = \"".toList) ++
      (reference "GROUP".toList ++ ['"'])) =
        "# $\x7b\ndefault_condition_group = \"$\x7bGROUP\x7d\"".toList := by decide
  have expanded : ['#', ' '] ++ '$' :: (('\x7b' :: "\ndefault_condition_group = \"".toList) ++
      ("g".toList ++ ['"'])) = "# $\x7b\ndefault_condition_group = \"g\"".toList := by decide
  rw [← comment, ← expanded]
  have named : Expands (Environment.empty.set "GROUP" "g") (reference "GROUP".toList ++ ['"'])
      ("g".toList ++ ['"']) :=
    .replaced ⟨by decide, by decide, by decide⟩ (by decide) (.of_plain ['"'] (by decide) .nil)
  refine .of_plain _ (by decide)
    (.char (fun name behind isName same => ?_) (.of_plain _ (by decide) named))
  -- What the comment opens could only be called by a name that holds the other opening.
  have hidden : "\ndefault_condition_group = \"".toList ++ opening ++ "GROUP".toList = name :=
    (reference_inj (by decide) isName.2.1
      (show reference _ ++ ['"'] = reference name ++ behind by rw [← same]; decide)).1
  exact isName.2.2 (hidden ▸ by decide)

end FilterQuery.Environment
