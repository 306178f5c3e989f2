import FilterQuery.Condition

/-!
The names that joined and searched tables are given. Main statement: a name says what it was made
for, so no two of them are the same.
-/

namespace FilterQuery

inductive TableUse where
  | joined
  | searched
  deriving DecidableEq, Repr

structure TableName where
  use : TableUse
  number : Nat
  isLink : Bool
  deriving DecidableEq, Repr

namespace TableName

def letter : TableUse → Char
  | .joined => 'j'
  | .searched => 's'

def suffix (isLink : Bool) : List Char :=
  if isLink then ['_', 'l', 'i', 'n', 'k'] else []

def text (name : TableName) : String :=
  String.ofList (letter name.use :: Text.natural name.number ++ suffix name.isLink)

theorem letter_injective {left right : TableUse} (same : letter left = letter right) :
    left = right := by
  cases left <;> cases right <;> simp [letter] at same ⊢

-- The number ends where the digits end, so what stands before and after it can be told apart.
theorem digits_suffix_injective {left right : Nat} {leftLink rightLink : Bool}
    (same : Text.natural left ++ suffix leftLink = Text.natural right ++ suffix rightLink) :
    left = right ∧ leftLink = rightLink := by
  have digits (number : Nat) : ∀ char ∈ Text.natural number, char.isDigit = true :=
    fun _ held => Nat.isDigit_of_mem_toDigits (by decide) (by decide) held
  have stop (isLink : Bool) : (suffix isLink).takeWhile Char.isDigit = [] := by
    cases isLink <;> rfl
  have sameDigits : Text.natural left = Text.natural right := by
    have cut := congrArg (List.takeWhile Char.isDigit) same
    rwa [List.takeWhile_append_of_pos (digits left), List.takeWhile_append_of_pos (digits right),
      stop, stop, List.append_nil, List.append_nil] at cut
  constructor
  · rw [← Text.ofDigits_natural left, sameDigits, Text.ofDigits_natural]
  · rw [sameDigits] at same
    have sameSuffix := List.append_cancel_left same
    cases leftLink <;> cases rightLink <;> simp [suffix] at sameSuffix ⊢

theorem text_injective {left right : TableName} (same : left.text = right.text) : left = right := by
  obtain ⟨leftUse, leftNumber, leftLink⟩ := left
  obtain ⟨rightUse, rightNumber, rightLink⟩ := right
  have sameChars := congrArg String.toList same
  simp only [text, String.toList_ofList, List.cons_append, List.cons.injEq] at sameChars
  obtain ⟨sameLetter, sameRest⟩ := sameChars
  obtain ⟨sameNumber, sameLink⟩ := digits_suffix_injective sameRest
  rw [letter_injective sameLetter, sameNumber, sameLink]

theorem text_ne {left right : TableName} (different : left ≠ right) : left.text ≠ right.text :=
  fun same => different (text_injective same)

def ofJoin (number : Nat) : TableName :=
  ⟨.joined, number, false⟩

def ofSearch (number : Nat) : TableName :=
  ⟨.searched, number, false⟩

def linking (name : TableName) : TableName :=
  { name with isLink := true }

theorem text_linking {name : TableName} (plain : name.isLink = false) :
    name.linking.text = Join.linkBinding name.text := by
  have suffixText : "_link" = String.ofList (suffix true) := rfl
  rw [Join.linkBinding, suffixText, text, text, plain, ← String.ofList_append]
  simp [linking, suffix]

theorem text_ofJoin (number : Nat) : (ofJoin number).text = "j" ++ Text.naturalText number := by
  have letterText : "j" = String.ofList ['j'] := rfl
  rw [letterText, Text.naturalText, ← String.ofList_append]
  simp [text, ofJoin, letter, suffix]

theorem nextBinding_eq (plan : JoinPlan) :
    plan.nextBinding = (ofJoin (plan.joins.length + 1)).text :=
  (text_ofJoin _).symm

theorem subqueryBinding_eq (number : Nat) :
    Planned.subqueryBinding number = (ofSearch number).text := by
  have letterText : "s" = String.ofList ['s'] := rfl
  rw [Planned.subqueryBinding, letterText, Text.naturalText, ← String.ofList_append]
  simp [text, ofSearch, letter, suffix]

end TableName

/-- A name that a joined or searched table, or a link table, may be given. -/
def IsGenerated (name : String) : Prop :=
  ∃ generated : TableName, generated.text = name

theorem not_isGenerated {name : String} (first : Char) (starts : name.toList.head? = some first)
    (notJoined : first ≠ 'j') (notSearched : first ≠ 's') : ¬ IsGenerated name := by
  rintro ⟨⟨use, number, isLink⟩, rfl⟩
  rw [TableName.text, String.toList_ofList] at starts
  have sameLetter := Option.some.inj starts
  cases use with
  | joined => exact notJoined sameLetter.symm
  | searched => exact notSearched sameLetter.symm

end FilterQuery
