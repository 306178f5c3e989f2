import FilterQuery.Proofs.Numerals
import FilterQuery.Proofs.ValuePlaces

/-!
Whole numbers as JSON writes them. The digits are scanned as they stand, and denote the integer that
they stand for when 64 bits hold it, signed or not. Anything beyond, and a zero with a minus,
denotes a float. Main statement: as the value of a condition in a text, an integer that 64 bits hold
with a sign is read as it is, one that needs all 64 bits is refused, and anything else is read as a
float.
-/

namespace FilterQuery.Json

/-- A whole number as it is written: a minus perhaps, and digits that do not start with a zero too
many. -/
structure IntegerLiteral where
  negative : Bool
  digits : List Char
  nonempty : digits ≠ []
  numeric : ∀ digit ∈ digits, digit.isDigit = true
  noLeadingZero : ¬ (digits.head? = some '0' ∧ 1 < digits.length)

namespace IntegerLiteral

variable (literal : IntegerLiteral)

def written : List Char :=
  (if literal.negative then ['-'] else []) ++ literal.digits

def magnitude : Nat :=
  Text.ofDigits literal.digits

def number : Int :=
  if literal.negative then -literal.magnitude else literal.magnitude

def numeral : Numeral :=
  ⟨literal.negative, literal.digits, [], none⟩

/-- No integer keeps the sign of a zero. -/
def IsNegativeZero : Prop :=
  literal.negative = true ∧ literal.magnitude = 0

instance : Decidable literal.IsNegativeZero :=
  inferInstanceAs (Decidable (_ ∧ _))

variable {literal}

theorem isWritten (literal : IntegerLiteral) : literal.numeral.IsWritten :=
  ⟨literal.nonempty, literal.noLeadingZero, literal.numeric, nofun⟩

theorem written_eq_text (literal : IntegerLiteral) : literal.written = literal.numeral.text := by
  have whole : literal.numeral.text = (if literal.negative then ['-'] else []) ++
      (literal.digits ++ []) := rfl
  rw [whole, List.append_nil, written]

theorem scanNumeral_written (literal : IntegerLiteral) {rest : List Char} (ends : EndsNumber rest) :
    scanNumeral (literal.written ++ rest) = some (literal.numeral, rest) := by
  rw [written_eq_text]
  exact scanNumeral_text literal.isWritten ends

theorem integer?_numeral (literal : IntegerLiteral) :
    literal.numeral.integer? =
      if literal.negative then
        if 0 < literal.magnitude ∧ literal.magnitude ≤ Nat.pow 2 63 then
          some (-(literal.magnitude : Int))
        else none
      else if literal.magnitude < Nat.pow 2 64 then some (literal.magnitude : Int)
      else none := by
  have plain : ¬ (literal.numeral.fraction ≠ [] ∨ literal.numeral.power ≠ none) := by simp [numeral]
  rw [Numeral.integer?, if_neg plain]
  rfl

theorem integer?_of_fits (literal : IntegerLiteral) (signed : ¬ literal.IsNegativeZero)
    (low : -Int.pow 2 63 ≤ literal.number) (high : literal.number < Int.pow 2 64) :
    literal.numeral.integer? = some literal.number := by
  have half : Int.pow 2 63 = (Nat.pow 2 63 : Nat) := rfl
  have whole : Int.pow 2 64 = (Nat.pow 2 64 : Nat) := rfl
  rw [number, half] at low
  rw [number, whole] at high
  rw [integer?_numeral, number]
  cases sign : literal.negative with
  | true =>
      have nonzero : literal.magnitude ≠ 0 := fun zero => signed ⟨sign, zero⟩
      rw [sign, if_pos rfl] at low
      rw [if_pos rfl, if_pos rfl]
      exact if_pos ⟨by omega, by omega⟩
  | false =>
      rw [sign, if_neg Bool.false_ne_true] at high
      rw [if_neg Bool.false_ne_true, if_neg Bool.false_ne_true]
      exact if_pos (by omega)

theorem integer?_of_exceeds (literal : IntegerLiteral)
    (exceeds : literal.number < -Int.pow 2 63 ∨ Int.pow 2 64 ≤ literal.number ∨
      literal.IsNegativeZero) :
    literal.numeral.integer? = none := by
  have half : Int.pow 2 63 = (Nat.pow 2 63 : Nat) := rfl
  have whole : Int.pow 2 64 = (Nat.pow 2 64 : Nat) := rfl
  have positive : 0 < Nat.pow 2 64 := by decide
  rw [number, half, whole, IsNegativeZero] at exceeds
  rw [integer?_numeral]
  cases sign : literal.negative with
  | true =>
      rw [sign, if_pos rfl, eq_self, true_and] at exceeds
      rw [if_pos rfl]
      exact if_neg (by omega)
  | false =>
      rw [sign, if_neg Bool.false_ne_true, Bool.false_eq_true, false_and, or_false] at exceeds
      rw [if_neg Bool.false_ne_true]
      exact if_neg (by omega)

theorem value?_of_fits (literal : IntegerLiteral) (signed : ¬ literal.IsNegativeZero)
    (low : -Int.pow 2 63 ≤ literal.number) (high : literal.number < Int.pow 2 64) :
    literal.numeral.value? = some (.integer literal.number) := by
  rw [Numeral.value?, literal.integer?_of_fits signed low high]

theorem value?_of_exceeds (literal : IntegerLiteral)
    (exceeds : literal.number < -Int.pow 2 63 ∨ Int.pow 2 64 ≤ literal.number ∨
      literal.IsNegativeZero) :
    literal.numeral.value? = literal.numeral.float?.map .float := by
  rw [Numeral.value?, literal.integer?_of_exceeds exceeds]

theorem not_isNegativeZero (literal : IntegerLiteral) (positive : 0 < literal.number) :
    ¬ literal.IsNegativeZero := by
  rintro ⟨negative, nothing⟩
  rw [number, if_pos negative, nothing] at positive
  exact absurd positive (by decide)

def zero : IntegerLiteral :=
  ⟨false, ['0'], List.cons_ne_nil _ _, List.forall_mem_singleton.mpr rfl, by decide⟩

end IntegerLiteral

end FilterQuery.Json

namespace FilterQuery

open Json Json.Written

theorem Value.isInRange_iff (number : Int) :
    isInRange number = true ↔ -Int.pow 2 63 ≤ number ∧ number < Int.pow 2 63 := by
  simp only [isInRange, Bool.and_eq_true, decide_eq_true_eq]

def Operator.ordering : List Operator :=
  [.less, .lessOrEqual, .greater, .greaterOrEqual]

theorem Operator.accepts_integer {operator : Operator} {value : Int} (number : Int)
    (accepted : operator.accepts (.integer value) = true) :
    operator.accepts (.integer number) = true := by
  cases operator <;> exact accepted

theorem Operator.accepts_float {operator : Operator} (number : Binary64)
    (takes : operator = .contains ∨ operator ∈ ordering) :
    operator.accepts (.float number) = true := by
  cases operator <;> first | rfl | simp [ordering] at takes

/-! A text with one condition, on a weight. -/

namespace Shelter

def weighed (number : String) : String :=
  "[\x7b\"field\": \"weight\", \"op\": \">\", \"value\": " ++ number ++ "\x7d]"

def weighedRecord (value : Written) : Written :=
  .object [(['f', 'i', 'e', 'l', 'd'].map .char,
    .scalar (.text (['w', 'e', 'i', 'g', 'h', 't'].map .char))),
    (['o', 'p'].map .char, .scalar (.text [.char '>'])),
    (['v', 'a', 'l', 'u', 'e'].map .char, value)]

def weighedTrees (value : Written) : List Written :=
  [weighedRecord value]

def weighedLexemes (numeral : Numeral) : List Lexeme :=
  [.openList, .openObject, .scalar (.text (['f', 'i', 'e', 'l', 'd'].map .char)), .colon,
    .scalar (.text (['w', 'e', 'i', 'g', 'h', 't'].map .char)), .comma,
    .scalar (.text (['o', 'p'].map .char)), .colon, .scalar (.text [.char '>']), .comma,
    .scalar (.text (['v', 'a', 'l', 'u', 'e'].map .char)), .colon, .scalar (.number numeral),
    .closeObject, .closeList]

def weight (value : Value) : Leaf :=
  ⟨.ofSegments "weight" [], .greater, value, "__default__"⟩

theorem weighed_place : ValuePlace weighedTrees := by
  have field : ValueField 2 weighedRecord := .member rfl [_, _] []
  exact @ValuePlace.condition _ field (.scalar .null) _ _ rfl rfl [] []

theorem weighed_written {number : String} {numeral : Numeral}
    (scanned : lexemes (weighed number).toList = some (weighedLexemes numeral)) :
    Written.read? (weighed number) = some (.list (weighedTrees (.scalar (.number numeral)))) := by
  rw [Written.read?, scanned]
  rfl

theorem weighed_read {number : String} {numeral : Numeral} {json : Json} {value : Value}
    (scanned : lexemes (weighed number).toList = some (weighedLexemes numeral))
    (denotes : numeral.value? = some json)
    (read : Node.leafOfRaw "weight" ">" json.settled "__default__" = .ok (weight value)) :
    Node.readList "__default__" (weighed number) = .ok [.leaf (weight value)] := by
  have denoted : (weighedRecord (.scalar (.number numeral))).denoted? =
      some (.object [("field", .text "weight"), ("op", .text ">"), ("value", json)]) := by
    simp [weighedRecord, Written.denoted?, denotedMembers?, Scalar.value?, denotes,
      textOf?, ofMarks?]
  have entry : (weighedRecord (.scalar (.number numeral))).filterOf? =
      some (.leaf "weight" ">" json.settled none) := by
    rw [Written.filterOf?, denoted, Option.bind_some]
    exact RawFilter.ofJson?_of_leaf rfl
  have fits : (Written.list (weighedTrees (.scalar (.number numeral)))).nesting ≤ maxNesting :=
    Nat.le_of_ble_eq_true rfl
  rw [Node.readList, RawFilter.readList?_of_written (weighed_written scanned), if_pos fits,
    Written.filtersOf?, weighedTrees, List.mapM_cons, entry]
  have readAll : Node.ofRawAll "__default__" [.leaf "weight" ">" json.settled none] =
      .ok [.leaf (weight value)] := by
    rw [Node.ofRawAll_singleton_ok]
    exact ⟨_, Node.ofRaw_leaf_ok_iff.mpr ⟨_, read, rfl⟩, rfl⟩
  exact readAll

end Shelter

/-- An integer that is written as the value of a condition with `contains` or with an order, in a
text that can be read with a zero there. One that fits in 64 bits with a sign is the value of the
condition; one that needs all 64 bits is refused as out of range. Anything beyond, and a zero with a
minus, becomes a float, or makes the text unreadable when it is too large for a float. -/
theorem Node.readList_integer (literal : IntegerLiteral) {trees : Written → List Written}
    (place : ValuePlace trees) {standard zeroText text : String} {nodes : List Node}
    (zeroWritten : Written.read? zeroText =
      some (.list (trees (.scalar (.number IntegerLiteral.zero.numeral)))))
    (zeroRead : Node.readList standard zeroText = .ok nodes)
    (written : Written.read? text = some (.list (trees (.scalar (.number literal.numeral))))) :
    (∀ rest, EndsNumber rest →
      scanNumeral (literal.written ++ rest) = some (literal.numeral, rest)) ∧
      ∃ before path operator group after,
        let reads (value : Value) := ∃ others, Node.readList standard text = .ok others ∧
          Node.leavesOfAll others = before ++ ⟨path, operator, value, group⟩ :: after
        Node.leavesOfAll nodes = before ++ ⟨path, operator, .integer 0, group⟩ :: after ∧
          (operator = .contains ∨ operator ∈ Operator.ordering →
            (¬ literal.IsNegativeZero → Value.isInRange literal.number = true →
              reads (.integer literal.number)) ∧
            (Int.pow 2 63 ≤ literal.number ∧ literal.number < Int.pow 2 64 →
              ∃ field, FieldPath.parse field = .ok path ∧ Node.readList standard text =
                .error (.invalidValue field operator.symbol
                  (String.ofList (Text.integer literal.number))
                  "integers within the signed 64-bit range")) ∧
            (literal.number < -Int.pow 2 63 ∨ Int.pow 2 64 ≤ literal.number ∨
              literal.IsNegativeZero →
              match literal.numeral.float? with
              | some number => reads (.float number)
              | none => Node.readList standard text = .error (.unreadableFilters ""))) := by
  refine ⟨fun rest ends => literal.scanNumeral_written ends, ?_⟩
  obtain ⟨before, after, field, op, group, same⟩ := place.readList zeroWritten zeroRead
  obtain ⟨zeroFails, zeroReads⟩ := (same zeroWritten).2 (.integer 0) rfl
  obtain ⟨unreadable, there⟩ := same written
  -- The text can be read with a zero, so nothing but the value can be at fault.
  obtain ⟨leaf, zeroLeaf⟩ : ∃ leaf, Node.leafOfRaw field op (.integer 0) group = .ok leaf := by
    cases made : Node.leafOfRaw field op (.integer 0) group with
    | ok leaf => exact ⟨leaf, rfl⟩
    | error fault => cases zeroRead.symm.trans (zeroFails fault made)
  obtain ⟨others, readZero, leaves⟩ := zeroReads leaf zeroLeaf
  cases zeroRead.symm.trans readZero
  obtain ⟨operator, value, path, known, decoded, parsed, accepted, rfl⟩ :=
    leafOfRaw_ok_iff.mp zeroLeaf
  cases decoded
  have readsAs {json : Json} {value : Value} (denotes : literal.numeral.value? = some json)
      (decoded : Value.ofJson json.settled = .ok value)
      (takes : operator.accepts value.coerce = true) :
      ∃ others, Node.readList standard text = .ok others ∧
        Node.leavesOfAll others = before ++ ⟨path, operator, value.coerce, group⟩ :: after := by
    refine (there json denotes).2 _ ?_
    rw [leafOfRaw_eq_map known decoded takes, parsed]
    rfl
  refine ⟨before, path, operator, group, after, leaves, fun takes => ⟨?fits, ?unsigned, ?beyond⟩⟩
  case fits =>
    intro signed inRange
    obtain ⟨low, high⟩ := (Value.isInRange_iff _).mp inRange
    have denotes := literal.value?_of_fits signed low (Int.lt_trans high (by decide))
    exact readsAs denotes (if_pos inRange) (Operator.accepts_integer _ accepted)
  case unsigned =>
    rintro ⟨low, high⟩
    have positive : 0 < literal.number := Int.lt_of_lt_of_le (by decide) low
    have denotes := literal.value?_of_fits (literal.not_isNegativeZero positive)
      (Int.le_trans (by decide) (Int.le_of_lt positive)) high
    have outside : Value.ofJson (Json.integer literal.number).settled = .error literal.number :=
      if_neg fun inRange => Int.not_lt.mpr low ((Value.isInRange_iff _).mp inRange).2
    refine ⟨field, parsed, (there _ denotes).1 _ ?_⟩
    rw [(Operator.ofSymbol?_eq_some_iff op operator).mp known]
    exact leafOfRaw_of_refused field group known outside
  case beyond =>
    intro exceeds
    have denotes := literal.value?_of_exceeds exceeds
    cases computed : literal.numeral.float? with
    | none => exact unreadable (by rw [Scalar.value?, denotes, computed]; rfl)
    | some number =>
        rw [computed] at denotes
        exact readsAs denotes rfl (Operator.accepts_float number takes)

theorem Node.lowest_weight_read : ∃ nodes,
    Node.readList "__default__" (Shelter.weighed "-9223372036854775808") = .ok nodes ∧
      Node.leavesOfAll nodes = [Shelter.weight (.integer (-9223372036854775808))] := by
  let literal : IntegerLiteral :=
    ⟨true, "9223372036854775808".toList, by decide +kernel, List.all_eq_true.mp (by decide +kernel),
      by decide +kernel⟩
  have zeroScanned : lexemes (Shelter.weighed "0").toList =
      some (Shelter.weighedLexemes IntegerLiteral.zero.numeral) := by decide +kernel
  have scanned : lexemes (Shelter.weighed "-9223372036854775808").toList =
      some (Shelter.weighedLexemes literal.numeral) := by decide +kernel
  have zeroRead : Node.readList "__default__" (Shelter.weighed "0") =
      .ok [.leaf (Shelter.weight (.integer 0))] :=
    Shelter.weighed_read zeroScanned rfl rfl
  obtain ⟨_, before, path, operator, group, after, leaves, compares⟩ :=
    Node.readList_integer literal Shelter.weighed_place
      (Shelter.weighed_written zeroScanned) zeroRead (Shelter.weighed_written scanned)
  have single : [Shelter.weight (.integer 0)] =
      before ++ ⟨path, operator, .integer 0, group⟩ :: after := leaves
  obtain ⟨rfl, same⟩ | ⟨_, _, longer⟩ := List.cons_eq_append_iff.mp single
  · cases same
    obtain ⟨nodes, read, made⟩ :=
      (compares (.inr (by decide))).1 (by decide +kernel) (by decide +kernel)
    exact ⟨nodes, read, made⟩
  · simp at longer

theorem Node.weight_read_as_float : ∃ number,
    Node.readList "__default__" (Shelter.weighed "18446744073709551616") =
      .ok [.leaf (Shelter.weight (.float number))] := by
  let literal : IntegerLiteral :=
    ⟨false, "18446744073709551616".toList, by decide +kernel,
      List.all_eq_true.mp (by decide +kernel), by decide +kernel⟩
  have scanned : lexemes (Shelter.weighed "18446744073709551616").toList =
      some (Shelter.weighedLexemes literal.numeral) := by decide +kernel
  have computed : literal.numeral.float? = some ⟨0x43f0000000000000⟩ := by decide +kernel
  have denotes : literal.numeral.value? = some (.float ⟨0x43f0000000000000⟩) := by
    rw [literal.value?_of_exceeds (.inr (.inl (by decide +kernel))), computed, Option.map_some]
  exact ⟨_, Shelter.weighed_read scanned denotes rfl⟩

end FilterQuery
