import FilterQuery.Proofs.IntegerRange
import FilterQuery.Proofs.SettledJson
import FilterQuery.Sqlite

/-!
Lists and objects as an SQLite store gets them. A list is written from the values of its items and
an object as it was carried, and both come to the text of the JSON value that was read. Main
statement: this text is read as the same value, but for floats whose digits do not give them back.
-/

namespace FilterQuery

namespace Json

def isStructured : Json → Bool
  | .list _ | .object _ => true
  | _ => false

end Json

namespace Sqlite

open Json

variable {json : Json}

theorem coerce_mirrored (structured : json.isStructured = true) :
    json.mirrored.coerce = json.mirrored := by
  cases json with
  | list | object => rfl
  | _ => cases structured

theorem bind_mirrored (structured : json.isStructured = true) :
    bind json.mirrored = .text json.print := by
  cases json with
  | list items =>
      rw [mirrored, bind, ← mirrored, toJson_mirrored]
  | object members => rfl
  | _ => cases structured

/-- A list or an object that is read from a text and accepted is left alone by coercion and bound as
a text. That text is read as the value that was read before, with each float as it is read in its
own digits: a finite float again, and the same one if those digits are few. So nothing is changed
exactly when each float is read as itself. -/
theorem bind_structured {text : String} {value : Value} (read : readSettled? text = some json)
    (structured : json.isStructured = true) (accepted : Value.ofJson json = .ok value) :
    value.coerce = value ∧
      ∃ content, bind value = .text content ∧ readSettled? content = some json.reread ∧
        (json.reread = json ↔ ∀ number ∈ json.floats, number.reread = number) ∧
        ∀ number ∈ json.floats, number.reread.isFinite = true ∧
          (number.IsShort → number.reread = number) := by
  obtain ⟨_, rfl⟩ := Value.ofJson_ok_iff.mp accepted
  obtain ⟨fits, again⟩ := readSettled?_print read
  exact ⟨coerce_mirrored structured, json.print, bind_mirrored structured, again,
    json.reread_eq_self_iff, fun _ member => forall_floats_reread fits member⟩

theorem mixedList_bound :
    let text := "[\x7b\"b\": null, \"a\": [true, \"\\n\\\"\"], \"b\": 2.5\x7d, -3]"
    let json : Json :=
      .list [.object [("a", .list [.truth true, .text "\n\""]), ("b", .float ⟨0x4004000000000000⟩)],
        .integer (-3)]
    readSettled? text = some json ∧ json.isStructured = true ∧
      Value.ofJson json = .ok json.mirrored ∧
      ∃ content, bind json.mirrored = .text content ∧ readSettled? content = some json := by
  intro text json
  have scanned : lexemes text.toList =
      some [.openList, .openObject, .scalar (.text [.char 'b']), .colon, .scalar .null,
      .comma, .scalar (.text [.char 'a']), .colon, .openList, .scalar (.truth true), .comma,
      .scalar (.text [.char '\n', .char '"']), .closeList, .comma,
      .scalar (.text [.char 'b']), .colon, .scalar (.number ⟨false, ['2'], ['5'], none⟩),
      .closeObject, .comma, .scalar (.number ⟨true, ['3'], [], none⟩), .closeList] := by
    decide +kernel
  have written : Written.read? text = some (.list [.object [([.char 'b'], .scalar .null),
      ([.char 'a'], .list [.scalar (.truth true), .scalar (.text [.char '\n', .char '"'])]),
      ([.char 'b'], .scalar (.number ⟨false, ['2'], ['5'], none⟩))],
    .scalar (.number ⟨true, ['3'], [], none⟩)]) := by
    rw [Written.read?, scanned]
    rfl
  have integer : Numeral.value? ⟨true, ['3'], [], none⟩ = some (.integer (-3)) := rfl
  have float : Numeral.value? ⟨false, ['2'], ['5'], none⟩ = some (.float ⟨0x4004000000000000⟩) := by
    have computed : Numeral.float? ⟨false, ['2'], ['5'], none⟩ = some ⟨0x4004000000000000⟩ := by
      decide +kernel
    rw [Numeral.value?, computed]
    rfl
  have read : readSettled? text = some json := by
    rw [readSettled?_of_written written (by decide)]
    simp only [Written.denoted?, Written.denotedItems?, Written.denotedMembers?, Scalar.value?,
      integer, float]
    rfl
  have accepted : Value.ofJson json = .ok json.mirrored := rfl
  have short : ∀ number ∈ json.floats, number.IsShort :=
    List.forall_mem_singleton.mpr ⟨⟨false, ['2'], ['5'], none⟩, by decide +kernel, by decide⟩
  obtain ⟨_, content, bound, again, same, kept⟩ := bind_structured read rfl accepted
  rw [same.mpr fun number member => (kept number member).2 (short number member)] at again
  exact ⟨read, rfl, accepted, content, bound, again⟩

/-- The float that JSON reads in `1e-24` has a long text, and the float below it is read there. -/
theorem smallNumber_changed :
    let json (bits : UInt64) : Json := .list [.float ⟨bits⟩]
    readSettled? "[1e-24]" = some (json 0x3af357c299a88ea8) ∧
      Value.ofJson (json 0x3af357c299a88ea8) = .ok (json 0x3af357c299a88ea8).mirrored ∧
      bind (json 0x3af357c299a88ea8).mirrored = .text "[1.0000000000000001e-24]" ∧
      readSettled? "[1.0000000000000001e-24]" = some (json 0x3af357c299a88ea7) ∧
      json 0x3af357c299a88ea7 ≠ json 0x3af357c299a88ea8 := by
  intro json
  have written : Written.read? "[1e-24]" =
      some (.list [.scalar (.number ⟨false, ['1'], [], some (-24)⟩)]) := rfl
  have computed : Numeral.float? ⟨false, ['1'], [], some (-24)⟩ = some ⟨0x3af357c299a88ea8⟩ := by
    decide +kernel
  have read : readSettled? "[1e-24]" = some (json 0x3af357c299a88ea8) := by
    rw [readSettled?_of_written written (by decide)]
    simp [Written.denoted?, Written.denotedItems?, Scalar.value?, Numeral.value?, Numeral.integer?,
      computed, settled, settledItems, json]
  have digits : printedFloat ⟨0x3af357c299a88ea8⟩ = "1.0000000000000001e-24".toList := by
    decide +kernel
  have content : (json 0x3af357c299a88ea8).print = "[1.0000000000000001e-24]" := by
    simp [Json.print, printed, printedItems, json, digits]
  have below : Binary64.reread ⟨0x3af357c299a88ea8⟩ = ⟨0x3af357c299a88ea7⟩ := by decide +kernel
  have again := (readSettled?_print read).2
  simp only [json, Json.reread, rereadItems, below] at again
  rw [content] at again
  exact ⟨read, rfl, content ▸ bind_mirrored rfl, again, by simp [json]⟩

end Sqlite

end FilterQuery
