import FilterQuery.Proofs.PrintedJson
import FilterQuery.RawFilter

/-!
Raw entries written as JSON and read again. A condition has a field, so it is read before a
composite is tried, and a composite has none, so it is never read as a condition. Main statement: a
list of entries is read as it was written, but for the floats, each of which is read in its own
digits; and it is refused exactly when its text nests too deep.
-/

namespace FilterQuery

namespace Json

theorem addMember_rereadMembers (key : String) (value : Json) (members : List (String × Json)) :
    addMember key value.reread (rereadMembers members) =
      rereadMembers (addMember key value members) := by
  induction members with
  | nil => rfl
  | cons member rest ih =>
      obtain ⟨next, held⟩ := member
      simp only [rereadMembers, addMember, ih]
      split
      · rfl
      · split <;> rfl

mutual

theorem settled_reread : (value : Json) → value.reread.settled = value.settled.reread
  | .null | .truth _ | .integer _ | .float _ | .text _ => rfl
  | .list items => by simp only [reread, settled, settledItems_reread items]
  | .object members => by simp only [reread, settled, settledMembers_reread members]

theorem settledItems_reread :
    (items : List Json) → settledItems (rereadItems items) = rereadItems (settledItems items)
  | [] => rfl
  | item :: rest => by
      simp only [rereadItems, settledItems, settled_reread item, settledItems_reread rest]

theorem settledMembers_reread : (members : List (String × Json)) →
    settledMembers (rereadMembers members) = rereadMembers (settledMembers members)
  | [] => rfl
  | (key, value) :: rest => by
      simp only [rereadMembers, settledMembers, settled_reread value, settledMembers_reread rest,
        addMember_rereadMembers]

end

mutual

theorem fits_reread : (value : Json) → value.Fits → value.reread.Fits
  | .null, _ | .truth _, _ | .text _, _ => trivial
  | .integer _, fits => fits
  | .float _, fits => by
      obtain ⟨_, _, _, _, finite, _⟩ := Binary64.exists_numeral fits
      exact finite
  | .list items, fits => fitsItems_reread items fits
  | .object members, fits => fitsMembers_reread members fits

theorem fitsItems_reread : (items : List Json) → FitsItems items → FitsItems (rereadItems items)
  | [], _ => trivial
  | item :: rest, fits => ⟨fits_reread item fits.1, fitsItems_reread rest fits.2⟩

theorem fitsMembers_reread : (members : List (String × Json)) → FitsMembers members →
    FitsMembers (rereadMembers members)
  | [], _ => trivial
  | (_, value) :: rest, fits => ⟨fits_reread value fits.1, fitsMembers_reread rest fits.2⟩

end

mutual

def floats : Json → List Binary64
  | .float value => [value]
  | .list items => floatsOfItems items
  | .object members => floatsOfMembers members
  | _ => []

def floatsOfItems : List Json → List Binary64
  | [] => []
  | item :: rest => item.floats ++ floatsOfItems rest

def floatsOfMembers : List (String × Json) → List Binary64
  | [] => []
  | (_, value) :: rest => value.floats ++ floatsOfMembers rest

end

mutual

theorem reread_eq_self_iff :
    (value : Json) → (value.reread = value ↔ ∀ number ∈ value.floats, number.reread = number)
  | .null | .truth _ | .integer _ | .text _ => by simp [reread, floats]
  | .float number => by simp [reread, floats]
  | .list items => by rw [reread, list.injEq, rereadItems_eq_self_iff items, floats]
  | .object members => by rw [reread, object.injEq, rereadMembers_eq_self_iff members, floats]

theorem rereadItems_eq_self_iff : (items : List Json) →
    (rereadItems items = items ↔ ∀ number ∈ floatsOfItems items, number.reread = number)
  | [] => by simp [rereadItems, floatsOfItems]
  | item :: rest => by
      rw [rereadItems, List.cons.injEq, reread_eq_self_iff item, rereadItems_eq_self_iff rest,
        floatsOfItems, List.forall_mem_append]

theorem rereadMembers_eq_self_iff : (members : List (String × Json)) →
    (rereadMembers members = members ↔ ∀ number ∈ floatsOfMembers members, number.reread = number)
  | [] => by simp [rereadMembers, floatsOfMembers]
  | (key, value) :: rest => by
      rw [rereadMembers, List.cons.injEq, Prod.mk.injEq, eq_self, true_and,
        reread_eq_self_iff value, rereadMembers_eq_self_iff rest, floatsOfMembers,
        List.forall_mem_append]

end

mutual

theorem forall_floats_isFinite :
    (value : Json) → value.Fits → ∀ number ∈ value.floats, number.isFinite = true
  | .null, _ | .truth _, _ | .integer _, _ | .text _, _ => nofun
  | .float _, fits => List.forall_mem_singleton.mpr fits
  | .list items, fits => forall_floatsOfItems_isFinite items fits
  | .object members, fits => forall_floatsOfMembers_isFinite members fits

theorem forall_floatsOfItems_isFinite : (items : List Json) → FitsItems items →
    ∀ number ∈ floatsOfItems items, number.isFinite = true
  | [], _ => nofun
  | item :: rest, fits =>
      List.forall_mem_append.mpr ⟨forall_floats_isFinite item fits.1,
        forall_floatsOfItems_isFinite rest fits.2⟩

theorem forall_floatsOfMembers_isFinite : (members : List (String × Json)) → FitsMembers members →
    ∀ number ∈ floatsOfMembers members, number.isFinite = true
  | [], _ => nofun
  | (_, value) :: rest, fits =>
      List.forall_mem_append.mpr ⟨forall_floats_isFinite value fits.1,
        forall_floatsOfMembers_isFinite rest fits.2⟩

end

theorem forall_floats_reread {value : Json} (fits : value.Fits) {number : Binary64}
    (member : number ∈ value.floats) :
    number.reread.isFinite = true ∧ (number.IsShort → number.reread = number) := by
  obtain ⟨_, _, _, _, finite, same⟩ :=
    Binary64.exists_numeral (forall_floats_isFinite value fits number member)
  exact ⟨finite, same⟩

theorem reread_of_short {value : Json} (fits : value.Fits)
    (short : ∀ number ∈ value.floats, number.IsShort) :
    value.reread = value :=
  value.reread_eq_self_iff.mpr fun number member =>
    (forall_floats_reread fits member).2 (short number member)

end Json

namespace RawFilter

mutual

/-- The values of the entry are such as JSON holds, each key once and in order. -/
def IsProper : RawFilter → Prop
  | .leaf _ _ value _ => value.Fits ∧ value.settled = value
  | .composite _ children => AllProper children

def AllProper : List RawFilter → Prop
  | [] => True
  | entry :: rest => entry.IsProper ∧ AllProper rest

end

mutual

def reread : RawFilter → RawFilter
  | .leaf field op value group => .leaf field op value.reread group
  | .composite op children => .composite op (rereadAll children)

def rereadAll : List RawFilter → List RawFilter
  | [] => []
  | entry :: rest => entry.reread :: rereadAll rest

end

mutual

def floats : RawFilter → List Binary64
  | .leaf _ _ value _ => value.floats
  | .composite _ children => floatsOfAll children

def floatsOfAll : List RawFilter → List Binary64
  | [] => []
  | entry :: rest => entry.floats ++ floatsOfAll rest

end

mutual

theorem isProper_reread : (entry : RawFilter) → entry.IsProper → entry.reread.IsProper
  | .leaf _ _ value _, proper => ⟨value.fits_reread proper.1, by rw [Json.settled_reread, proper.2]⟩
  | .composite _ children, proper => allProper_rereadAll children proper

theorem allProper_rereadAll :
    (entries : List RawFilter) → AllProper entries → AllProper (rereadAll entries)
  | [], _ => trivial
  | entry :: rest, proper => ⟨isProper_reread entry proper.1, allProper_rereadAll rest proper.2⟩

end

mutual

theorem fits_toJson : (entry : RawFilter) → entry.IsProper → entry.toJson.Fits
  | .leaf field op value group, proper => by
      cases group <;> simp [toJson, Json.Fits, Json.FitsMembers, proper.1]
  | .composite op children, proper => by
      simp [toJson, Json.Fits, Json.FitsMembers, fitsItems_allToJson children proper]

theorem fitsItems_allToJson :
    (entries : List RawFilter) → AllProper entries → Json.FitsItems (allToJson entries)
  | [], _ => trivial
  | entry :: rest, proper => ⟨fits_toJson entry proper.1, fitsItems_allToJson rest proper.2⟩

end

mutual

theorem reread_toJson : (entry : RawFilter) → entry.toJson.reread = entry.reread.toJson
  | .leaf field op value group => by
      cases group <;> simp [toJson, reread, Json.reread, Json.rereadMembers]
  | .composite op children => by
      simp [toJson, reread, Json.reread, Json.rereadMembers, rereadItems_allToJson children]

theorem rereadItems_allToJson : (entries : List RawFilter) →
    Json.rereadItems (allToJson entries) = allToJson (rereadAll entries)
  | [] => rfl
  | entry :: rest => by
      simp only [allToJson, rereadAll, Json.rereadItems, reread_toJson entry,
        rereadItems_allToJson rest]

end

mutual

theorem reread_of_short :
    (entry : RawFilter) → entry.IsProper → (∀ number ∈ entry.floats, number.IsShort) →
    entry.reread = entry
  | .leaf field op value group, proper, short => by rw [reread, Json.reread_of_short proper.1 short]
  | .composite op children, proper, short => by
      rw [reread, rereadAll_of_short children proper short]

theorem rereadAll_of_short : (entries : List RawFilter) → AllProper entries →
    (∀ number ∈ floatsOfAll entries, number.IsShort) → rereadAll entries = entries
  | [], _, _ => rfl
  | entry :: rest, proper, short => by
      obtain ⟨first, others⟩ := List.forall_mem_append.mp short
      rw [rereadAll, reread_of_short entry proper.1 first, rereadAll_of_short rest proper.2 others]

end

theorem leaf?_leaf (field op : String) (value : Json) (group : Option String) :
    leaf? (toJson (.leaf field op value group)) = some (.leaf field op value.settled group) := by
  cases group <;> simp [toJson, leaf?, Json.record?, Json.field?, Json.text?]

theorem leaf?_composite (op : String) (children : List RawFilter) :
    leaf? (toJson (.composite op children)) = none := by
  simp [toJson, leaf?, Json.record?, Json.field?]

theorem compositeParts?_composite (op : String) (children : List RawFilter) :
    compositeParts? (toJson (.composite op children)) = some (op, allToJson children) := by
  simp [toJson, compositeParts?, Json.record?, Json.field?, Json.text?, Json.list?]

mutual

theorem ofJson?_toJson : (entry : RawFilter) → entry.IsProper → ofJson? entry.toJson = some entry
  | .leaf field op value group, proper => by
      refine ofJson?_of_leaf ?_
      rw [leaf?_leaf, proper.2]
  | .composite op children, proper => by
      rw [ofJson?_of_composite (leaf?_composite op children)
        (compositeParts?_composite op children), mapM_ofJson?_allToJson children proper]
      rfl

theorem mapM_ofJson?_allToJson : (entries : List RawFilter) → AllProper entries →
    (allToJson entries).mapM ofJson? = some entries
  | [], _ => rfl
  | entry :: rest, proper => by
      simp [allToJson, ofJson?_toJson entry proper.1, mapM_ofJson?_allToJson rest proper.2]

end

theorem readList?_of_proper (entries : List RawFilter) (proper : AllProper entries) :
    readList? (Json.list (allToJson entries)).print =
      if (Json.list (allToJson entries)).nesting ≤ Json.Written.maxNesting then
        some (rereadAll entries) else none := by
  have fits : (Json.list (allToJson entries)).Fits := fitsItems_allToJson entries proper
  have read := mapM_ofJson?_allToJson (rereadAll entries) (allProper_rereadAll entries proper)
  rw [readList?, Json.read?_print fits, Json.reread, rereadItems_allToJson]
  split
  · simp only [Option.bind_eq_bind, Option.bind_some, Json.list?, read]
  · rfl

/-- A list of entries is read from its own text: names, operators, groups, kinds of entries and all
that is no float as they were written, and each float as JSON reads it in the digits that it was
written in, which is a finite float again, and the same one if those digits are few. Only a text
that nests too deep is refused. -/
theorem readList?_print (entries : List RawFilter) (proper : AllProper entries) :
    readList? (Json.list (allToJson entries)).print =
        (if (Json.list (allToJson entries)).nesting ≤ Json.Written.maxNesting then
          some (rereadAll entries)
          else none) ∧
      AllProper (rereadAll entries) ∧
      ((∀ number ∈ floatsOfAll entries, number.IsShort) → rereadAll entries = entries) :=
  ⟨readList?_of_proper entries proper, allProper_rereadAll entries proper,
    rereadAll_of_short entries proper⟩

/-- A condition in the group that has no name, a text that needs escapes, and a composite without
children. -/
def mixedEntries : List RawFilter :=
  [.leaf "weight" ">" (.float ⟨0x3ff8000000000000⟩) (some ""),
    .composite "or" [.leaf "name" "=" (.text "\n\"") none, .composite "x" []]]

theorem mixedEntries_read : AllProper mixedEntries ∧
    readList? (Json.list (allToJson mixedEntries)).print = some mixedEntries := by
  have finite : Binary64.isFinite ⟨0x3ff8000000000000⟩ = true := by decide
  have proper : AllProper mixedEntries :=
    ⟨⟨finite, rfl⟩, ⟨⟨trivial, rfl⟩, trivial, trivial⟩, trivial⟩
  have short : ∀ number ∈ floatsOfAll mixedEntries, number.IsShort :=
    List.forall_mem_singleton.mpr ⟨⟨false, ['1'], ['5'], none⟩, by decide +kernel, by decide⟩
  have shallow : (Json.list (allToJson mixedEntries)).nesting ≤ Json.Written.maxNesting := by decide
  obtain ⟨read, _, same⟩ := readList?_print mixedEntries proper
  exact ⟨proper, by rw [read, if_pos shallow, same short]⟩

/-- The float nearest to `1e-23` is written as that, and what is read there is the float above
it. -/
theorem smallFloat_changed :
    let entry (bits : UInt64) := RawFilter.leaf "w" "=" (.float ⟨bits⟩) none
    AllProper [entry 0x3b282db34012b251] ∧
      (Json.list (allToJson [entry 0x3b282db34012b251])).nesting ≤ Json.Written.maxNesting ∧
      readList? (Json.list (allToJson [entry 0x3b282db34012b251])).print =
        some [entry 0x3b282db34012b252] ∧
      [entry 0x3b282db34012b252] ≠ [entry 0x3b282db34012b251] := by
  intro entry
  have finite : Binary64.isFinite ⟨0x3b282db34012b251⟩ = true := by decide
  have proper : AllProper [entry 0x3b282db34012b251] := ⟨⟨finite, rfl⟩, trivial⟩
  have shallow : (Json.list (allToJson [entry 0x3b282db34012b251])).nesting ≤
      Json.Written.maxNesting := by decide
  have above : Binary64.reread ⟨0x3b282db34012b251⟩ = ⟨0x3b282db34012b252⟩ := by decide +kernel
  refine ⟨proper, shallow, ?_, by simp [entry]⟩
  rw [readList?_of_proper _ proper, if_pos shallow]
  simp only [entry, rereadAll, reread, Json.reread, above]

end RawFilter

end FilterQuery
