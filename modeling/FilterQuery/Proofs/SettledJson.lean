import FilterQuery.Proofs.EntryRoundTrip

/-!
JSON values as they are read: each key once, keys in order. The settled form of a value is such a
value, takes nothing into it that was not there, and is its own settled form. Main statement: what
is read and settled holds only numbers that JSON holds, nests no deeper than JSON may, and is read
again from its own text.
-/

namespace FilterQuery.Json

section Members

variable {members : List (String × Json)}

theorem forall_mem_addMember {Holds : String × Json → Prop} {key : String} {value : Json}
    (added : Holds (key, value)) (held : ∀ member ∈ members, Holds member) :
    ∀ member ∈ addMember key value members, Holds member := by
  induction members with
  | nil => exact List.forall_mem_singleton.mpr added
  | cons first rest ih =>
      obtain ⟨here, inRest⟩ := List.forall_mem_cons.mp held
      rw [addMember]
      split_ifs
      · exact held
      · exact List.forall_mem_cons.mpr ⟨added, held⟩
      · exact List.forall_mem_cons.mpr ⟨here, ih inRest⟩

theorem fitsMembers_iff : FitsMembers members ↔ ∀ member ∈ members, member.2.Fits := by
  induction members with
  | nil => simp [FitsMembers]
  | cons member rest ih => rw [FitsMembers, ih, List.forall_mem_cons]

theorem nestingOfMembers_le_iff {limit : Nat} :
    nestingOfMembers members ≤ limit ↔ ∀ member ∈ members, member.2.nesting ≤ limit := by
  induction members with
  | nil => simp [nestingOfMembers]
  | cons member rest ih => rw [nestingOfMembers, Nat.max_le, ih, List.forall_mem_cons]

end Members

mutual

theorem fits_settled : (json : Json) → json.Fits → json.settled.Fits
  | .null, _ | .truth _, _ | .text _, _ => trivial
  | .integer _, fits | .float _, fits => fits
  | .list items, fits => fitsItems_settledItems items fits
  | .object members, fits => fitsMembers_settledMembers members fits

theorem fitsItems_settledItems :
    (items : List Json) → FitsItems items → FitsItems (settledItems items)
  | [], _ => trivial
  | item :: rest, fits => ⟨fits_settled item fits.1, fitsItems_settledItems rest fits.2⟩

theorem fitsMembers_settledMembers : (members : List (String × Json)) → FitsMembers members →
    FitsMembers (settledMembers members)
  | [], _ => trivial
  | (_, value) :: rest, fits =>
      fitsMembers_iff.mpr (forall_mem_addMember (fits_settled value fits.1)
        (fitsMembers_iff.mp (fitsMembers_settledMembers rest fits.2)))

end

mutual

theorem nesting_settled_le : (json : Json) → json.settled.nesting ≤ json.nesting
  | .null | .truth _ | .integer _ | .float _ | .text _ => Nat.le_refl _
  | .list items => Nat.succ_le_succ (nestingOfItems_settledItems_le items)
  | .object members => Nat.succ_le_succ (nestingOfMembers_settledMembers_le members)

theorem nestingOfItems_settledItems_le :
    (items : List Json) → nestingOfItems (settledItems items) ≤ nestingOfItems items
  | [] => Nat.le_refl _
  | item :: rest => max_le_max (nesting_settled_le item) (nestingOfItems_settledItems_le rest)

theorem nestingOfMembers_settledMembers_le : (members : List (String × Json)) →
    nestingOfMembers (settledMembers members) ≤ nestingOfMembers members
  | [] => Nat.le_refl _
  | (_, value) :: rest => by
      have first :=
        Nat.le_trans (nesting_settled_le value) (Nat.le_max_left _ (nestingOfMembers rest))
      have others :=
        Nat.le_trans (nestingOfMembers_settledMembers_le rest) (Nat.le_max_right value.nesting _)
      exact nestingOfMembers_le_iff.mpr
        (forall_mem_addMember first (nestingOfMembers_le_iff.mp others))

end

def Ascending (members : List (String × Json)) : Prop :=
  members.Pairwise (·.1 < ·.1)

mutual

def IsSettled : Json → Prop
  | .list items => AreSettled items
  | .object members => Ascending members ∧ HoldSettled members
  | _ => True

def AreSettled : List Json → Prop
  | [] => True
  | item :: rest => item.IsSettled ∧ AreSettled rest

def HoldSettled : List (String × Json) → Prop
  | [] => True
  | (_, value) :: rest => value.IsSettled ∧ HoldSettled rest

end

section Members

variable {members : List (String × Json)} {key : String} {value : Json}

theorem holdSettled_iff : HoldSettled members ↔ ∀ member ∈ members, member.2.IsSettled := by
  induction members with
  | nil => simp [HoldSettled]
  | cons member rest ih => rw [HoldSettled, ih, List.forall_mem_cons]

theorem ascending_addMember (ascending : Ascending members) :
    Ascending (addMember key value members) := by
  induction members with
  | nil => exact List.pairwise_singleton _ _
  | cons first rest ih =>
      obtain ⟨below, others⟩ := List.pairwise_cons.mp ascending
      rw [addMember]
      split_ifs with same less
      · exact ascending
      · refine List.pairwise_cons.mpr
          ⟨List.forall_mem_cons.mpr ⟨less, fun member held => ?_⟩, ascending⟩
        exact String.lt_trans less (below member held)
      · have greater : first.1 < key := Std.lt_of_le_of_ne (String.not_lt.mp less) (Ne.symm same)
        exact List.pairwise_cons.mpr ⟨forall_mem_addMember greater below, ih others⟩

theorem addMember_of_below (below : ∀ member ∈ members, key < member.1) :
    addMember key value members = (key, value) :: members := by
  cases members with
  | nil => rfl
  | cons first rest =>
      have less := below first List.mem_cons_self
      have apart : key ≠ first.1 := fun same => String.lt_irrefl _ (same ▸ less)
      rw [addMember, if_neg apart, if_pos less]

theorem ascending_settledMembers : Ascending (settledMembers members) := by
  induction members with
  | nil => exact List.Pairwise.nil
  | cons member rest ih => exact ascending_addMember ih

end Members

mutual

theorem isSettled_settled : (json : Json) → json.settled.IsSettled
  | .null | .truth _ | .integer _ | .float _ | .text _ => trivial
  | .list items => areSettled_settledItems items
  | .object members => ⟨ascending_settledMembers, holdSettled_settledMembers members⟩

theorem areSettled_settledItems : (items : List Json) → AreSettled (settledItems items)
  | [] => trivial
  | item :: rest => ⟨isSettled_settled item, areSettled_settledItems rest⟩

theorem holdSettled_settledMembers :
    (members : List (String × Json)) → HoldSettled (settledMembers members)
  | [] => trivial
  | (_, value) :: rest =>
      holdSettled_iff.mpr (forall_mem_addMember (isSettled_settled value)
        (holdSettled_iff.mp (holdSettled_settledMembers rest)))

end

mutual

theorem settled_of_isSettled : (json : Json) → json.IsSettled → json.settled = json
  | .null, _ | .truth _, _ | .integer _, _ | .float _, _ | .text _, _ => rfl
  | .list items, settled => by rw [Json.settled, settledItems_of_areSettled items settled]
  | .object members, settled => by
      rw [Json.settled, settledMembers_of_holdSettled members settled.1 settled.2]

theorem settledItems_of_areSettled :
    (items : List Json) → AreSettled items → settledItems items = items
  | [], _ => rfl
  | item :: rest, settled => by
      rw [settledItems, settled_of_isSettled item settled.1,
        settledItems_of_areSettled rest settled.2]

theorem settledMembers_of_holdSettled :
    (members : List (String × Json)) → Ascending members → HoldSettled members →
    settledMembers members = members
  | [], _, _ => rfl
  | (key, value) :: rest, ascending, settled => by
      obtain ⟨below, others⟩ := List.pairwise_cons.mp ascending
      rw [settledMembers, settled_of_isSettled value settled.1,
        settledMembers_of_holdSettled rest others settled.2, addMember_of_below below]

end

theorem settled_settled (json : Json) : json.settled.settled = json.settled :=
  settled_of_isSettled json.settled (isSettled_settled json)

/-! Trees that were read. -/

/-- What every value has that a tree denotes: numbers that JSON holds, and the nesting of the
tree. -/
structure Suits (tree : Written) (json : Json) : Prop where
  fits : json.Fits
  nesting : json.nesting = tree.nesting

theorem Numeral.fits_of_integer? {numeral : Numeral} {number : Int}
    (denotes : numeral.integer? = some number) :
    (Json.integer number).Fits := by
  have half : Int.pow 2 63 = (Nat.pow 2 63 : Nat) := rfl
  have whole : Int.pow 2 64 = (Nat.pow 2 64 : Nat) := rfl
  have positive : 0 < Nat.pow 2 64 := by decide
  rw [Fits, half, whole]
  unfold Numeral.integer? at denotes
  simp only at denotes
  split_ifs at denotes <;> cases denotes <;> omega

theorem Numeral.fits_of_float? {numeral : Numeral} {number : Binary64}
    (denotes : numeral.float? = some number) :
    (Json.float number).Fits := by
  simp only [Numeral.float?, Option.ite_none_right_eq_some, Option.some.injEq] at denotes
  obtain ⟨finite, rfl⟩ := denotes
  rw [Fits, Binary64.isFinite, Binary64.magnitude_ofMagnitude _ finite]
  exact decide_eq_true finite

theorem Scalar.suits {leaf : Scalar} {json : Json} (denotes : leaf.value? = some json) :
    Suits (.scalar leaf) json := by
  cases leaf with
  | null | truth =>
      cases denotes
      exact ⟨trivial, rfl⟩
  | text marks =>
      obtain ⟨text, _, rfl⟩ := Option.map_eq_some_iff.mp denotes
      exact ⟨trivial, rfl⟩
  | number numeral =>
      rw [Scalar.value?, Numeral.value?] at denotes
      split at denotes
      · rename_i number integer
        cases denotes
        exact ⟨numeral.fits_of_integer? integer, rfl⟩
      · obtain ⟨number, float, rfl⟩ := Option.map_eq_some_iff.mp denotes
        exact ⟨numeral.fits_of_float? float, rfl⟩

structure SuitsItems (trees : List Written) (items : List Json) : Prop where
  fits : FitsItems items
  nesting : nestingOfItems items = Written.nestingOfItems trees

structure SuitsMembers (trees : List (List Mark × Written))
    (members : List (String × Json)) : Prop where
  fits : FitsMembers members
  nesting : nestingOfMembers members = Written.nestingOfMembers trees

mutual

theorem suits_denoted :
    (tree : Written) → {json : Json} → tree.denoted? = some json → Suits tree json
  | .scalar _, _, denotes => Scalar.suits denotes
  | .list items, _, denotes => by
      obtain ⟨values, denotesItems, rfl⟩ := Option.map_eq_some_iff.mp denotes
      have all := suits_denotedItems items denotesItems
      exact ⟨all.fits, congrArg (· + 1) all.nesting⟩
  | .object members, _, denotes => by
      obtain ⟨values, denotesMembers, rfl⟩ := Option.map_eq_some_iff.mp denotes
      have all := suits_denotedMembers members denotesMembers
      exact ⟨all.fits, congrArg (· + 1) all.nesting⟩

theorem suits_denotedItems : (trees : List Written) → {items : List Json} →
    Written.denotedItems? trees = some items → SuitsItems trees items
  | [], _, denotes => by
      cases denotes
      exact ⟨trivial, rfl⟩
  | tree :: rest, _, denotes => by
      simp only [Written.denotedItems?, Option.bind_eq_bind, Option.bind_eq_some_iff,
        Option.some.injEq] at denotes
      obtain ⟨first, denotesFirst, others, denotesOthers, rfl⟩ := denotes
      have here := suits_denoted tree denotesFirst
      have inRest := suits_denotedItems rest denotesOthers
      exact ⟨⟨here.fits, inRest.fits⟩, congrArg₂ max here.nesting inRest.nesting⟩

theorem suits_denotedMembers :
    (trees : List (List Mark × Written)) → {members : List (String × Json)} →
    Written.denotedMembers? trees = some members → SuitsMembers trees members
  | [], _, denotes => by
      cases denotes
      exact ⟨trivial, rfl⟩
  | (key, tree) :: rest, _, denotes => by
      simp only [Written.denotedMembers?, Option.bind_eq_bind, Option.bind_eq_some_iff,
        Option.some.injEq] at denotes
      obtain ⟨name, _, first, denotesFirst, others, denotesOthers, rfl⟩ := denotes
      have here := suits_denoted tree denotesFirst
      have inRest := suits_denotedMembers rest denotesOthers
      exact ⟨⟨here.fits, inRest.fits⟩, congrArg₂ max here.nesting inRest.nesting⟩

end

/-- What is read from a text holds only numbers that JSON holds, and nests no deeper than JSON
may. -/
theorem read?_suits {text : String} {json : Json} (read : read? text = some json) :
    json.Fits ∧ json.nesting ≤ Written.maxNesting := by
  simp only [read?, Option.bind_eq_bind, Option.bind_eq_some_iff] at read
  obtain ⟨tree, _, denotes⟩ := read
  rw [Written.toJson?, Option.ite_none_right_eq_some] at denotes
  obtain ⟨shallow, denotes⟩ := denotes
  obtain ⟨fits, nesting⟩ := suits_denoted tree denotes
  exact ⟨fits, nesting ▸ shallow⟩

/-- The value of a text, each key of an object once. -/
def readSettled? (text : String) : Option Json :=
  (read? text).map settled

theorem readSettled?_of_written {text : String} {tree : Written}
    (written : Written.read? text = some tree) (shallow : tree.nesting ≤ Written.maxNesting) :
    readSettled? text = tree.denoted?.map settled := by
  rw [readSettled?, read?, written, Option.bind_eq_bind, Option.bind_some, Written.toJson?,
    if_pos shallow]

/-- The text of a value that was read is read again: as the same value, but for the floats, each of
which is read in its own digits. -/
theorem readSettled?_print {text : String} {json : Json} (read : readSettled? text = some json) :
    json.Fits ∧ readSettled? json.print = some json.reread := by
  obtain ⟨given, readGiven, rfl⟩ := Option.map_eq_some_iff.mp read
  obtain ⟨fits, shallow⟩ := read?_suits readGiven
  have settledFits := fits_settled given fits
  have settledShallow := Nat.le_trans (nesting_settled_le given) shallow
  refine ⟨settledFits, ?_⟩
  rw [readSettled?, read?_print settledFits, if_pos settledShallow, Option.map_some, settled_reread,
    settled_settled]

end FilterQuery.Json
