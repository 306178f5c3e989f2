import FilterQuery.Proofs.Hop
import FilterQuery.Proofs.TableName

/-!
Joins are numbered one after the other, and so are subqueries. Main statement: numbered joins share
no name, neither of their tables nor of their link tables.
-/

namespace FilterQuery

namespace Join

variable {use : TableUse} {start number : Nat} {join : Join} {joins first second : List Join}
  {name : String}

structure Bears (join : Join) (use : TableUse) (number : Nat) : Prop where
  binding : join.binding = TableName.text ⟨use, number, false⟩
  link : ∀ link ∈ join.link, link.binding = TableName.text ⟨use, number, true⟩

def Numbered (use : TableUse) : Nat → List Join → Prop
  | _, [] => True
  | start, join :: rest => join.Bears use (start + 1) ∧ Numbered use (start + 1) rest

theorem numbered_append :
    Numbered use start (first ++ second) ↔
      Numbered use start first ∧ Numbered use (start + first.length) second := by
  induction first generalizing start with
  | nil => simp [Numbered]
  | cons join rest ih =>
      rw [List.cons_append, Numbered, Numbered, ih, List.length_cons, and_assoc,
        Nat.add_assoc start 1, Nat.add_comm 1]

theorem numbered_singleton : Numbered use start [join] ↔ join.Bears use (start + 1) := by
  simp [Numbered]

theorem Bears.mem_tableNames (bears : join.Bears use number) (held : name ∈ join.tableNames) :
    ∃ isLink, name = TableName.text ⟨use, number, isLink⟩ := by
  rw [tableNames, List.mem_append, List.mem_singleton] at held
  rcases held with linking | own
  · obtain ⟨link, through, rfl⟩ := Option.map_eq_some_iff.mp (Option.mem_toList.mp linking)
    exact ⟨true, bears.link link through⟩
  · exact ⟨false, own.trans bears.binding⟩

theorem Bears.tableNames_nodup (bears : join.Bears use number) : join.tableNames.Nodup := by
  unfold tableNames
  cases through : join.link with
  | none => simp
  | some link =>
      have apart : link.binding ≠ join.binding := by
        rw [bears.link link through, bears.binding]
        exact TableName.text_ne (by simp)
      simpa using apart

theorem Numbered.bears_at (numbered : Numbered use start joins) {index : Nat}
    (held : joins[index]? = some join) : join.Bears use (start + index + 1) := by
  induction joins generalizing start index with
  | nil => cases held
  | cons first rest ih =>
      cases index with
      | zero =>
          cases held
          exact numbered.1
      | succ index =>
          rw [List.getElem?_cons_succ] at held
          have later := ih numbered.2 held
          rwa [Nat.add_assoc start 1, Nat.add_comm 1] at later

theorem Numbered.exists_bears (numbered : Numbered use start joins) (held : join ∈ joins) :
    ∃ number, start < number ∧ number ≤ start + joins.length ∧ join.Bears use number := by
  obtain ⟨index, found⟩ := List.getElem?_of_mem held
  obtain ⟨inside, _⟩ := List.getElem?_eq_some_iff.mp found
  exact ⟨start + index + 1, by omega, by omega, numbered.bears_at found⟩

theorem Numbered.mem_tableNames (numbered : Numbered use start joins)
    (held : name ∈ joins.flatMap tableNames) :
    ∃ number isLink, start < number ∧ number ≤ start + joins.length ∧
      name = TableName.text ⟨use, number, isLink⟩ := by
  obtain ⟨join, inJoins, inJoin⟩ := List.mem_flatMap.mp held
  obtain ⟨number, after, upTo, bears⟩ := numbered.exists_bears inJoins
  obtain ⟨isLink, named⟩ := bears.mem_tableNames inJoin
  exact ⟨number, isLink, after, upTo, named⟩

-- Each join takes the next number, so its names are not among those after it.
theorem Numbered.tableNames_nodup (numbered : Numbered use start joins) :
    (joins.flatMap tableNames).Nodup := by
  induction joins generalizing start with
  | nil => exact List.nodup_nil
  | cons join rest ih =>
      rw [List.flatMap_cons]
      refine List.nodup_append.mpr ⟨numbered.1.tableNames_nodup, ih numbered.2, ?_⟩
      rintro name here _ later rfl
      obtain ⟨_, named⟩ := numbered.1.mem_tableNames here
      obtain ⟨number, _, after, _, laterNamed⟩ := numbered.2.mem_tableNames later
      have numbers :=
        congrArg TableName.number (TableName.text_injective (named.symm.trans laterNamed))
      simp at numbers
      omega

theorem Numbered.isGenerated (numbered : Numbered use start joins)
    (held : name ∈ joins.flatMap tableNames) : IsGenerated name := by
  obtain ⟨_, _, _, _, named⟩ := numbered.mem_tableNames held
  exact ⟨_, named.symm⟩

end Join

theorem Hop.bears_join (hop : Hop) (parent : String) (use : TableUse) (number : Nat) :
    (hop.join parent (TableName.text ⟨use, number, false⟩)).Bears use number := by
  refine ⟨rfl, ?_⟩
  intro link held
  obtain ⟨through, _, rfl⟩ := Option.map_eq_some_iff.mp held
  exact (TableName.text_linking rfl).symm

end FilterQuery
