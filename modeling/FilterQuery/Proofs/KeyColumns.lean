import FilterQuery.Proofs.Hop

/-!
The columns that a join makes equal. A relation declares key columns of its two entities, and the
primary key of an entity stands for the columns that are not declared. Main statements: a relation
that declares no column at all is not joined, unless it is many-to-many; and a join has every
declared column, unless a link table has no column to pair it with.
-/

namespace FilterQuery

namespace Relation

/-- The relation has a link table, or key columns of one of its entities at least. -/
def IsKeyed (relation : Relation) : Prop :=
  relation.link ≠ none ∨ relation.fields ≠ [] ∨ relation.references ≠ []

/-- The entity whose rows point to those of the other has its key columns declared. In a
many-to-many relation neither points to the other. -/
def NamesForeignKey (relation : Relation) : Prop :=
  match relation.kind with
  | .manyToOne => relation.fields ≠ []
  | .oneToOne | .oneToMany => relation.references ≠ []
  | .manyToMany => True

/-- Every column has one to be paired with. What is not declared is one column, the primary key, and
a link table has one column for each of the entities. -/
def IsEven (relation : Relation) : Prop :=
  match relation.link with
  | none => max 1 relation.fields.length = max 1 relation.references.length
  | some _ => max 1 relation.fields.length = 1 ∧ max 1 relation.references.length = 1

theorem not_isKeyed_iff {relation : Relation} :
    ¬ relation.IsKeyed ↔ relation.link = none ∧ relation.fields = [] ∧
      relation.references = [] := by
  simp [IsKeyed]

theorem declared_of_namesForeignKey {relation : Relation} (named : relation.NamesForeignKey)
    (holds : relation.kind ≠ .manyToMany) : relation.fields ≠ [] ∨ relation.references ≠ [] := by
  unfold NamesForeignKey at named
  cases kind : relation.kind with
  | manyToOne =>
      rw [kind] at named
      exact Or.inl named
  | oneToOne | oneToMany =>
      rw [kind] at named
      exact Or.inr named
  | manyToMany => exact absurd kind holds

end Relation

namespace Join

def parentColumns (join : Join) : List ColumnRef :=
  ((join.link.map (·.keys)).getD join.keys).map (·.1)

def relatedColumns (join : Join) : List ColumnRef :=
  join.keys.map (·.2)

/-- Every declared column is in one equality, and the equalities are in the order of the columns. -/
def Keeps (join : Join) (relation : Relation) (parent binding : String) : Prop :=
  (relation.fields ≠ [] → join.parentColumns = relation.fields.map (ColumnRef.mk parent)) ∧
    (relation.references ≠ [] →
      join.relatedColumns = relation.references.map (ColumnRef.mk binding))

def Misconfigured (outcome : Except Fault Join) : Prop :=
  ∃ fault, outcome = .error fault ∧ fault.code = .invalidConfiguration

/-! Declared columns. -/

section Columns

variable {columns : List String} {entity parent related : Entity} {relation : Relation}

theorem orKey_of_ne_nil (declared : columns ≠ []) : orKey columns entity = columns := by
  simp [orKey, declared]

theorem length_orKey (columns : List String) (entity : Entity) :
    (orKey columns entity).length = max 1 columns.length := by
  cases columns with
  | nil => rfl
  | cons first rest => simp [orKey]

theorem missingSide_eq_none_iff : missingSide relation = none ↔ relation.NamesForeignKey := by
  unfold missingSide Relation.NamesForeignKey
  cases relation.kind <;> simp

theorem keyColumns_ok_iff (direct : relation.link = none) {pairs : List (String × String)} :
    keyColumns relation parent related = .ok pairs ↔
      relation.NamesForeignKey ∧ relation.IsEven ∧
        pairs = (orKey relation.fields parent).zip (orKey relation.references related) := by
  unfold keyColumns Relation.IsEven
  rw [← missingSide_eq_none_iff, direct, ← length_orKey _ parent, ← length_orKey _ related]
  cases missingSide relation with
  | some side => simp
  | none =>
      by_cases even : (orKey relation.fields parent).length =
        (orKey relation.references related).length
      · simp [even, eq_comm]
      · simp [even]

theorem keyColumns_misconfigured {fault : Fault}
    (failed : keyColumns relation parent related = .error fault) :
    fault.code = .invalidConfiguration := by
  unfold keyColumns at failed
  split at failed
  · cases failed
    rfl
  · simp only at failed
    split at failed
    · cases failed
    · cases failed
      rfl

end Columns

end Join

/-! The columns of a step. -/

namespace Hop

theorem parentColumns_join (hop : Hop) (parent binding : String) :
    (hop.join parent binding).parentColumns =
      (((hop.link.map (·.columns)).getD hop.columns).map (·.1)).map (ColumnRef.mk parent) := by
  cases linked : hop.link <;> simp [Join.parentColumns, join, linked, qualified, Function.comp_def]

theorem relatedColumns_join (hop : Hop) (parent binding : String) :
    (hop.join parent binding).relatedColumns =
      (hop.columns.map (·.2)).map (ColumnRef.mk binding) := by
  simp [Join.relatedColumns, join, qualified, Function.comp_def]

end Hop

/-! Pets that are related to pets. -/

namespace Shelter

def petsWith (relation : Relation) : Schema :=
  .ofEntities [((Entity.new "Pet" "pets").withAttribute "name").withRelation relation]

def pets : Target := ⟨"Pet", "pets"⟩

/-- Nothing says by which column of a pet its mother is found. -/
def pups : Relation := { name := "pups", kind := .oneToMany, related := "Pet" }

/-- There is no table that says who is whose friend. -/
def friends : Relation := { name := "friends", kind := .manyToMany, related := "Pet" }

def mother : Relation :=
  { name := "mother", kind := .manyToOne, related := "Pet",
    fields := ["mother_name", "mother_born"], references := ["name", "born"] }

/-- The table of plays has one column for the names of a pet, and pets have two names. -/
def playmates : Relation :=
  { name := "playmates", kind := .manyToMany, related := "Pet", fields := ["name", "surname"],
    link := some ⟨"plays", "pet_name", "playmate_id"⟩ }

theorem playmates_uneven : ¬ playmates.IsEven := by
  simp [Relation.IsEven, playmates]

end Shelter

namespace Join

section Resolve

variable {graph : RelationGraph} {parent : Target} {relation : Relation} {owner related : Entity}
  (owned : graph.entity parent.entity = .ok owner)
  (found : graph.entity relation.related = .ok related) (binding : String)

include owned found

theorem resolve_of_known :
    resolve graph parent relation binding =
      (Hop.of relation owner related).map (·.join parent.binding binding) := by
  rw [Hop.resolve_eq, owned, found]
  rfl

theorem resolve_direct (direct : relation.link = none) :
    resolve graph parent relation binding =
      (keyColumns relation owner related).map fun columns =>
        (Hop.mk relation.name relation.kind related none columns).join parent.binding binding := by
  rw [resolve_of_known owned found, Hop.of, direct]
  cases keyColumns relation owner related <;> rfl

theorem resolve_direct_ok_iff (direct : relation.link = none) :
    (∃ join, resolve graph parent relation binding = .ok join) ↔
      relation.NamesForeignKey ∧ relation.IsEven := by
  rw [resolve_direct owned found binding direct]
  constructor
  · rintro ⟨_, made⟩
    obtain ⟨_, paired, _⟩ := map_ok_iff.mp made
    obtain ⟨named, even, _⟩ := (keyColumns_ok_iff direct).mp paired
    exact ⟨named, even⟩
  · rintro ⟨named, even⟩
    exact ⟨_, map_ok_iff.mpr ⟨_, (keyColumns_ok_iff direct).mpr ⟨named, even, rfl⟩, rfl⟩⟩

theorem misconfigured_of_direct (direct : relation.link = none)
    (unjoined : ¬ (relation.NamesForeignKey ∧ relation.IsEven)) :
    Misconfigured (resolve graph parent relation binding) := by
  rw [← resolve_direct_ok_iff owned found binding direct] at unjoined
  rw [resolve_direct owned found binding direct] at unjoined ⊢
  cases paired : keyColumns relation owner related with
  | error fault => exact ⟨fault, rfl, keyColumns_misconfigured paired⟩
  | ok pairs =>
      rw [paired] at unjoined
      exact absurd ⟨_, rfl⟩ unjoined

theorem columns_of_direct (direct : relation.link = none) {join : Join}
    (made : resolve graph parent relation binding = .ok join) :
    join.link = none ∧
      join.parentColumns = (orKey relation.fields owner).map (ColumnRef.mk parent.binding) ∧
      join.relatedColumns = (orKey relation.references related).map (ColumnRef.mk binding) := by
  rw [resolve_direct owned found binding direct, map_ok_iff] at made
  obtain ⟨pairs, paired, rfl⟩ := made
  obtain ⟨_, even, rfl⟩ := (keyColumns_ok_iff direct).mp paired
  rw [Relation.IsEven, direct] at even
  have lengths : (orKey relation.fields owner).length =
      (orKey relation.references related).length := by
    rw [length_orKey, length_orKey, even]
  refine ⟨rfl, ?_, ?_⟩
  · rw [Hop.parentColumns_join]
    exact congrArg _ (List.map_fst_zip (Nat.le_of_eq lengths))
  · rw [Hop.relatedColumns_join]
    exact congrArg _ (List.map_snd_zip (Nat.le_of_eq lengths.symm))

theorem resolve_linked {through : LinkTable} (linked : relation.link = some through) :
    ∃ join, resolve graph parent relation binding = .ok join ∧ join.link ≠ none ∧
      join.parentColumns = [⟨parent.binding, firstOrKey relation.fields owner⟩] ∧
      join.relatedColumns = [⟨binding, firstOrKey relation.references related⟩] := by
  rw [resolve_of_known owned found, Hop.of, linked]
  refine ⟨_, rfl, nofun, ?_, ?_⟩
  · rw [Hop.parentColumns_join]
    rfl
  · rw [Hop.relatedColumns_join]
    rfl

theorem keeps_iff_of_linked {through : LinkTable}
    (linked : relation.link = some through) {join : Join}
    (made : resolve graph parent relation binding = .ok join) :
    join.Keeps relation parent.binding binding ↔ relation.IsEven := by
  obtain ⟨_, same, _, fromParent, toRelated⟩ := resolve_linked owned found binding linked
  cases made.symm.trans same
  -- A declared list is what the link table takes of it when it has one column.
  have single (columns : List String) (entity : Entity) (name : String) :
      (columns ≠ [] →
        [ColumnRef.mk name (firstOrKey columns entity)] = columns.map (ColumnRef.mk name)) ↔
        max 1 columns.length = 1 := by
    match columns with
    | [] | [_] => simp [firstOrKey]
    | _ :: _ :: _ => simp [firstOrKey]
  rw [Keeps, Relation.IsEven, linked, fromParent, toRelated, single, single]

/-- A relation that declares no columns and has no link table is not joined, unless it is
many-to-many; and what is joined without a link table takes the columns of one side from the
declaration at least. A many-to-many relation without declared columns is joined all the same, by
the primary keys of both entities. -/
theorem resolve_unkeyed :
    (relation.kind ≠ .manyToMany →
      (¬ relation.IsKeyed → Misconfigured (resolve graph parent relation binding)) ∧
      ∀ join, resolve graph parent relation binding = .ok join → join.link = none →
        (relation.fields ≠ [] ∧
            join.parentColumns = relation.fields.map (ColumnRef.mk parent.binding)) ∨
          (relation.references ≠ [] ∧
            join.relatedColumns = relation.references.map (ColumnRef.mk binding))) ∧
    (relation.kind = .manyToMany → ¬ relation.IsKeyed →
      ∃ join, resolve graph parent relation binding = .ok join ∧ join.link = none ∧
        join.keys = [(⟨parent.binding, owner.primaryKey⟩, ⟨binding, related.primaryKey⟩)]) := by
  refine ⟨fun holds => ⟨?_, ?_⟩, ?_⟩
  · intro unkeyed
    obtain ⟨direct, noFields, noReferences⟩ := Relation.not_isKeyed_iff.mp unkeyed
    apply misconfigured_of_direct owned found binding direct
    rintro ⟨named, _⟩
    rcases Relation.declared_of_namesForeignKey named holds with fields | references
    · exact fields noFields
    · exact references noReferences
  · intro join made unlinked
    cases linked : relation.link with
    | some through =>
        obtain ⟨_, same, isLinked, _⟩ := resolve_linked owned found binding linked
        cases made.symm.trans same
        exact absurd unlinked isLinked
    | none =>
        obtain ⟨named, _⟩ := (resolve_direct_ok_iff owned found binding linked).mp ⟨join, made⟩
        obtain ⟨_, fromParent, toRelated⟩ := columns_of_direct owned found binding linked made
        apply (Relation.declared_of_namesForeignKey named holds).imp
        · intro fields
          exact ⟨fields, by rw [fromParent, orKey_of_ne_nil fields]⟩
        · intro references
          exact ⟨references, by rw [toRelated, orKey_of_ne_nil references]⟩
  · intro many unkeyed
    obtain ⟨direct, noFields, noReferences⟩ := Relation.not_isKeyed_iff.mp unkeyed
    have named : relation.NamesForeignKey := by
      rw [Relation.NamesForeignKey, many]
      trivial
    have even : relation.IsEven := by
      rw [Relation.IsEven, direct, noFields, noReferences]
    have paired : keyColumns relation owner related = .ok _ :=
      (keyColumns_ok_iff direct).mpr ⟨named, even, rfl⟩
    rw [resolve_direct owned found binding direct, paired, noFields, noReferences]
    exact ⟨_, rfl, rfl, rfl⟩

end Resolve

theorem pups_unjoined :
    ¬ Shelter.pups.IsKeyed ∧
      Misconfigured (resolve (Shelter.petsWith Shelter.pups) Shelter.pets Shelter.pups "j1") := by
  have unkeyed : ¬ Shelter.pups.IsKeyed := Relation.not_isKeyed_iff.mpr ⟨rfl, rfl, rfl⟩
  have holds : Shelter.pups.kind ≠ .manyToMany := nofun
  obtain ⟨pet, owned, found⟩ : ∃ pet,
      (Shelter.petsWith Shelter.pups).graph.entity Shelter.pets.entity = .ok pet ∧
        (Shelter.petsWith Shelter.pups).graph.entity Shelter.pups.related = .ok pet := ⟨_, rfl, rfl⟩
  obtain ⟨toOne, _⟩ := resolve_unkeyed owned found "j1"
  exact ⟨unkeyed, (toOne holds).1 unkeyed⟩

/-- Every pet becomes its own friend, and has no other. -/
theorem friends_joined_by_primary_key :
    (Shelter.petsWith Shelter.friends).relation "Pet" "friends" = .ok Shelter.friends ∧
      ¬ Shelter.friends.IsKeyed ∧
      ¬ Misconfigured
        (resolve (Shelter.petsWith Shelter.friends) Shelter.pets Shelter.friends "j1") ∧
      ∃ join,
        resolve (Shelter.petsWith Shelter.friends) Shelter.pets Shelter.friends "j1" = .ok join ∧
        join.link = none ∧ join.keys = [(⟨"pets", "id"⟩, ⟨"j1", "id"⟩)] := by
  refine ⟨rfl, Relation.not_isKeyed_iff.mpr ⟨rfl, rfl, rfl⟩, ?_, _, rfl, rfl, rfl⟩
  rintro ⟨fault, failed, _⟩
  cases failed

section Resolve

variable {graph : RelationGraph} {parent : Target} {relation : Relation} {owner related : Entity}
  (owned : graph.entity parent.entity = .ok owner)
  (found : graph.entity relation.related = .ok related) (binding : String)

include owned found

/-- A relation without link table is joined when the side of the foreign key is declared and as many
columns are paired on either side; then every declared column is in the join. A relation with a link
table is always joined, and every declared column is in the join exactly when no side declares more
than the one that the link table can be paired with. -/
theorem resolve_keeps :
    (relation.link = none →
      ((∃ join, resolve graph parent relation binding = .ok join) ↔
        relation.NamesForeignKey ∧ relation.IsEven) ∧
      (∀ join, resolve graph parent relation binding = .ok join →
        join.link = none ∧ join.Keeps relation parent.binding binding) ∧
      (¬ relation.IsEven → Misconfigured (resolve graph parent relation binding))) ∧
    (relation.link ≠ none →
      ∃ join, resolve graph parent relation binding = .ok join ∧ join.link ≠ none ∧
        join.parentColumns = [⟨parent.binding, firstOrKey relation.fields owner⟩] ∧
        join.relatedColumns = [⟨binding, firstOrKey relation.references related⟩] ∧
        (join.Keeps relation parent.binding binding ↔ relation.IsEven)) := by
  constructor
  · intro direct
    refine ⟨resolve_direct_ok_iff owned found binding direct, ?_, ?_⟩
    · intro join made
      obtain ⟨unlinked, fromParent, toRelated⟩ := columns_of_direct owned found binding direct made
      refine ⟨unlinked, fun fields => ?_, fun references => ?_⟩
      · rw [fromParent, orKey_of_ne_nil fields]
      · rw [toRelated, orKey_of_ne_nil references]
    · intro uneven
      apply misconfigured_of_direct owned found binding direct
      exact fun joined => uneven joined.2
  · intro linked
    obtain ⟨through, linked⟩ := Option.ne_none_iff_exists'.mp linked
    obtain ⟨join, made, isLinked, fromParent, toRelated⟩ :=
      resolve_linked owned found binding linked
    exact ⟨join, made, isLinked, fromParent, toRelated,
      keeps_iff_of_linked owned found binding linked made⟩

end Resolve

theorem mother_and_playmates_joined :
    (∃ join, resolve (Shelter.petsWith Shelter.mother) Shelter.pets Shelter.mother "j1" = .ok join ∧
      join.parentColumns = [⟨"pets", "mother_name"⟩, ⟨"pets", "mother_born"⟩] ∧
      join.relatedColumns = [⟨"j1", "name"⟩, ⟨"j1", "born"⟩]) ∧
    ∃ join,
      resolve (Shelter.petsWith Shelter.playmates) Shelter.pets Shelter.playmates "j1" = .ok join ∧
      join.parentColumns = [⟨"pets", "name"⟩] ∧ ¬ join.Keeps Shelter.playmates "pets" "j1" := by
  constructor
  · obtain ⟨pet, owned, found⟩ : ∃ pet,
        (Shelter.petsWith Shelter.mother).graph.entity Shelter.pets.entity = .ok pet ∧
          (Shelter.petsWith Shelter.mother).graph.entity Shelter.mother.related = .ok pet :=
      ⟨_, rfl, rfl⟩
    obtain ⟨direct, _⟩ := resolve_keeps owned found "j1"
    obtain ⟨joined, keeps, _⟩ := direct rfl
    obtain ⟨join, made⟩ := joined.mpr ⟨List.cons_ne_nil _ _, rfl⟩
    obtain ⟨_, fields, references⟩ := keeps join made
    exact ⟨join, made, fields (List.cons_ne_nil _ _), references (List.cons_ne_nil _ _)⟩
  · obtain ⟨pet, owned, found⟩ : ∃ pet,
        (Shelter.petsWith Shelter.playmates).graph.entity Shelter.pets.entity = .ok pet ∧
          (Shelter.petsWith Shelter.playmates).graph.entity Shelter.playmates.related = .ok pet :=
      ⟨_, rfl, rfl⟩
    obtain ⟨_, linked⟩ := resolve_keeps owned found "j1"
    obtain ⟨join, made, _, fromParent, _, kept⟩ := linked nofun
    exact ⟨join, made, fromParent, fun whole => Shelter.playmates_uneven (kept.mp whole)⟩

/-- The surname of a pet is declared, and no equality of the join has it. -/
theorem surname_dropped :
    ¬ Shelter.playmates.IsEven ∧
      ∃ join, resolve (Shelter.petsWith Shelter.playmates) Shelter.pets Shelter.playmates "j1" =
        .ok join ∧
        "surname" ∈ Shelter.playmates.fields ∧ ⟨"pets", "surname"⟩ ∉ join.parentColumns :=
  ⟨Shelter.playmates_uneven, _, rfl, by decide, by decide⟩

end Join

end FilterQuery
