import FilterQuery.Proofs.JoinedPaths

/-!
Schemas in which entities were registered. Each entity is found under its own name, so a relation
followed by name leads from one registered entity to another. Main statement: a path that look-ups
can follow leads where the declarations of the entities on the way lead.
-/

namespace FilterQuery

namespace Schema

def Registered (schema : Schema) : Prop :=
  ∀ name entity, schema.entity name = .ok entity → entity.name = name

/-- The entity that a path of relations leads to, read off the declarations of the entities on the
way. -/
def follow (schema : Schema) : Entity → List String → Option Entity
  | entity, [] => some entity
  | entity, relation :: rest => do
      let declared ← entity.relations.find? relation
      let related ← schema.entities.find? declared.related
      follow schema related rest

section Lookups

variable {schema : Schema} {entityName name : String}

theorem entity_ok_iff {entity : Entity} :
    schema.entity name = .ok entity ↔ schema.entities.find? name = some entity := by
  unfold Schema.entity
  cases schema.entities.find? name <;> simp

theorem relation_ok_iff {relation : Relation} :
    schema.relation entityName name = .ok relation ↔
      ∃ entity, schema.entity entityName = .ok entity ∧
        entity.relations.find? name = some relation := by
  rw [Schema.relation, bind_ok_iff]
  refine exists_congr fun entity => and_congr_right fun _ => ?_
  cases entity.relations.find? name <;> simp

theorem column_ok_iff {column : String} :
    schema.column entityName name = .ok column ↔
      ∃ entity, schema.entity entityName = .ok entity ∧
        entity.attributes.find? name = some column := by
  rw [Schema.column, bind_ok_iff]
  refine exists_congr fun entity => and_congr_right fun _ => ?_
  cases entity.attributes.find? name <;> simp

theorem column_declared {entity : Entity} {column : String}
    (known : schema.entity entity.name = .ok entity)
    (named : schema.column entity.name name = .ok column) :
    entity.attributes.find? name = some column := by
  obtain ⟨same, sameKnown, held⟩ := column_ok_iff.mp named
  cases known.symm.trans sameKnown
  exact held

end Lookups

theorem Registered.register {schema : Schema} (registered : schema.Registered) (entity : Entity) :
    (schema.register entity).Registered := by
  intro name other found
  rw [entity_ok_iff, Schema.register, Dictionary.find?_insert] at found
  split at found
  · rename_i same
    cases found
    exact same.symm
  · exact registered name other (entity_ok_iff.mpr found)

theorem registered_ofEntities (entities : List Entity) : (ofEntities entities).Registered := by
  have start : empty.Registered := by
    intro name entity found
    cases found
  have all (schema : Schema) (registered : schema.Registered) :
      (entities.foldl Schema.register schema).Registered := by
    induction entities generalizing schema with
    | nil => exact registered
    | cons entity rest ih => exact ih _ (registered.register entity)
  exact all empty start

section Walk

variable {schema : Schema}

theorem Registered.hop_declared (registered : schema.Registered) {entity : Entity}
    {relation : String} {hop : Hop} (known : schema.entity entity.name = .ok entity)
    (leads : schema.graph.hop entity.name relation = .ok hop) :
    ∃ declared, entity.relations.find? relation = some declared ∧
      schema.entities.find? declared.related = some hop.related ∧
        schema.entity hop.related.name = .ok hop.related := by
  obtain ⟨declared, _, related, _, found, _⟩ := RelationGraph.hop_ok leads
  obtain ⟨same, sameKnown, held⟩ := relation_ok_iff.mp related
  cases known.symm.trans sameKnown
  refine ⟨declared, held, entity_ok_iff.mp found, ?_⟩
  rw [registered _ _ found]
  exact found

theorem Registered.follow_of_lead (registered : schema.Registered) {entity reached : Entity}
    {path : List String} (known : schema.entity entity.name = .ok entity)
    (led : schema.graph.lead entity path = .ok reached) :
    schema.follow entity path = some reached ∧ schema.entity reached.name = .ok reached := by
  induction path generalizing entity with
  | nil =>
      cases led
      exact ⟨rfl, known⟩
  | cons relation rest ih =>
      obtain ⟨hop, leads, later⟩ := bind_ok_iff.mp led
      obtain ⟨declared, held, found, knownNext⟩ := registered.hop_declared known leads
      obtain ⟨followed, knownLast⟩ := ih knownNext later
      refine ⟨?_, knownLast⟩
      simp only [follow, held, found, Option.bind_eq_bind, Option.bind_some]
      exact followed

end Walk

end Schema

end FilterQuery
