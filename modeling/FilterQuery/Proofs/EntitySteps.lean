import FilterQuery.Proofs.Registry
import Mathlib.Data.List.Induction

/-!
Entities as they are declared, step by step. A name is the name of an attribute, of the column
behind the primary key, or of both, and the table of attributes does not know which. Main statement:
a declared attribute keeps its column, unless it has the name of the primary key when it is declared
and the key is moved afterwards; then it is gone.
-/

namespace FilterQuery

namespace Entity

theorem find?_new (name table asked : String) :
    (new name table).attributes.find? asked = if asked = "id" then some "id" else none :=
  Dictionary.find?_insert ..

theorem name_withAttributes (entity : Entity) (names : List String) :
    (entity.withAttributes names).name = entity.name := by
  induction names generalizing entity with
  | nil => rfl
  | cons name rest ih => exact ih (entity.withAttribute name)

theorem primaryKey_withAttributes (entity : Entity) (names : List String) :
    (entity.withAttributes names).primaryKey = entity.primaryKey := by
  induction names generalizing entity with
  | nil => rfl
  | cons name rest ih => exact ih (entity.withAttribute name)

theorem find?_withAttributes (entity : Entity) (names : List String) (asked : String) :
    (entity.withAttributes names).attributes.find? asked =
      if asked ∈ names then some asked else entity.attributes.find? asked := by
  induction names generalizing entity with
  | nil => rfl
  | cons name rest ih =>
      have later := ih (entity.withAttribute name)
      rw [withAttribute, withColumn, Dictionary.find?_insert] at later
      by_cases same : asked = name
      · subst same
        simpa [withAttributes, withAttribute, withColumn] using later
      · simpa [withAttributes, withAttribute, withColumn, same] using later

theorem find?_withPrimaryKey (entity : Entity) (column asked : String) :
    (entity.withPrimaryKey column).attributes.find? asked =
      if asked = column then some column
      else if asked = entity.primaryKey then none
      else entity.attributes.find? asked := by
  rw [withPrimaryKey, Dictionary.find?_insert, Dictionary.find?_erase]

inductive Step where
  | named (name : String)
  | allNamed (names : List String)
  | stored (attributeName column : String)
  | keyed (column : String)
  | related (relation : Relation)

namespace Step

def apply (entity : Entity) : Step → Entity
  | .named name => entity.withAttribute name
  | .allNamed names => entity.withAttributes names
  | .stored attributeName column => entity.withColumn attributeName column
  | .keyed column => entity.withPrimaryKey column
  | .related relation => entity.withRelation relation

def column? (step : Step) (asked : String) : Option String :=
  match step with
  | .named name => if asked = name then some name else none
  | .allNamed names => if asked ∈ names then some asked else none
  | .stored attributeName column => if asked = attributeName then some column else none
  | .keyed _ | .related _ => none

def key? : Step → Option String
  | .keyed column => some column
  | _ => none

variable (entity : Entity) (step : Step)

theorem name_apply : (step.apply entity).name = entity.name := by
  cases step with
  | allNamed names => exact name_withAttributes entity names
  | _ => rfl

theorem primaryKey_apply : (step.apply entity).primaryKey = step.key?.getD entity.primaryKey := by
  cases step with
  | allNamed names => exact primaryKey_withAttributes entity names
  | _ => rfl

theorem find?_apply_of_key {key : String} (moves : step.key? = some key) (asked : String) :
    (step.apply entity).attributes.find? asked =
      if asked = key then some key
      else if asked = entity.primaryKey then none
      else entity.attributes.find? asked := by
  cases step with
  | keyed column =>
      cases moves
      exact find?_withPrimaryKey entity _ asked
  | _ => cases moves

theorem find?_apply_of_no_key (stays : step.key? = none) (asked : String) :
    (step.apply entity).attributes.find? asked =
      (step.column? asked).or (entity.attributes.find? asked) := by
  cases step with
  | keyed column => cases stays
  | related relation => rfl
  | named name =>
      rw [apply, withAttribute, withColumn, Dictionary.find?_insert, column?]
      split <;> rfl
  | stored attributeName column =>
      rw [apply, withColumn, Dictionary.find?_insert, column?]
      split <;> rfl
  | allNamed names =>
      rw [apply, find?_withAttributes, column?]
      split <;> rfl

theorem key?_of_column? {step : Step} {attributeName column : String}
    (declares : step.column? attributeName = some column) : step.key? = none := by
  cases step with
  | keyed column => cases declares
  | _ => rfl

end Step

/-! Whole declarations. -/

def built (name table : String) (steps : List Step) : Entity :=
  steps.foldl Step.apply (new name table)

def lastKey (steps : List Step) : String :=
  (steps.filterMap Step.key?).getLast?.getD "id"

theorem built_append (name table : String) (before after : List Step) :
    built name table (before ++ after) = after.foldl Step.apply (built name table before) :=
  List.foldl_append

theorem built_concat (name table : String) (before : List Step) (step : Step) :
    built name table (before ++ [step]) = step.apply (built name table before) :=
  built_append name table before [step]

theorem name_built (name table : String) (steps : List Step) :
    (built name table steps).name = name := by
  induction steps using List.reverseRecOn with
  | nil => rfl
  | append_singleton before step ih =>
      rw [built_concat, Step.name_apply, ih]

theorem lastKey_concat (before : List Step) (step : Step) :
    lastKey (before ++ [step]) = step.key?.getD (lastKey before) := by
  rw [lastKey, List.filterMap_append]
  cases moves : step.key? <;> simp [lastKey, moves]

theorem primaryKey_built (name table : String) (steps : List Step) :
    (built name table steps).primaryKey = lastKey steps := by
  induction steps using List.reverseRecOn with
  | nil => rfl
  | append_singleton before step ih =>
      rw [built_concat, Step.primaryKey_apply, lastKey_concat, ih]

theorem exists_primaryKey (name table : String) (steps : List Step) :
    ∃ column, (built name table steps).attributes.find? (lastKey steps) = some column := by
  induction steps using List.reverseRecOn with
  | nil => exact ⟨"id", rfl⟩
  | append_singleton before step ih =>
      rw [built_concat, lastKey_concat]
      cases moves : step.key? with
      | some key =>
          rw [Step.find?_apply_of_key _ _ moves, Option.getD_some, if_pos rfl]
          exact ⟨key, rfl⟩
      | none =>
          obtain ⟨column, held⟩ := ih
          rw [Step.find?_apply_of_no_key _ _ moves, Option.getD_none, held]
          cases step.column? (lastKey before) <;> simp

/-- An attribute that no step names is kept, unless it has the name of the key and the key is
moved. -/
theorem find?_unnamed (entity : Entity) {attributeName : String} {steps : List Step}
    (unnamed : ∀ step ∈ steps, step.column? attributeName = none ∧ step.key? ≠ some attributeName) :
    (steps.foldl Step.apply entity).attributes.find? attributeName =
      if entity.primaryKey = attributeName ∧ ∃ step ∈ steps, step.key?.isSome then none
      else entity.attributes.find? attributeName := by
  induction steps generalizing entity with
  | nil => simp
  | cons step rest ih =>
      obtain ⟨⟨undeclared, differs⟩, others⟩ := List.forall_mem_cons.mp unnamed
      rw [List.foldl_cons, ih _ others, Step.primaryKey_apply]
      cases moves : step.key? with
      | some key =>
          -- From here on the key has another name, so nothing can happen to the attribute any more.
          have apart : key ≠ attributeName := fun same => differs (moves.trans (congrArg some same))
          have there : ∃ later ∈ step :: rest, later.key?.isSome :=
            ⟨step, List.mem_cons_self, by rw [moves]; rfl⟩
          simp only [Option.getD_some, apart, false_and, if_false,
            Step.find?_apply_of_key _ _ moves, Ne.symm apart, there, and_true,
            @eq_comm _ attributeName]
      | none =>
          rw [Step.find?_apply_of_no_key _ _ moves, undeclared]
          simp [moves]

end Entity

theorem Schema.column_register (schema : Schema) (entity : Entity) (attributeName : String) :
    (schema.register entity).column entity.name attributeName =
      match entity.attributes.find? attributeName with
      | some column => .ok column
      | none => .error (.unresolved entity.name attributeName) := by
  have known : (schema.register entity).entity entity.name = .ok entity := by
    rw [Schema.entity_ok_iff, Schema.register, Dictionary.find?_insert, if_pos rfl]
  rw [Schema.column, known]
  rfl

/-- The attributes of an entity that is declared step by step, and then registered. One that is
declared and not named again has the declared column; but when its name is that of the primary key,
it is gone as soon as the key is moved. A step that moves the key takes no other attribute away. The
column that is the key can always be asked for. -/
theorem Entity.column_of_steps (schema : Schema) (name table : String) (steps : List Step) :
    let resolved (steps : List Step) := (schema.register (built name table steps)).column name
    (∀ before step after attributeName column, steps = before ++ step :: after →
        step.column? attributeName = some column →
        (∀ later ∈ after, later.column? attributeName = none ∧ later.key? ≠ some attributeName) →
        resolved steps attributeName =
          if lastKey before = attributeName ∧ ∃ later ∈ after, later.key?.isSome then
            .error (.unresolved name attributeName)
          else .ok column) ∧
      (∀ before key attributeName, steps = before ++ [.keyed key] → attributeName ≠ key →
        resolved steps attributeName =
          if attributeName = lastKey before then .error (.unresolved name attributeName)
          else resolved before attributeName) ∧
      ∃ column, resolved steps (lastKey steps) = .ok column := by
  intro resolved
  have resolved_eq (steps : List Step) (attributeName : String) : resolved steps attributeName =
      match (built name table steps).attributes.find? attributeName with
      | some column => .ok column
      | none => .error (.unresolved name attributeName) := by
    have found := schema.column_register (built name table steps) attributeName
    rwa [name_built] at found
  refine ⟨?declared, ?moved, ?key⟩
  case declared =>
    rintro before step after attributeName column rfl declares unnamed
    have held : (step.apply (built name table before)).attributes.find? attributeName =
        some column := by
      rw [Step.find?_apply_of_no_key _ _ (Step.key?_of_column? declares), declares, Option.some_or]
    have key : (step.apply (built name table before)).primaryKey = lastKey before := by
      rw [Step.primaryKey_apply, Step.key?_of_column? declares, Option.getD_none, primaryKey_built]
    rw [resolved_eq, built_append, List.foldl_cons, find?_unnamed _ unnamed, key, held]
    by_cases lost : lastKey before = attributeName ∧ ∃ later ∈ after, later.key?.isSome
    · rw [if_pos lost, if_pos lost]
    · rw [if_neg lost, if_neg lost]
  case moved =>
    rintro before key attributeName rfl differs
    rw [resolved_eq, resolved_eq, built_concat, Step.find?_apply_of_key _ _ rfl, if_neg differs,
      primaryKey_built]
    by_cases lost : attributeName = lastKey before
    · rw [if_pos lost, if_pos lost]
    · rw [if_neg lost, if_neg lost]
  case key =>
    obtain ⟨column, held⟩ := exists_primaryKey name table steps
    exact ⟨column, by rw [resolved_eq, held]⟩

namespace Entity

/-- The date of birth keeps its column when the key is moved after it. -/
theorem birth_kept :
    (∀ later ∈ [Step.keyed "pet_id"], later.column? "dob" = none ∧ later.key? ≠ some "dob") ∧
      (Schema.empty.register
        (built "Pet" "pets" [.stored "dob" "date_of_birth", .keyed "pet_id"])).column "Pet" "dob" =
          .ok "date_of_birth" := by
  have unnamed : ∀ later ∈ [Step.keyed "pet_id"], later.column? "dob" = none ∧
      later.key? ≠ some "dob" := by
    simp [Step.column?, Step.key?]
  have resolved :=
    (column_of_steps .empty "Pet" "pets" [.stored "dob" "date_of_birth", .keyed "pet_id"]).1 []
      (.stored "dob" "date_of_birth") [.keyed "pet_id"] "dob" "date_of_birth" rfl rfl unnamed
  refine ⟨unnamed, resolved.trans (if_neg ?_)⟩
  rintro ⟨isKey, _⟩
  revert isKey
  decide

/-- The number of a pet is declared with a column of its own, which then becomes the key. No step
names the attribute again, and it is gone. -/
theorem number_lost :
    (∀ later ∈ [Step.keyed "pet_id"], later.column? "id" = none ∧ later.key? ≠ some "id") ∧
      (Schema.empty.register
        (built "Pet" "pets" [.stored "id" "pet_id", .keyed "pet_id"])).column "Pet" "id" =
          .error (.unresolved "Pet" "id") := by
  refine ⟨?_, rfl⟩
  simp [Step.column?, Step.key?]

end Entity

end FilterQuery
