import FilterQuery.Proofs.Assembled

/-!
A query plan says what the filter tree says. Main statement: the rows that an assembled plan selects
from a database are the root rows for which linked rows can be found, one for each path in each
scope, so that the tree holds of them.
-/

namespace FilterQuery

/-! A shelter with pets, their toys and the persons who keep them. -/

namespace Shelter

/-- A store in which all columns hold texts. It knows no patterns. -/
def texts : Store String where
  compare := fun comparison held value =>
    match value with
    | .text other =>
        match comparison with
        | .equal => .of (held = other)
        | .notEqual => .of (held ≠ other)
        | .less => .of (held < other)
        | .lessOrEqual => .of (held ≤ other)
        | .greater => .of (other < held)
        | .greaterOrEqual => .of (other ≤ held)
    | _ => .unknown
  like := fun _ _ => .unknown

def row (cells : List (String × String)) : Row String :=
  ⟨cells.map fun cell => (cell.1, some cell.2)⟩

-- A pet has one keeper, but a table of its own says who it is.
def schema : Schema :=
  .ofEntities [
    (((Entity.new "Pet" "pets").withAttribute "name").withRelation
      { name := "toys", kind := .oneToMany, related := "Toy",
        references := ["pet_id"] }).withRelation
        { name := "keeper", kind := .manyToOne, related := "Person",
          link := some ⟨"keepings", "pet_id", "person_id"⟩ },
    ((Entity.new "Toy" "toys").withAttribute "name").withRelation
      { name := "owner", kind := .manyToOne, related := "Pet", fields := ["pet_id"] },
    (Entity.new "Person" "persons").withAttribute "name"]

def assembler : Assembler := ⟨schema, {}⟩

def kaya : Row String := row [("id", "1"), ("name", "Kaya")]

def jinx : Row String := row [("id", "2"), ("name", "Jinx")]

/-- Kaya has a ball, a rope and a keeper, and Jinx has nothing. -/
def database : Database String
  | "pets" => [kaya, jinx]
  | "toys" => [row [("id", "1"), ("name", "ball"), ("pet_id", "1")],
      row [("id", "2"), ("name", "rope"), ("pet_id", "1")]]
  | "keepings" => [row [("pet_id", "1"), ("person_id", "7")]]
  | "persons" => [row [("id", "7"), ("name", "Jasmine")]]
  | _ => []

def asks (field op value : String) : RawFilter :=
  .leaf field op (.text value) none

theorem table_of_pet {root : Entity} (rooted : schema.entity "Pet" = .ok root) :
    root.table = "pets" := by
  have table : (schema.entity "Pet").map (·.table) = .ok "pets" := rfl
  rw [rooted] at table
  exact Except.ok.inj table

theorem plain (root : Entity) (rooted : schema.entity "Pet" = .ok root) :
    ¬ IsGenerated root.table := by
  rw [table_of_pet rooted]
  exact not_isGenerated 'p' rfl (by decide) (by decide)

end Shelter

/-- Whatever the schema, the settings and the request, the plan selects a row exactly when the tree
does. -/
theorem Assembler.mem_rows_iff_selects {Content : Type} [DecidableEq Content]
    (assembler : Assembler) (rootName : String) (request : Request) {plan : QueryPlan}
    (assembled : assembler.assemble rootName request = .ok plan) (store : Store Content)
    (database : Database Content) :
    ∃ nodes root, Node.ofRawAll assembler.settings.defaultGroup request.filters = .ok nodes ∧
      assembler.schema.entity rootName = .ok root ∧
        (¬ IsGenerated root.table → ∀ row, row ∈ plan.rows store database ↔
          (assembler.reading request root store database).Selects nodes row) := by
  obtain ⟨nodes, root, joined, read, rooted, made⟩ := assembled_of_assemble assembled
  refine ⟨nodes, root, read, rooted, ?_⟩
  intro plain row
  exact made.mem_rows_iff plain store database row

theorem Assembler.kaya_selected :
    ∃ nodes root, Node.ofRawAll "__default__" [Shelter.asks "toys.name" "=" "ball",
        .composite "or" [Shelter.asks "name" "=" "Jinx", Shelter.asks "keeper" "contains" "7"]] =
          .ok nodes ∧
      Shelter.schema.entity "Pet" = .ok root ∧
        (Shelter.assembler.reading {} root Shelter.texts Shelter.database).Selects nodes
          Shelter.kaya := by
  let request : Request := {
    filters := [Shelter.asks "toys.name" "=" "ball",
      .composite "or" [Shelter.asks "name" "=" "Jinx", Shelter.asks "keeper" "contains" "7"]] }
  obtain ⟨plan, assembled, member⟩ : ∃ plan, Shelter.assembler.assemble "Pet" request = .ok plan ∧
      Shelter.kaya ∈ plan.rows Shelter.texts Shelter.database := ⟨_, rfl, by decide +kernel⟩
  obtain ⟨nodes, root, read, rooted, same⟩ :=
    mem_rows_iff_selects Shelter.assembler "Pet" request assembled Shelter.texts Shelter.database
  exact ⟨nodes, root, read, rooted, (same (Shelter.plain root rooted) _).mp member⟩

end FilterQuery
