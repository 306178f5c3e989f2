import FilterQuery.QueryPlan
import Mathlib.Data.List.Dedup

/-!
What a query plan selects from a database. A plan binds a row of the root table to a name, then a
row of each joined table, and keeps the bindings whose key columns agree; the condition is asked of
what is left. Columns may be null, and what is asked of a null is neither true nor false. The order
of the selected rows is not looked at.
-/

namespace FilterQuery

inductive Truth where
  | yes
  | no
  | unknown
  deriving DecidableEq, Repr

namespace Truth

def of (answer : Bool) : Truth :=
  if answer then .yes else .no

def and : Truth → Truth → Truth
  | .no, _ | _, .no => .no
  | .yes, .yes => .yes
  | _, _ => .unknown

def or : Truth → Truth → Truth
  | .yes, _ | _, .yes => .yes
  | .no, .no => .no
  | _, _ => .unknown

def all (truths : List Truth) : Truth :=
  truths.foldr and .yes

def any (truths : List Truth) : Truth :=
  truths.foldr or .no

theorem of_eq_yes (answer : Bool) : of answer = .yes ↔ answer = true := by
  cases answer <;> simp [of]

theorem and_eq_yes (left right : Truth) : left.and right = .yes ↔ left = .yes ∧ right = .yes := by
  cases left <;> cases right <;> simp [and]

theorem or_eq_yes (left right : Truth) : left.or right = .yes ↔ left = .yes ∨ right = .yes := by
  cases left <;> cases right <;> simp [or]

theorem all_eq_yes (truths : List Truth) : all truths = .yes ↔ ∀ truth ∈ truths, truth = .yes := by
  induction truths with
  | nil => simp [all]
  | cons first rest ih =>
      simp only [all, List.foldr_cons, and_eq_yes, List.forall_mem_cons] at ih ⊢
      rw [ih]

theorem any_eq_yes (truths : List Truth) : any truths = .yes ↔ ∃ truth ∈ truths, truth = .yes := by
  induction truths with
  | nil => simp [any]
  | cons first rest ih =>
      simp only [any, List.foldr_cons, or_eq_yes, List.mem_cons, or_and_right, exists_or,
        exists_eq_left] at ih ⊢
      rw [ih]

end Truth

/-- The cells of a row by column; a cell without content is null. -/
structure Row (Content : Type) where
  cells : List (String × Option Content)
  deriving DecidableEq, Repr

def Row.read {Content : Type} (row : Row Content) (column : String) : Option Content :=
  (row.cells.find? (·.1 = column)).bind (·.2)

/-- The rows of each table. A table may hold a row several times. -/
abbrev Database (Content : Type) := String → List (Row Content)

structure Store (Content : Type) where
  compare : Comparison → Content → Value → Truth
  like : Content → String → Truth

namespace Store

variable {Content : Type}

-- Whatever the store, nothing is known of a null on either side.
def compared (store : Store Content) (comparison : Comparison) : Option Content → Value → Truth
  | none, _ => .unknown
  | some _, .null => .unknown
  | some content, value => store.compare comparison content value

def liked (store : Store Content) : Option Content → String → Truth
  | none, _ => .unknown
  | some content, pattern => store.like content pattern

end Store

variable {Content : Type} [DecidableEq Content]

/-- Equality of two columns. A null equals nothing, not even a null. -/
def equality : Option Content → Option Content → Truth
  | some left, some right => .of (left = right)
  | _, _ => .unknown

theorem equality_eq_yes (left right : Option Content) :
    equality left right = .yes ↔ ∃ content, left = some content ∧ right = some content := by
  cases left with
  | none => simp [equality]
  | some left =>
      cases right with
      | none => simp [equality]
      | some right => simp [equality, Truth.of_eq_yes, @eq_comm _ left]

/-- The row behind each table name. A name that is not bound has a row without cells. -/
abbrev Bindings (Content : Type) := String → Row Content

namespace Bindings

def unbound {Content : Type} : Bindings Content :=
  fun _ => ⟨[]⟩

def bind {Content : Type} (bindings : Bindings Content) (name : String) (row : Row Content) :
    Bindings Content :=
  fun asked => if asked = name then row else bindings asked

def read {Content : Type} (bindings : Bindings Content) (column : ColumnRef) : Option Content :=
  (bindings column.qualifier).read column.column

def agree (bindings : Bindings Content) (keys : List KeyPair) : Truth :=
  .all (keys.map fun pair => equality (bindings.read pair.1) (bindings.read pair.2))

omit [DecidableEq Content] in
theorem bind_same (bindings : Bindings Content) (name : String) (row : Row Content) :
    bindings.bind name row name = row := by
  simp [bind]

omit [DecidableEq Content] in
theorem bind_other (bindings : Bindings Content) {name asked : String} (row : Row Content)
    (different : asked ≠ name) : bindings.bind name row asked = bindings asked := by
  simp [bind, different]

end Bindings

def Database.bound (database : Database Content) (table name : String) (keys : List KeyPair)
    (bindings : Bindings Content) : List (Bindings Content) :=
  ((database table).map (bindings.bind name)).filter (·.agree keys = .yes)

theorem Database.mem_bound (database : Database Content) (table name : String)
    (keys : List KeyPair) (bindings found : Bindings Content) :
    found ∈ database.bound table name keys bindings ↔
      ∃ row ∈ database table, found = bindings.bind name row ∧ found.agree keys = .yes := by
  simp only [Database.bound, List.mem_filter, List.mem_map, decide_eq_true_eq]
  constructor
  · rintro ⟨⟨row, held, rfl⟩, agreed⟩
    exact ⟨row, held, rfl, agreed⟩
  · rintro ⟨row, held, rfl, agreed⟩
    exact ⟨⟨row, held, rfl⟩, agreed⟩

namespace Join

def tableNames (join : Join) : List String :=
  (join.link.map (·.binding)).toList ++ [join.binding]

/-- An inner join, through the link table when there is one. -/
def extend (database : Database Content) (join : Join) (bindings : Bindings Content) :
    List (Bindings Content) :=
  match join.link with
  | none => database.bound join.table join.binding join.keys bindings
  | some link =>
      (database.bound link.table link.binding link.keys bindings).flatMap
        (database.bound join.table join.binding join.keys)

-- A subquery joins its own tables first. Its names hide those of the rows outside, to which the
-- result is tied last.
def search (database : Database Content) (join : Join) (bindings : Bindings Content) :
    List (Bindings Content) :=
  match join.link with
  | none => database.bound join.table join.binding join.keys bindings
  | some link =>
      ((database.bound link.table link.binding [] bindings).flatMap
        (database.bound join.table join.binding join.keys)).filter (·.agree link.keys = .yes)

def extendAll (database : Database Content) : List Join → Bindings Content → List (Bindings Content)
  | [], bindings => [bindings]
  | join :: rest, bindings => (join.extend database bindings).flatMap (extendAll database rest)

theorem extendAll_append (database : Database Content) (joins more : List Join)
    (bindings : Bindings Content) :
    extendAll database (joins ++ more) bindings =
      (extendAll database joins bindings).flatMap (extendAll database more) := by
  induction joins generalizing bindings with
  | nil => simp [extendAll]
  | cons join rest ih =>
      have tail : extendAll database (rest ++ more) =
          fun bindings => (extendAll database rest bindings).flatMap (extendAll database more) :=
        funext ih
      simp only [List.cons_append, extendAll, List.flatMap_assoc, tail]

end Join

namespace Condition

mutual

def truth (store : Store Content) (database : Database Content) :
    Condition → Bindings Content → Truth
  | .literal value, _ => .of value
  | .compare column comparison value, bindings =>
      store.compared comparison (bindings.read column) value
  | .isNull column negated, bindings => .of ((bindings.read column).isNone != negated)
  | .isIn column values, bindings =>
      .any (values.map (store.compared .equal (bindings.read column)))
  | .like column pattern, bindings => store.liked (bindings.read column) pattern
  | .someRelated join inner, bindings =>
      .of ((join.search database bindings).any fun found =>
        truth store database inner found = .yes)
  | .group inner, bindings => truth store database inner bindings
  | .all parts, bindings => .all (truths store database parts bindings)
  | .any parts, bindings => .any (truths store database parts bindings)

def truths (store : Store Content) (database : Database Content) :
    List Condition → Bindings Content → List Truth
  | [], _ => []
  | part :: rest, bindings =>
      truth store database part bindings :: truths store database rest bindings

end

end Condition

namespace QueryPlan

def tableNames (plan : QueryPlan) : List String :=
  plan.binding :: plan.joins.flatMap Join.tableNames

/-- A plan without a condition keeps every row. -/
def keeps (store : Store Content) (database : Database Content) (plan : QueryPlan)
    (bindings : Bindings Content) : Bool :=
  match plan.condition with
  | none => true
  | some condition => condition.truth store database bindings = .yes

/-- The root row of each binding that the condition keeps. A statement that gives one name to two of
its tables is refused and finds nothing. -/
def found (store : Store Content) (database : Database Content) (plan : QueryPlan) :
    List (Row Content) :=
  if plan.tableNames.Nodup then
    (database plan.table).flatMap fun row =>
      ((Join.extendAll database plan.joins (Bindings.unbound.bind plan.binding row)).filter
        (plan.keeps store database)).map (· plan.binding)
  else []

def rows (store : Store Content) (database : Database Content) (plan : QueryPlan) :
    List (Row Content) :=
  if plan.distinct then (plan.found store database).dedup else plan.found store database

theorem mem_rows (store : Store Content) (database : Database Content) (plan : QueryPlan)
    (row : Row Content) : row ∈ plan.rows store database ↔ row ∈ plan.found store database := by
  unfold rows
  split
  · exact List.mem_dedup
  · rfl

end QueryPlan

end FilterQuery
