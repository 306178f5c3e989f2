import FilterQuery.Proofs.Formula

/-!
Conditions read back from SQL. The reader knows the precedence of the language: what is in
parentheses comes first, `AND` binds tighter than `OR`, and both join any number of operands. It
refuses an empty list and a missing operand. Main statement: when nothing in a condition is empty
and its composites join groups, the parts of the condition are read as what it says.
-/

namespace FilterQuery

/-- A single test of SQL, or the search of a subquery: its tables with the names that they are bound
to, the keys they are joined by, and all that is asked of their rows. -/
inductive Clause where
  | literal (value : Bool)
  | compare (column : ColumnRef) (comparison : Comparison) (value : Value)
  | equal (left right : ColumnRef)
  | isNull (column : ColumnRef) (negated : Bool)
  | isIn (column : ColumnRef) (values : List Value)
  | like (column : ColumnRef) (pattern : Value)
  | search (tables : List (String × String)) (keys : List KeyPair) (condition : Formula Clause)

namespace Sql

/-- The operands read so far between two parentheses. The conjunction at its end may still grow. -/
structure Level where
  disjuncts : List (Formula Clause)
  conjuncts : List (Formula Clause)

namespace Level

def start : Level := ⟨[], []⟩

def take (level : Level) (operand : Formula Clause) : Level :=
  { level with conjuncts := level.conjuncts ++ [operand] }

def conjunction (level : Level) : Formula Clause :=
  .chain .and level.conjuncts

def whole (level : Level) : Formula Clause :=
  .chain .or (level.disjuncts ++ [level.conjunction])

def next (level : Level) : Level :=
  ⟨level.disjuncts ++ [level.conjunction], []⟩

end Level

/-- What waits for the end of the parentheses: the operands before them, and the tables when it is a
search that they enclose. -/
structure Frame where
  level : Level
  search : Option (List (String × String) × List KeyPair)

def Frame.close (frame : Frame) (inside : Formula Clause) : Level :=
  match frame.search with
  | none => frame.level.take inside
  | some (tables, keys) => frame.level.take (.atom (.search tables keys inside))

-- `operand`, `tables` and `connective` read where such a thing is due; `test` reads on after a
-- column, `items` after an item of a list, `tablesEnd` after a table or a key.
mutual

def operand (level : Level) (outer : List Frame) : List Part → Option (Formula Clause)
  | .fragment .leftParen :: rest => operand .start (⟨level, none⟩ :: outer) rest
  | .fragment .existsOpen :: rest => tables level outer [] [] rest
  | .fragment .truth :: rest => connective (level.take (.atom (.literal true))) outer rest
  | .fragment .falsity :: rest => connective (level.take (.atom (.literal false))) outer rest
  | .identifier qualifier :: .fragment .dot :: .identifier name :: rest =>
      test level outer ⟨qualifier, name⟩ rest
  | _ => none

def test (level : Level) (outer : List Frame) (column : ColumnRef) :
    List Part → Option (Formula Clause)
  | .fragment .isNull :: rest => connective (level.take (.atom (.isNull column false))) outer rest
  | .fragment .isNotNull :: rest => connective (level.take (.atom (.isNull column true))) outer rest
  | .fragment .like :: .parameter pattern :: rest =>
      connective (level.take (.atom (.like column pattern))) outer rest
  | .fragment (.comparison comparison) :: .parameter value :: rest =>
      connective (level.take (.atom (.compare column comparison value))) outer rest
  | .fragment (.comparison .equal) :: .identifier qualifier :: .fragment .dot ::
      .identifier name :: rest =>
      connective (level.take (.atom (.equal column ⟨qualifier, name⟩))) outer rest
  | .fragment .inLeftParen :: .parameter value :: rest => items level outer column [value] rest
  | _ => none

def items (level : Level) (outer : List Frame) (column : ColumnRef) (values : List Value) :
    List Part → Option (Formula Clause)
  | .fragment .comma :: .parameter value :: rest =>
      items level outer column (values ++ [value]) rest
  | .fragment .rightParen :: rest =>
      connective (level.take (.atom (.isIn column values))) outer rest
  | _ => none

def tables (level : Level) (outer : List Frame) (known : List (String × String))
    (keys : List KeyPair) : List Part → Option (Formula Clause)
  | .identifier name :: .fragment .named :: .identifier binding :: rest =>
      tablesEnd level outer (known ++ [(name, binding)]) keys rest
  | .identifier name :: rest => tablesEnd level outer (known ++ [(name, name)]) keys rest
  | _ => none

def tablesEnd (level : Level) (outer : List Frame) (known : List (String × String))
    (keys : List KeyPair) : List Part → Option (Formula Clause)
  | .fragment .innerJoin :: rest => tables level outer known keys rest
  | .fragment .matching :: .identifier qualifier :: .fragment .dot :: .identifier name ::
      .fragment (.comparison .equal) :: .identifier other :: .fragment .dot :: .identifier column ::
      rest
  | .fragment .and :: .identifier qualifier :: .fragment .dot :: .identifier name ::
      .fragment (.comparison .equal) :: .identifier other :: .fragment .dot :: .identifier column ::
      rest =>
      tablesEnd level outer known (keys ++ [(⟨qualifier, name⟩, ⟨other, column⟩)]) rest
  | .fragment .filtered :: rest => operand .start (⟨level, some (known, keys)⟩ :: outer) rest
  | _ => none

def connective (level : Level) (outer : List Frame) : List Part → Option (Formula Clause)
  | [] => if outer.isEmpty then some level.whole else none
  | .fragment .and :: rest => operand level outer rest
  | .fragment .andLeftParen :: rest => operand .start (⟨level, none⟩ :: outer) rest
  | .fragment .or :: rest => operand level.next outer rest
  | .fragment .rightParen :: rest =>
      match outer with
      | frame :: outer => connective (frame.close level.whole) outer rest
      | [] => none
  | .fragment .rightParenTwice :: rest =>
      match outer with
      | frame :: second :: outer =>
          connective (second.close (frame.close level.whole).whole) outer rest
      | _ => none
  | _ => none

end

def read (parts : List Part) : Option (Formula Clause) :=
  operand .start [] parts

def searchTables (join : Join) : List (String × String) :=
  (join.link.map fun link => (link.table, link.binding)).toList ++ [(join.table, join.binding)]

def searchKeys (join : Join) : List KeyPair :=
  match join.link with
  | some _ => join.keys
  | none => []

def equal (pair : KeyPair) : Formula Clause :=
  .atom (.equal pair.1 pair.2)

end Sql

namespace Condition

def isGroup : Condition → Bool
  | .group _ => true
  | _ => false

mutual

/-- Nothing is empty, and composites join groups. -/
def WellFormed : Condition → Prop
  | .isIn _ values => values ≠ []
  | .someRelated join inner =>
      join.keys ≠ [] ∧ (∀ link ∈ join.link, link.keys ≠ []) ∧ inner.WellFormed
  | .group inner => inner.WellFormed
  | .all parts | .any parts => parts ≠ [] ∧ AllGroups parts
  | _ => True

def AllGroups : List Condition → Prop
  | [] => True
  | part :: rest => (part.isGroup ∧ part.WellFormed) ∧ AllGroups rest

end

theorem WellFormed.correlated {join : Join} {inner : Condition}
    (wellFormed : (Condition.someRelated join inner).WellFormed) : (Sql.related join).2 ≠ [] := by
  obtain ⟨keyed, linked, _⟩ := wellFormed
  cases held : join.link with
  | none => simpa [Sql.related, held] using keyed
  | some link => simpa [Sql.related, held] using linked link held

mutual

/-- What the SQL of a condition says. All that a subquery asks of its rows is one conjunction: the
keys that tie them to the row outside, and the condition. -/
def reading : Condition → Formula Clause
  | .literal value => .atom (.literal value)
  | .compare column comparison value => .atom (.compare column comparison value)
  | .isNull column negated => .atom (.isNull column negated)
  | .isIn column values => .atom (.isIn column values)
  | .like column pattern => .atom (.like column (.text pattern))
  | .someRelated join inner =>
      .atom (.search (Sql.searchTables join) (Sql.searchKeys join)
        (.all ((Sql.related join).2.map Sql.equal ++ [inner.reading])))
  | .group inner => inner.reading
  | .all parts => .chain .and (readings parts)
  | .any parts => .chain .or (readings parts)

def readings : List Condition → List (Formula Clause)
  | [] => []
  | part :: rest => part.reading :: readings rest

end

end Condition

namespace Sql

/-! Levels after several operands. -/

namespace Level

def takeAll (level : Level) (operands : List (Formula Clause)) : Level :=
  operands.foldl take level

def alternatives (level : Level) (operands : List (Formula Clause)) : Level :=
  operands.foldl (fun level operand => level.next.take operand) level

theorem takeAll_eq (level : Level) (operands : List (Formula Clause)) :
    level.takeAll operands = { level with conjuncts := level.conjuncts ++ operands } := by
  induction operands generalizing level with
  | nil => simp [takeAll]
  | cons operand rest ih =>
      have tail := ih (level.take operand)
      rw [takeAll] at tail ⊢
      simpa [take] using tail

theorem whole_take_start (operand : Formula Clause) : (start.take operand).whole = operand := rfl

theorem whole_takeAll_start (operands : List (Formula Clause)) :
    (start.takeAll operands).whole = .chain .and operands := by
  rw [takeAll_eq]
  rfl

theorem whole_takeAll_take {operands : List (Formula Clause)} (last : Formula Clause)
    (several : operands ≠ []) :
    ((start.takeAll operands).take last).whole = .all (operands ++ [last]) := by
  rw [takeAll_eq]
  match operands with
  | [_] | _ :: _ :: _ => rfl

theorem whole_alternatives (level : Level) (operands : List (Formula Clause)) :
    (level.alternatives operands).whole =
      .chain .or (level.disjuncts ++ level.conjunction :: operands) := by
  induction operands generalizing level with
  | nil => rfl
  | cons operand rest ih =>
      have tail := ih (level.next.take operand)
      rw [alternatives] at tail ⊢
      simpa [next, take, conjunction, Formula.chain] using tail

end Level

/-! The parts of columns, keys, lists and tables. -/

section Pieces

variable (level : Level) (outer : List Frame) (rest : List Part)

theorem separated_cons (separator : Fragment) (first : List Part) (others : List (List Part)) :
    separated separator (first :: others) =
      first ++ others.flatMap (fun next => .fragment separator :: next) := by
  induction others generalizing first with
  | nil => simp [separated]
  | cons next others ih => rw [separated, ih, List.flatMap_cons, List.cons_append]

theorem operand_column (tested : ColumnRef) :
    operand level outer (column tested ++ rest) = test level outer tested rest := by
  simp [column, operand]

theorem operand_equality (pair : KeyPair) :
    operand level outer (equality pair ++ rest) =
      connective (level.take (equal pair)) outer rest := by
  rw [equality, List.append_assoc, operand_column]
  simp [column, test, equal]

theorem connective_equalities (pairs : List KeyPair) :
    connective level outer
        ((pairs.map equality).flatMap (fun next => .fragment .and :: next) ++ rest) =
      connective (level.takeAll (pairs.map equal)) outer rest := by
  induction pairs generalizing level with
  | nil => rfl
  | cons pair pairs ih =>
      rw [List.map_cons, List.flatMap_cons, List.append_assoc, List.cons_append, connective,
        operand_equality, ih]
      rfl

theorem operand_equalities {pairs : List KeyPair} (keyed : pairs ≠ []) :
    operand level outer (equalities pairs ++ rest) =
      connective (level.takeAll (pairs.map equal)) outer rest := by
  cases pairs with
  | nil => contradiction
  | cons pair pairs =>
      rw [equalities, List.map_cons, separated_cons, List.append_assoc, operand_equality,
        connective_equalities]
      rfl

theorem items_separated (tested : ColumnRef) (known values : List Value) :
    items level outer tested known
        ((values.map fun value => [.parameter value]).flatMap
          (fun next => .fragment .comma :: next) ++ .fragment .rightParen :: rest) =
      connective (level.take (.atom (.isIn tested (known ++ values)))) outer rest := by
  induction values generalizing known with
  | nil => simp [items]
  | cons value values ih =>
      rw [List.map_cons, List.flatMap_cons, List.append_assoc, List.cons_append, List.cons_append,
        items, List.nil_append, ih, List.append_assoc]
      rfl

variable (known : List (String × String)) (keys : List KeyPair)

theorem tables_table (name binding : String) {fixed : Fragment} (apart : fixed ≠ .named) :
    tables level outer known keys (table name binding ++ .fragment fixed :: rest) =
      tablesEnd level outer (known ++ [(name, binding)]) keys (.fragment fixed :: rest) := by
  unfold table
  split
  · rename_i same
    subst same
    simp [tables, apart]
  · simp [tables]

theorem tablesEnd_equalities (pairs : List KeyPair) :
    tablesEnd level outer known keys
        ((pairs.map equality).flatMap (fun next => .fragment .and :: next) ++ rest) =
      tablesEnd level outer known (keys ++ pairs) rest := by
  induction pairs generalizing keys with
  | nil => simp
  | cons pair pairs ih =>
      have step : tablesEnd level outer known keys (.fragment .and :: equality pair ++
            ((pairs.map equality).flatMap (fun next => .fragment .and :: next) ++ rest)) =
          tablesEnd level outer known (keys ++ [pair])
            ((pairs.map equality).flatMap (fun next => .fragment .and :: next) ++ rest) := by
        simp [equality, column, tablesEnd]
      rw [List.map_cons, List.flatMap_cons, List.append_assoc, step, ih, List.append_assoc]
      rfl

theorem tablesEnd_matching {pairs : List KeyPair} (keyed : pairs ≠ []) :
    tablesEnd level outer known keys (.fragment .matching :: equalities pairs ++ rest) =
      tablesEnd level outer known (keys ++ pairs) rest := by
  cases pairs with
  | nil => contradiction
  | cons pair pairs =>
      have step (rest : List Part) :
          tablesEnd level outer known keys (.fragment .matching :: equality pair ++ rest) =
            tablesEnd level outer known (keys ++ [pair]) rest := by
        simp [equality, column, tablesEnd]
      rw [equalities, List.map_cons, separated_cons, List.cons_append, List.append_assoc,
        ← List.cons_append, step, tablesEnd_equalities, List.append_assoc]
      rfl

theorem tables_related {join : Join} (keyed : join.keys ≠ []) :
    tables level outer [] [] ((related join).1 ++ .fragment .filtered :: rest) =
      operand .start (⟨level, some (searchTables join, searchKeys join)⟩ :: outer) rest := by
  cases linked : join.link with
  | none =>
      simp only [related, searchTables, searchKeys, linked]
      rw [tables_table _ _ _ _ _ _ _ (by decide), tablesEnd]
      rfl
  | some link =>
      simp only [related, searchTables, searchKeys, linked]
      rw [List.append_assoc, innerJoin, List.cons_append, List.cons_append,
        tables_table _ _ _ _ _ _ _ (by decide), tablesEnd, List.append_assoc,
        List.cons_append, tables_table _ _ _ _ _ _ _ (by decide), ← List.cons_append,
        tablesEnd_matching _ _ _ _ _ keyed, tablesEnd]
      rfl

end Pieces

/-! Conditions. -/

def IsOperand (condition : Condition) : Prop :=
  ∀ level outer rest, operand level outer (Sql.condition condition ++ rest) =
    connective (level.take condition.reading) outer rest

def IsInside (condition : Condition) : Prop :=
  ∃ level : Level, level.whole = condition.reading ∧ ∀ outer rest,
    operand .start outer (Sql.condition condition ++ rest) = connective level outer rest

theorem IsOperand.isInside {condition : Condition} (taken : IsOperand condition) :
    IsInside condition :=
  ⟨Level.start.take condition.reading, Level.whole_take_start _, taken .start⟩

theorem isOperand_literal (value : Bool) : IsOperand (.literal value) := by
  intro level outer rest
  cases value <;> simp [Sql.condition, literal, operand, Condition.reading]

theorem isOperand_compare (tested : ColumnRef) (comparison : Comparison) (value : Value) :
    IsOperand (.compare tested comparison value) := by
  intro level outer rest
  rw [Sql.condition, List.append_assoc, operand_column]
  simp [test, Condition.reading]

theorem isOperand_isNull (tested : ColumnRef) (negated : Bool) :
    IsOperand (.isNull tested negated) := by
  intro level outer rest
  cases negated <;> rw [Sql.condition, List.append_assoc, operand_column] <;>
    simp [test, Condition.reading]

theorem isOperand_isIn (tested : ColumnRef) {values : List Value} (listed : values ≠ []) :
    IsOperand (.isIn tested values) := by
  intro level outer rest
  cases values with
  | nil => contradiction
  | cons value values =>
      have parts : Sql.condition (.isIn tested (value :: values)) ++ rest =
          column tested ++ (.fragment .inLeftParen :: .parameter value ::
            ((values.map fun value => [.parameter value]).flatMap
              (fun next => .fragment .comma :: next) ++ .fragment .rightParen :: rest)) := by
        rw [Sql.condition, List.map_cons, separated_cons]
        simp
      rw [parts, operand_column, test, items_separated]
      rfl

theorem isOperand_like (tested : ColumnRef) (pattern : String) :
    IsOperand (.like tested pattern) := by
  intro level outer rest
  rw [Sql.condition, List.append_assoc, operand_column]
  simp [test, Condition.reading]

theorem isOperand_group {inner : Condition} (inside : IsInside inner) :
    IsOperand (.group inner) := by
  intro level outer rest
  obtain ⟨own, whole, reads⟩ := inside
  rw [Sql.condition, List.cons_append, List.cons_append, List.append_assoc, operand, reads,
    List.cons_append, connective, Frame.close, whole, Condition.reading, List.nil_append]

theorem isOperand_someRelated {join : Join} {inner : Condition}
    (wellFormed : (Condition.someRelated join inner).WellFormed) (inside : IsInside inner) :
    IsOperand (.someRelated join inner) := by
  intro level outer rest
  have correlated := wellFormed.correlated
  obtain ⟨keyed, _, _⟩ := wellFormed
  obtain ⟨own, whole, reads⟩ := inside
  have parts : Sql.condition (.someRelated join inner) ++ rest =
      .fragment .existsOpen :: ((related join).1 ++ .fragment .filtered ::
        (equalities (related join).2 ++ .fragment .andLeftParen ::
          (Sql.condition inner ++ .fragment .rightParenTwice :: rest))) := by
    simp [Sql.condition]
  rw [parts, operand, tables_related _ _ _ keyed, operand_equalities _ _ _ correlated, connective,
    reads, connective, Frame.close, Frame.close, whole,
    Level.whole_takeAll_take _ (by simpa using correlated), Condition.reading]

section Chains

variable (level : Level) (outer : List Frame) (rest : List Part)

theorem connective_and {parts : List Condition} (taken : ∀ part ∈ parts, IsOperand part) :
    connective level outer (conditionsAfter .and parts ++ rest) =
      connective (level.takeAll (Condition.readings parts)) outer rest := by
  induction parts generalizing level with
  | nil => rfl
  | cons part parts ih =>
      obtain ⟨here, later⟩ := List.forall_mem_cons.mp taken
      rw [conditionsAfter, List.cons_append, List.cons_append, List.append_assoc, connective, here,
        ih _ later]
      rfl

theorem connective_or {parts : List Condition} (taken : ∀ part ∈ parts, IsOperand part) :
    connective level outer (conditionsAfter .or parts ++ rest) =
      connective (level.alternatives (Condition.readings parts)) outer rest := by
  induction parts generalizing level with
  | nil => rfl
  | cons part parts ih =>
      obtain ⟨here, later⟩ := List.forall_mem_cons.mp taken
      rw [conditionsAfter, List.cons_append, List.cons_append, List.append_assoc, connective, here,
        ih _ later]
      rfl

end Chains

theorem isInside_all {first : Condition} {rest : List Condition}
    (taken : ∀ part ∈ first :: rest, IsOperand part) : IsInside (.all (first :: rest)) := by
  obtain ⟨here, later⟩ := List.forall_mem_cons.mp taken
  refine ⟨(Level.start.take first.reading).takeAll (Condition.readings rest), ?_, ?_⟩
  · exact Level.whole_takeAll_start (Condition.readings (first :: rest))
  · intro outer more
    rw [Sql.condition, List.append_assoc, here, connective_and _ _ _ later]

theorem isInside_any {first : Condition} {rest : List Condition}
    (taken : ∀ part ∈ first :: rest, IsOperand part) : IsInside (.any (first :: rest)) := by
  obtain ⟨here, later⟩ := List.forall_mem_cons.mp taken
  refine ⟨(Level.start.take first.reading).alternatives (Condition.readings rest), ?_, ?_⟩
  · rw [Level.whole_alternatives]
    rfl
  · intro outer more
    rw [Sql.condition, List.append_assoc, here, connective_or _ _ _ later]

mutual

theorem isInside_of_wellFormed : (condition : Condition) → condition.WellFormed → IsInside condition
  | .literal value, _ => (isOperand_literal value).isInside
  | .compare column comparison value, _ => (isOperand_compare column comparison value).isInside
  | .isNull column negated, _ => (isOperand_isNull column negated).isInside
  | .isIn column _, listed => (isOperand_isIn column listed).isInside
  | .like column pattern, _ => (isOperand_like column pattern).isInside
  | .someRelated _ inner, wellFormed =>
      (isOperand_someRelated wellFormed (isInside_of_wellFormed inner wellFormed.2.2)).isInside
  | .group inner, inside => (isOperand_group (isInside_of_wellFormed inner inside)).isInside
  | .all [], ⟨empty, _⟩ => absurd rfl empty
  | .any [], ⟨empty, _⟩ => absurd rfl empty
  | .all (first :: rest), ⟨_, groups⟩ => isInside_all (isOperand_of_groups (first :: rest) groups)
  | .any (first :: rest), ⟨_, groups⟩ => isInside_any (isOperand_of_groups (first :: rest) groups)

theorem isOperand_of_groups : (parts : List Condition) → Condition.AllGroups parts →
    ∀ part ∈ parts, IsOperand part
  | [], _ => List.forall_mem_nil _
  | .group inner :: rest, ⟨⟨_, inside⟩, groups⟩ =>
      List.forall_mem_cons.mpr
        ⟨isOperand_group (isInside_of_wellFormed inner inside), isOperand_of_groups rest groups⟩

end

theorem read_condition {condition : Condition} (wellFormed : condition.WellFormed) :
    read (Sql.condition condition) = some condition.reading := by
  obtain ⟨level, whole, reads⟩ := isInside_of_wellFormed condition wellFormed
  have all := reads [] []
  rw [List.append_nil] at all
  rw [read, all, connective, whole]
  rfl

-- Without parentheses the conjunction is formed first, on either side of the disjunction.
example (a b c : ColumnRef) :
    read (column a ++ [.fragment .isNull, .fragment .or] ++ column b ++
      [.fragment .isNull, .fragment .and] ++ column c ++ [.fragment .isNull]) =
    some (.any [.atom (.isNull a false),
      .all [.atom (.isNull b false), .atom (.isNull c false)]]) :=
  rfl

end Sql

end FilterQuery
