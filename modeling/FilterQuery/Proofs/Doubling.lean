import FilterQuery.Proofs.Database
import Mathlib.Data.List.Flatten
import Mathlib.Data.List.Nodup

/-!
Tables that hold a row several times. Main statements: a condition does not see how often a row is
there, and a query whose joins go through a link table finds a row twice once the link table holds
its rows twice.
-/

namespace FilterQuery

variable {Content : Type} [DecidableEq Content]

omit [DecidableEq Content] in
/-- The tables hold the same rows, however often. -/
def Database.SameRows (first second : Database Content) : Prop :=
  ∀ table row, row ∈ first table ↔ row ∈ second table

section SameRows

variable {first second : Database Content}

theorem Database.SameRows.mem_bound (same : first.SameRows second) (table name : String)
    (keys : List KeyPair) (bindings found : Bindings Content) :
    found ∈ first.bound table name keys bindings ↔
      found ∈ second.bound table name keys bindings := by
  simp only [Database.mem_bound, same table _]

theorem Join.mem_extend_congr (same : first.SameRows second) (join : Join)
    (bindings found : Bindings Content) :
    found ∈ join.extend first bindings ↔ found ∈ join.extend second bindings := by
  unfold extend
  cases join.link with
  | none => exact same.mem_bound _ _ _ _ _
  | some link => simp only [List.mem_flatMap, same.mem_bound]

theorem Join.mem_search_congr (same : first.SameRows second) (join : Join)
    (bindings found : Bindings Content) :
    found ∈ join.search first bindings ↔ found ∈ join.search second bindings := by
  unfold search
  cases join.link with
  | none => exact same.mem_bound _ _ _ _ _
  | some link => simp only [List.mem_filter, List.mem_flatMap, same.mem_bound]

namespace Condition

mutual

theorem truth_congr (same : first.SameRows second) (store : Store Content) :
    (condition : Condition) → ∀ bindings,
      condition.truth store first bindings = condition.truth store second bindings
  | .literal _, _ => rfl
  | .compare _ _ _, _ => rfl
  | .isNull _ _, _ => rfl
  | .isIn _ _, _ => rfl
  | .like _ _, _ => rfl
  | .someRelated join inner, bindings => by
      have sameInner := truth_congr same store inner
      simp only [truth, sameInner]
      congr 1
      rw [Bool.eq_iff_iff]
      simp only [List.any_eq_true, Join.mem_search_congr same]
  | .group inner, bindings => truth_congr same store inner bindings
  | .all parts, bindings => by rw [truth, truth, truths_congr same store parts]
  | .any parts, bindings => by rw [truth, truth, truths_congr same store parts]

theorem truths_congr (same : first.SameRows second) (store : Store Content) :
    (parts : List Condition) → ∀ bindings,
      truths store first parts bindings = truths store second parts bindings
  | [], _ => rfl
  | part :: rest, bindings => by
      rw [truths, truths, truth_congr same store part, truths_congr same store rest]

end

end Condition

theorem QueryPlan.keeps_congr (same : first.SameRows second) (store : Store Content)
    (plan : QueryPlan) (bindings : Bindings Content) :
    plan.keeps store first bindings = plan.keeps store second bindings := by
  unfold keeps
  cases plan.condition with
  | none => rfl
  | some condition => simp only [condition.truth_congr same store]

end SameRows

omit [DecidableEq Content] in
def Database.doubled (database : Database Content) (table : String) : Database Content :=
  fun asked => if asked = table then database asked ++ database asked else database asked

namespace Database

variable (database : Database Content)

omit [DecidableEq Content] in
theorem sameRows_doubled (table : String) : database.SameRows (database.doubled table) := by
  intro asked row
  unfold doubled
  split <;> simp

omit [DecidableEq Content] in
theorem doubled_other {table asked : String} (different : asked ≠ table) :
    database.doubled table asked = database asked :=
  if_neg different

theorem bound_doubled (table name : String) (keys : List KeyPair) (bindings : Bindings Content) :
    (database.doubled table).bound table name keys bindings =
      database.bound table name keys bindings ++ database.bound table name keys bindings := by
  simp [bound, doubled]

end Database

variable {database : Database Content}

namespace Join

theorem extend_twice {join : Join} {link : LinkHop} (linked : join.link = some link)
    {bindings found : Bindings Content} (member : found ∈ join.extend database bindings) :
    [found, found].Sublist (join.extend (database.doubled link.table) bindings) := by
  simp only [extend, linked, List.mem_flatMap] at member ⊢
  obtain ⟨middle, throughLink, toRelated⟩ := member
  have inDoubled := ((database.sameRows_doubled link.table).mem_bound _ _ _ _ _).mp toRelated
  rw [Database.bound_doubled, List.flatMap_append]
  have once : [found].Sublist ((database.bound link.table link.binding link.keys bindings).flatMap
      ((database.doubled link.table).bound join.table join.binding join.keys)) :=
    List.singleton_sublist.mpr (List.mem_flatMap.mpr ⟨middle, throughLink, inDoubled⟩)
  exact once.append once

theorem extendAll_twice {joins : List Join} {join : Join} (held : join ∈ joins) {link : LinkHop}
    (linked : join.link = some link) {bindings found : Bindings Content}
    (member : found ∈ extendAll database joins bindings) :
    [found, found].Sublist (extendAll (database.doubled link.table) joins bindings) := by
  have same := database.sameRows_doubled link.table
  have extendAll_same (joins : List Join) (bindings found : Bindings Content) :
      found ∈ extendAll database joins bindings ↔
        found ∈ extendAll (database.doubled link.table) joins bindings := by
    induction joins generalizing bindings with
    | nil => rfl
    | cons join rest ih => simp only [extendAll, List.mem_flatMap, mem_extend_congr same, ih]
  induction joins generalizing bindings with
  | nil => cases held
  | cons first rest ih =>
      rw [extendAll, List.mem_flatMap] at member
      obtain ⟨middle, extended, inRest⟩ := member
      rw [extendAll]
      rcases List.mem_cons.mp held with rfl | later
      · have once := List.singleton_sublist.mpr ((extendAll_same rest middle found).mp inRest)
        have spread := (extend_twice linked extended).flatMap
          (extendAll (database.doubled link.table) rest)
        simp only [List.flatMap_cons, List.flatMap_nil, List.append_nil] at spread
        exact (once.append once).trans spread
      · have once := List.singleton_sublist.mpr ((mem_extend_congr same _ _ _).mp extended)
        have spread := once.flatMap (extendAll (database.doubled link.table) rest)
        rw [List.flatMap_singleton] at spread
        exact (ih later inRest).trans spread

end Join

theorem QueryPlan.found_twice {plan : QueryPlan} {join : Join} (held : join ∈ plan.joins)
    {link : LinkHop} (linked : join.link = some link) {store : Store Content} {row : Row Content}
    (member : row ∈ plan.found store database) :
    [row, row].Sublist (plan.found store (database.doubled link.table)) := by
  have same := database.sameRows_doubled link.table
  unfold found at member ⊢
  split at member
  · rename_i named
    rw [if_pos named]
    obtain ⟨base, inTable, inMap⟩ := List.mem_flatMap.mp member
    obtain ⟨found, kept, rfl⟩ := List.mem_map.mp inMap
    obtain ⟨extended, holds⟩ := List.mem_filter.mp kept
    have twice := ((Join.extendAll_twice held linked extended).filter
      (plan.keeps store (database.doubled link.table))).map (· plan.binding)
    rw [keeps_congr same] at holds
    simp only [List.filter_cons, holds, if_true, List.filter_nil, List.map_cons, List.map_nil]
      at twice
    apply twice.trans
    have once := List.singleton_sublist.mpr ((same plan.table base).mp inTable)
    have spread := once.flatMap fun row =>
      ((Join.extendAll (database.doubled link.table) plan.joins
        (Bindings.unbound.bind plan.binding row)).filter
          (plan.keeps store (database.doubled link.table))).map (· plan.binding)
    rwa [List.flatMap_singleton] at spread
  · cases member

end FilterQuery
