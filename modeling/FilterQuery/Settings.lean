import FilterQuery.Filter
import FilterQuery.JoinPlan
import FilterQuery.Sql.Part

/-!
What stays the same from request to request.
-/

namespace FilterQuery

structure Settings where
  joinScope : JoinScope := .conditionGroup
  /-- The group of a condition that names none. -/
  defaultGroup : String := FilterQuery.defaultGroup
  dialect : Dialect := .postgresql
  /-- Used for a request that brings no map of its own. -/
  names : PropertyMap := .empty
  deriving Repr

end FilterQuery
