import FilterQuery.Proofs.Placeholders
import FilterQuery.Proofs.SqlTokens

/-!
The tokens of a statement. Its parts are texts of their own, and nothing between two of them says
where the one ends; but they always meet where a token ends. Main statement: the text of a plan is
split into the tokens of its parts, in turn, except that a name comes back as a keyword when it is
one that nothing guards.
-/

namespace FilterQuery

namespace Sql

/-- The tokens of parts, the first placeholder among them having the given number, when names become
tokens as stated. Verbatim text has none: it is not known what its caller means by it. -/
def tokensFrom (called : String → Token) (dialect : Dialect) : Nat → List Part → List Token
  | _, [] => []
  | next, .parameter _ :: rest =>
      .placeholder (String.ofList (dialect.placeholder next)) ::
        tokensFrom called dialect (next + 1) rest
  | next, .fragment fixed :: rest => fixed.tokens ++ tokensFrom called dialect next rest
  | next, .identifier name :: rest => called name :: tokensFrom called dialect next rest
  | next, .verbatim _ :: rest => tokensFrom called dialect next rest

section Appending

variable (called : String → Token) (dialect : Dialect) (next : Nat) (first second : List Part)

theorem textFrom_append :
    textFrom dialect next (first ++ second) =
      textFrom dialect next first ++
        textFrom dialect (next + (parameters first).length) second := by
  induction first generalizing next with
  | nil => rfl
  | cons part rest ih =>
      cases part <;> simp [textFrom, ih, Nat.add_assoc, Nat.add_comm 1]

theorem tokensFrom_append :
    tokensFrom called dialect next (first ++ second) =
      tokensFrom called dialect next first ++
        tokensFrom called dialect (next + (parameters first).length) second := by
  induction first generalizing next with
  | nil => rfl
  | cons part rest ih =>
      cases part <;> simp [tokensFrom, ih, Nat.add_assoc, Nat.add_comm 1]

end Appending

/-- Before a text where every token has ended, the parts are split into their tokens. -/
def Lexed (parts : List Part) : Prop :=
  ∀ dialect next rest, StartsApart rest →
    lex (textFrom dialect next parts ++ rest) =
      (lex rest).map (tokensFrom .ofIdentifier dialect next parts ++ ·)

structure Follows (parts : List Part) : Prop where
  lexed : Lexed parts
  startsApart : ∀ dialect next, StartsApart (textFrom dialect next parts)

theorem startsApart_append {first second : List Char} (apart : StartsApart first)
    (more : StartsApart second) :
    StartsApart (first ++ second) := by
  cases first with
  | nil => exact more
  | cons char rest => exact apart

theorem Lexed.append {first second : List Part} (lexed : Lexed first) (follows : Follows second) :
    Lexed (first ++ second) := by
  intro dialect next rest apart
  rw [textFrom_append, tokensFrom_append, List.append_assoc,
    lexed _ _ _ (startsApart_append (follows.startsApart _ _) apart), follows.lexed _ _ _ apart,
    Option.map_map]
  simp only [Function.comp_def, List.append_assoc]

theorem lexed_nil : Lexed [] := by
  intro dialect next rest _
  simp [textFrom, tokensFrom]

theorem Follows.nil : Follows [] where
  lexed := lexed_nil
  startsApart _ _ := by simp [StartsApart, textFrom]

theorem Follows.append {first second : List Part} (follows : Follows first)
    (more : Follows second) :
    Follows (first ++ second) where
  lexed := follows.lexed.append more
  startsApart dialect next := by
    rw [textFrom_append]
    exact startsApart_append (follows.startsApart _ _) (more.startsApart _ _)

theorem lexed_identifier (name : String) : Lexed [.identifier name] := by
  intro dialect next rest apart
  rw [textFrom, textFrom, List.append_nil]
  exact lex_append_of_startsApart (lex_identifier name) apart

theorem lexed_parameter (value : Value) : Lexed [.parameter value] := by
  intro dialect next rest apart
  rw [textFrom, textFrom, List.append_nil]
  exact lex_append_of_startsApart (lex_placeholder dialect next) apart

theorem lexed_fragment (fixed : Fragment) : Lexed [.fragment fixed] := by
  intro dialect next rest apart
  rw [textFrom, textFrom, List.append_nil, tokensFrom, tokensFrom, List.append_nil]
  exact lex_append_of_startsApart (lex_fragment fixed) apart

def Fragment.Starts (fixed : Fragment) : Prop :=
  fixed.text.toList.head?.any isBreak = true

def Fragment.Ends (fixed : Fragment) : Prop :=
  EndsApart fixed.text.toList

section Fixed

variable (fixed : Fragment) {parts : List Part}

theorem Lexed.after (lexed : Lexed parts) (ends : fixed.Ends) :
    Lexed (.fragment fixed :: parts) := by
  intro dialect next rest apart
  rw [textFrom, tokensFrom, List.append_assoc, lex_append_of_endsApart (lex_fragment fixed) ends,
    lexed _ _ _ apart, Option.map_map]
  simp only [Function.comp_def, List.append_assoc]

theorem Lexed.follows (lexed : Lexed (.fragment fixed :: parts)) (starts : fixed.Starts) :
    Follows (.fragment fixed :: parts) where
  lexed := lexed
  startsApart dialect next char held := by
    obtain ⟨first, head, breaks⟩ := (Option.any_eq_true _ _).mp starts
    rw [textFrom, List.head?_append, head] at held
    cases held
    exact breaks

theorem Lexed.between (lexed : Lexed parts) (starts : fixed.Starts) (ends : fixed.Ends) :
    Follows (.fragment fixed :: parts) :=
  (lexed.after fixed ends).follows fixed starts

theorem Lexed.closed (lexed : Lexed parts) (starts : fixed.Starts) :
    Lexed (parts ++ [.fragment fixed]) :=
  lexed.append ((lexed_fragment fixed).follows fixed starts)

end Fixed

/-! Phrases. -/

theorem lexed_column (tested : ColumnRef) : Lexed (column tested) :=
  (lexed_identifier tested.qualifier).append ((lexed_identifier tested.column).between .dot rfl rfl)

theorem lexed_table (name binding : String) : Lexed (table name binding) := by
  unfold table
  split
  · exact lexed_identifier name
  · exact (lexed_identifier name).append ((lexed_identifier binding).between .named rfl rfl)

-- What is compared with may be a value or another column.
theorem lexed_comparison (tested : ColumnRef) (comparison : Comparison) {parts : List Part}
    (lexed : Lexed parts) :
    Lexed (column tested ++ .fragment (.comparison comparison) :: parts) := by
  refine (lexed_column tested).append (lexed.between (.comparison comparison) ?_ ?_) <;>
    cases comparison <;> rfl

theorem lexed_separated (separator : Fragment) (starts : separator.Starts) (ends : separator.Ends)
    {pieces : List (List Part)} (lexed : ∀ piece ∈ pieces, Lexed piece) :
    Lexed (separated separator pieces) := by
  induction pieces using separated.induct with
  | case1 => exact lexed_nil
  | case2 first => exact lexed first List.mem_cons_self
  | case3 first next rest ih =>
      obtain ⟨here, later⟩ := List.forall_mem_cons.mp lexed
      exact here.append ((ih later).between separator starts ends)

theorem lexed_equalities (pairs : List KeyPair) : Lexed (equalities pairs) := by
  refine lexed_separated .and rfl rfl (List.forall_mem_map.mpr fun pair _ => ?_)
  exact lexed_comparison pair.1 .equal (lexed_column pair.2)

theorem follows_innerJoin (name binding : String) (keys : List KeyPair) :
    Follows (innerJoin name binding keys) := by
  have tied := (lexed_equalities keys).between .matching rfl rfl
  exact ((lexed_table name binding).append tied).between .innerJoin rfl rfl

theorem follows_join (join : Join) : Follows (Sql.join join) := by
  have target := follows_innerJoin join.table join.binding join.keys
  unfold Sql.join
  cases join.link with
  | none => exact target
  | some link => exact (follows_innerJoin link.table link.binding link.keys).append target

theorem lexed_related (join : Join) : Lexed (related join).1 := by
  unfold related
  cases join.link with
  | none => exact lexed_table join.table join.binding
  | some link =>
      exact (lexed_table link.table link.binding).append
        (follows_innerJoin join.table join.binding join.keys)

theorem lexed_literal (value : Bool) : Lexed (literal value) := by
  cases value <;> exact lexed_fragment _

theorem lexed_isIn (tested : ColumnRef) (values : List Value) :
    Lexed (condition (.isIn tested values)) := by
  have items : Lexed (separated .comma (values.map fun value => [.parameter value])) :=
    lexed_separated .comma rfl rfl (List.forall_mem_map.mpr fun value _ => lexed_parameter value)
  have listed := (lexed_column tested).append (items.between .inLeftParen rfl rfl)
  exact listed.closed .rightParen rfl

theorem lexed_someRelated (join : Join) {inner : Condition} (lexed : Lexed (condition inner)) :
    Lexed (condition (.someRelated join inner)) := by
  have asked := (lexed_equalities (related join).2).append (lexed.between .andLeftParen rfl rfl)
  have search := (lexed_related join).append (asked.between .filtered rfl rfl)
  simpa [condition] using (search.closed .rightParenTwice rfl).after .existsOpen rfl

mutual

theorem lexed_condition : (condition : Condition) → Lexed (Sql.condition condition)
  | .literal value => lexed_literal value
  | .compare tested comparison value => lexed_comparison tested comparison (lexed_parameter value)
  | .isNull tested false => (lexed_column tested).closed .isNull rfl
  | .isNull tested true => (lexed_column tested).closed .isNotNull rfl
  | .isIn tested values => lexed_isIn tested values
  | .like tested pattern =>
      (lexed_column tested).append ((lexed_parameter (.text pattern)).between .like rfl rfl)
  | .someRelated join inner => lexed_someRelated join (lexed_condition inner)
  | .group inner => ((lexed_condition inner).after .leftParen rfl).closed .rightParen rfl
  | .all [] => lexed_literal true
  | .all (first :: rest) =>
      (lexed_condition first).append (follows_conditionsAfter .and rfl rfl rest)
  | .any [] => lexed_literal false
  | .any (first :: rest) =>
      (lexed_condition first).append (follows_conditionsAfter .or rfl rfl rest)

theorem follows_conditionsAfter (connective : Fragment) (starts : connective.Starts)
    (ends : connective.Ends) :
    (conditions : List Condition) → Follows (conditionsAfter connective conditions)
  | [] => .nil
  | next :: rest =>
      ((lexed_condition next).append (follows_conditionsAfter connective starts ends rest)).between
        connective starts ends

end

theorem tokensFrom_eq_iff {called : String → Token} {dialect : Dialect} {next : Nat}
    {parts : List Part} :
    tokensFrom called dialect next parts = tokensFrom .name dialect next parts ↔
      ∀ name, .identifier name ∈ parts → called name = .name name := by
  induction parts generalizing next with
  | nil => simp [tokensFrom]
  | cons part rest ih => cases part <;> simp [tokensFrom, ih]

end Sql

namespace QueryPlan

theorem follows_orderParts (clauses : List OrderClause) : Sql.Follows (orderParts clauses) := by
  cases clauses with
  | nil => exact .nil
  | cons clause rest =>
      refine Sql.Lexed.between .orderBy (Sql.lexed_separated .comma rfl rfl ?_) rfl rfl
      refine List.forall_mem_map.mpr fun clause _ => ?_
      exact (Sql.lexed_column clause.column).append
        ((Sql.lexed_fragment (.direction clause.order)).between .space rfl rfl)

theorem lexed_parts (plan : QueryPlan) : Sql.Lexed plan.parts := by
  -- Joins, condition and order each follow what is there before them, or are not there at all.
  have root := (Sql.lexed_identifier plan.binding).append
    ((Sql.lexed_table plan.table plan.binding).between .allColumnsFrom rfl rfl)
  have joined : Sql.Follows (plan.joins.flatMap Sql.join) := by
    induction plan.joins with
    | nil => exact .nil
    | cons join rest ih => exact (Sql.follows_join join).append ih
  refine ((Sql.Lexed.append ?_ joined).append ?_).append (follows_orderParts plan.orderBy)
  · cases plan.distinct with
    | false => exact root.after .select rfl
    | true => exact (root.after .distinct rfl).after .select rfl
  · cases plan.condition with
    | none => exact .nil
    | some condition => exact (Sql.lexed_condition condition).between .filtered rfl rfl

def tokens (plan : QueryPlan) (called : String → Sql.Token) (dialect : Dialect) : List Sql.Token :=
  Sql.tokensFrom called dialect 1 plan.parts

theorem lex_sql (plan : QueryPlan) (dialect : Dialect) :
    Sql.lex (plan.sql dialect).toList = some (plan.tokens .ofIdentifier dialect) := by
  have whole := plan.lexed_parts dialect 1 [] (by simp [Sql.StartsApart])
  simpa [sql, Sql.text, tokens, Sql.lex, Sql.lexFrom, Sql.Unfinished.finish] using whole

/-- The text of a plan is split into the tokens of its parts, in turn. A name among them comes back
as a keyword when it is one that nothing guards; so each name comes back just when none is `by`,
`asc` or `desc`. -/
theorem lexed_iff (plan : QueryPlan) (dialect : Dialect) :
    Sql.lex (plan.sql dialect).toList = some (plan.tokens .ofIdentifier dialect) ∧
      (Sql.lex (plan.sql dialect).toList = some (plan.tokens .name dialect) ↔
        ∀ name, .identifier name ∈ plan.parts → Sql.lower name.toList ∉ ["by", "asc", "desc"]) := by
  refine ⟨plan.lex_sql dialect, ?_⟩
  rw [lex_sql, Option.some.injEq, tokens, tokens, Sql.tokensFrom_eq_iff]
  simp only [Sql.ofIdentifier_eq_name_iff, Sql.unguarded]

/-- A table that is called as a direction is. Its name stands in the statement by itself, and is
read as the keyword. -/
theorem direction_for_table :
    ∃ plan, (Assembler.mk (.ofEntities [Entity.new "Pet" "desc"]) {}).assemble "Pet" {} = .ok plan ∧
      plan.sql .sqlite = "SELECT desc.* FROM desc" ∧
        plan.tokens .name .sqlite =
          [.keyword "select", .name "desc", .symbol ".", .symbol "*", .keyword "from",
            .name "desc"] ∧
        Sql.lex (plan.sql .sqlite).toList =
          some [.keyword "select", .keyword "desc", .symbol ".", .symbol "*", .keyword "from",
            .keyword "desc"] :=
  ⟨_, rfl, rfl, rfl, by decide⟩

end QueryPlan

end FilterQuery
