import FilterQuery.Proofs.Database

/-!
And/or formulas over atoms of any kind, with three truth values. An assignment gives a truth to each
place where an atom stands, so two formulas can be compared whatever their atoms are. Main
statement: formulas with parts that agree agree, also when one of them leaves out a connective that
joins nothing.
-/

namespace FilterQuery

namespace Truth

theorem all_singleton (truth : Truth) : all [truth] = truth := by
  cases truth <;> rfl

theorem any_singleton (truth : Truth) : any [truth] = truth := by
  cases truth <;> rfl

end Truth

inductive Formula (Atom : Type) where
  | atom (content : Atom)
  | all (parts : List (Formula Atom))
  | any (parts : List (Formula Atom))

namespace Formula

variable {Atom Other : Type}

def combine : Combinator → List (Formula Atom) → Formula Atom
  | .and, parts => .all parts
  | .or, parts => .any parts

/-- Some parts with a connective between them; a single part needs none. -/
def chain (combinator : Combinator) : List (Formula Atom) → Formula Atom
  | [only] => only
  | parts => combine combinator parts

mutual

def atoms : Formula Atom → List Atom
  | .atom single => [single]
  | .all parts | .any parts => atomsOfAll parts

def atomsOfAll : List (Formula Atom) → List Atom
  | [] => []
  | part :: rest => part.atoms ++ atomsOfAll rest

end

mutual

def value (assigned : Nat → Truth) (place : Nat) : Formula Atom → Truth
  | .atom _ => assigned place
  | .all parts => .all (values assigned place parts)
  | .any parts => .any (values assigned place parts)

def values (assigned : Nat → Truth) (place : Nat) : List (Formula Atom) → List Truth
  | [] => []
  | part :: rest =>
      part.value assigned place :: values assigned (place + part.atoms.length) rest

end

def combined : Combinator → List Truth → Truth
  | .and, truths => .all truths
  | .or, truths => .any truths

theorem value_combine (combinator : Combinator) (parts : List (Formula Atom))
    (assigned : Nat → Truth) (place : Nat) :
    (combine combinator parts).value assigned place =
      combined combinator (values assigned place parts) := by
  cases combinator <;> rw [combine, value, combined]

theorem atoms_combine (combinator : Combinator) (parts : List (Formula Atom)) :
    (combine combinator parts).atoms = atomsOfAll parts := by
  cases combinator <;> rw [combine, atoms]

theorem value_chain (combinator : Combinator) (parts : List (Formula Atom))
    (assigned : Nat → Truth) (place : Nat) :
    (chain combinator parts).value assigned place =
      combined combinator (values assigned place parts) := by
  match parts with
  | [] | _ :: _ :: _ => exact value_combine combinator _ assigned place
  | [only] =>
      cases combinator
      · exact (Truth.all_singleton _).symm
      · exact (Truth.any_singleton _).symm

theorem atoms_chain (combinator : Combinator) (parts : List (Formula Atom)) :
    (chain combinator parts).atoms = atomsOfAll parts := by
  match parts with
  | [] | _ :: _ :: _ => exact atoms_combine combinator _
  | [only] => simp [chain, atomsOfAll]

theorem exists_of_forall₂ {related : Atom → Other → Prop} {first : List Atom} {second : List Other}
    (same : List.Forall₂ related first second) {other : Other} (held : other ∈ second) :
    ∃ own ∈ first, related own other := by
  obtain ⟨⟨index, inSecond⟩, rfl⟩ := List.get_of_mem held
  have inFirst : index < first.length := by rwa [same.length_eq]
  exact ⟨first.get ⟨index, inFirst⟩, List.get_mem _ _, same.get inFirst inSecond⟩

/-- The atoms of two formulas are related place by place, and the formulas are true together. -/
structure Agrees (related : Atom → Other → Prop) (first : Formula Atom) (second : Formula Other) :
    Prop where
  atoms : List.Forall₂ related first.atoms second.atoms
  value : ∀ assigned place, first.value assigned place = second.value assigned place

namespace Agrees

variable {related : Atom → Other → Prop}

theorem ofAtom {first : Atom} {second : Other} (held : related first second) :
    Agrees related (.atom first) (.atom second) :=
  ⟨.cons held .nil, fun _ _ => rfl⟩

theorem atomsOfAll {first : List (Formula Atom)} {second : List (Formula Other)}
    (agree : List.Forall₂ (Agrees related) first second) :
    List.Forall₂ related (Formula.atomsOfAll first) (Formula.atomsOfAll second) := by
  induction agree with
  | nil => exact .nil
  | cons head _ ih => exact List.rel_append head.atoms ih

theorem values {first : List (Formula Atom)} {second : List (Formula Other)}
    (agree : List.Forall₂ (Agrees related) first second) (assigned : Nat → Truth) (place : Nat) :
    Formula.values assigned place first = Formula.values assigned place second := by
  induction agree generalizing place with
  | nil => rfl
  | cons head _ ih =>
      rw [Formula.values, Formula.values, head.value, head.atoms.length_eq, ih]

theorem combine {first : List (Formula Atom)} {second : List (Formula Other)}
    (agree : List.Forall₂ (Agrees related) first second) (combinator : Combinator) :
    Agrees related (.combine combinator first) (.combine combinator second) where
  atoms := by
    rw [atoms_combine, atoms_combine]
    exact atomsOfAll agree
  value assigned place := by
    rw [value_combine, value_combine, values agree]

theorem exists_of_mem {first : Formula Atom} {second : Formula Other}
    (agree : Agrees related first second) {other : Other} (held : other ∈ second.atoms) :
    ∃ own ∈ first.atoms, related own other :=
  exists_of_forall₂ agree.atoms held

theorem chain {first : List (Formula Atom)} {second : List (Formula Other)}
    (agree : List.Forall₂ (Agrees related) first second) (combinator : Combinator) :
    Agrees related (.combine combinator first) (.chain combinator second) where
  atoms := by
    rw [atoms_combine, atoms_chain]
    exact atomsOfAll agree
  value assigned place := by
    rw [value_combine, value_chain, values agree]

end Agrees

end Formula

/-! Filter trees and conditions as formulas. -/

namespace Node

mutual

def formula : Node → Formula Leaf
  | .leaf condition => .atom condition
  | .composite combinator first rest => .combine combinator (first.formula :: formulas rest)

def formulas : List Node → List (Formula Leaf)
  | [] => []
  | node :: rest => node.formula :: formulas rest

end

mutual

theorem atoms_formula : (node : Node) → node.formula.atoms = node.leaves
  | .leaf _ => rfl
  | .composite combinator first rest => by
      rw [formula, Formula.atoms_combine, Formula.atomsOfAll, atoms_formula first,
        atoms_formulas rest, leaves]

theorem atoms_formulas : (nodes : List Node) →
    Formula.atomsOfAll (formulas nodes) = leavesOfAll nodes
  | [] => rfl
  | node :: rest => by
      rw [formulas, Formula.atomsOfAll, atoms_formula node, atoms_formulas rest, leavesOfAll]

end

end Node

namespace Condition

mutual

/-- What a condition says of those below it that no connective stands in. A group says what is in
it. -/
def formula : Condition → Formula Condition
  | .group inner => inner.formula
  | .all parts => .all (formulas parts)
  | .any parts => .any (formulas parts)
  | atomic => .atom atomic

def formulas : List Condition → List (Formula Condition)
  | [] => []
  | part :: rest => part.formula :: formulas rest

end

theorem formulas_eq_map (parts : List Condition) : formulas parts = parts.map formula := by
  induction parts with
  | nil => rfl
  | cons part rest ih => rw [formulas, ih, List.map_cons]

theorem formula_combine (combinator : Combinator) (parts : List Condition) :
    (Planned.combine combinator parts).formula = .combine combinator (parts.map formula) := by
  cases combinator <;> simp [Planned.combine, formula, formulas_eq_map, Formula.combine]

section Truth

variable {Content : Type} [DecidableEq Content] {store : Store Content}
  {database : Database Content} {bindings : Bindings Content} {assigned : Nat → Truth}

mutual

theorem truth_eq_value : (condition : Condition) → ∀ {place : Nat},
    (∀ index atom, condition.formula.atoms[index]? = some atom →
      assigned (place + index) = atom.truth store database bindings) →
    condition.truth store database bindings = condition.formula.value assigned place
  | .literal _, _, given | .compare .., _, given | .isNull .., _, given | .isIn .., _, given
  | .like .., _, given | .someRelated .., _, given => by
      rw [formula, Formula.value]
      · exact (given 0 _ rfl).symm
      all_goals simp
  | .group inner, place, given => by
      rw [formula] at given ⊢
      rw [Condition.truth]
      exact truth_eq_value inner given
  | .all parts, place, given => by
      rw [formula, Formula.atoms] at given
      rw [formula, Formula.value, Condition.truth, truths_eq_values parts given]
  | .any parts, place, given => by
      rw [formula, Formula.atoms] at given
      rw [formula, Formula.value, Condition.truth, truths_eq_values parts given]

theorem truths_eq_values : (parts : List Condition) → ∀ {place : Nat},
    (∀ index atom, (Formula.atomsOfAll (formulas parts))[index]? = some atom →
      assigned (place + index) = atom.truth store database bindings) →
    truths store database parts bindings = Formula.values assigned place (formulas parts)
  | [], _, _ => rfl
  | part :: rest, place, given => by
      rw [formulas, Formula.atomsOfAll] at given
      rw [truths, formulas, Formula.values]
      congr 1
      · apply truth_eq_value part
        intro index atom held
        have inside : index < part.formula.atoms.length := (List.getElem?_eq_some_iff.mp held).1
        exact given index atom (by rwa [List.getElem?_append_left inside])
      · apply truths_eq_values rest
        intro index atom held
        rw [Nat.add_assoc]
        apply given
        rwa [List.getElem?_append_right (Nat.le_add_right _ _), Nat.add_sub_cancel_left]

end

end Truth

end Condition

end FilterQuery
