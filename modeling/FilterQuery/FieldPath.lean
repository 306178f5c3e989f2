import FilterQuery.Fault
import FilterQuery.Text.Pieces

/-!
Dotted field paths: names of relations to follow, then the name of an attribute.
-/

namespace FilterQuery

structure FieldPath where
  relations : List String
  attributeName : String
  deriving DecidableEq, Repr

namespace FieldPath

def segments (path : FieldPath) : List String :=
  path.relations ++ [path.attributeName]

-- The last segment is the attribute, so a path needs one segment to start from.
def ofSegments : String → List String → FieldPath
  | only, [] => ⟨[], only⟩
  | first, next :: rest =>
      let path := ofSegments next rest
      ⟨first :: path.relations, path.attributeName⟩

def text (path : FieldPath) : String :=
  Text.joined "." path.segments

/-- Splits at the dots. A segment without characters names nothing, so it makes the whole text no
path. -/
def parse (text : String) : Except Fault FieldPath :=
  let (first, others) := Text.split '.' text.toList
  if [] ∈ first :: others then .error (.malformedPath text)
  else .ok (ofSegments (String.ofList first) (others.map String.ofList))

theorem segments_ofSegments (first : String) (rest : List String) :
    (ofSegments first rest).segments = first :: rest := by
  induction rest generalizing first with
  | nil => rfl
  | cons next rest ih =>
      have tail := ih next
      simp only [segments] at tail
      simp [segments, ofSegments, tail]

theorem nil_mem_iff (pieces : List (List Char)) :
    [] ∈ pieces ↔ "" ∈ pieces.map String.ofList := by
  simp [eq_comm, String.ext_iff]

theorem parse_ok_iff {text : String} {path : FieldPath} :
    parse text = .ok path ↔
      ∃ first rest, Text.pieces '.' text = first :: rest ∧
        (∀ segment ∈ first :: rest, segment ≠ "") ∧
        path = ofSegments first rest := by
  unfold parse Text.pieces
  rcases Text.split '.' text.toList with ⟨first, others⟩
  simp only [nil_mem_iff, List.map_cons]
  constructor
  · intro parsed
    split at parsed
    · cases parsed
    · rename_i full
      cases parsed
      refine ⟨_, _, rfl, ?_, rfl⟩
      rintro segment held rfl
      exact full held
  · rintro ⟨_, _, same, full, rfl⟩
    cases same
    rw [if_neg fun held => full "" held rfl]

theorem parse_error_iff {text : String} {fault : Fault} :
    parse text = .error fault ↔ "" ∈ Text.pieces '.' text ∧ fault = .malformedPath text := by
  unfold parse Text.pieces
  rcases Text.split '.' text.toList with ⟨first, others⟩
  simp only [nil_mem_iff]
  by_cases blank : "" ∈ (first :: others).map String.ofList
  · rw [if_pos blank, Except.error.injEq, and_iff_right blank, eq_comm]
  · rw [if_neg blank]
    exact ⟨nofun, fun held => absurd held.1 blank⟩

theorem segments_of_parse {text : String} {path : FieldPath} (parsed : parse text = .ok path) :
    path.segments = Text.pieces '.' text := by
  obtain ⟨first, rest, split, _, rfl⟩ := parse_ok_iff.mp parsed
  rw [segments_ofSegments, split]

theorem text_of_parse {text : String} {path : FieldPath} (parsed : parse text = .ok path) :
    path.text = text := by
  rw [FieldPath.text, segments_of_parse parsed]
  exact Text.joined_pieces '.' text

end FieldPath

end FilterQuery
