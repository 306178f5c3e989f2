import FilterQuery.Filter

/-!
Dotted texts and the segments they stand for. A list of names is read back from the names with dots
between them, and a text that is read is the names with dots between them. Main statement: a text is
a path exactly when it is made of names in this way, nothing of it is lost, and the segments that
are joined for a condition are never all of them.
-/

namespace FilterQuery

namespace Text

theorem join_eq_intercalate (separator : List Char) (texts : List (List Char)) :
    join separator texts = separator.intercalate texts := by
  induction texts with
  | nil => rfl
  | cons first rest ih =>
      cases rest with
      | nil => simp [join]
      | cons next others => rw [join_cons_cons, ih, List.intercalate_cons_cons, List.append_assoc]

theorem joined_eq_intercalate (separator : String) (texts : List String) :
    joined separator texts = separator.intercalate texts := by
  rw [joined, join_eq_intercalate, ← String.toList_intercalate, String.ofList_toList]

end Text

namespace FieldPath

/-- The segments that a path can have: one or more, none without characters, and none with a dot in
it. -/
structure AreSegments (segments : List String) : Prop where
  nonempty : segments ≠ []
  named : ∀ segment ∈ segments, segment ≠ ""
  undotted : ∀ segment ∈ segments, '.' ∉ segment.toList

theorem text_eq_intercalate (path : FieldPath) : path.text = ".".intercalate path.segments :=
  Text.joined_eq_intercalate "." path.segments

theorem segments_injective {first second : FieldPath} (same : first.segments = second.segments) :
    first = second := by
  obtain ⟨sameRelations, sameNames⟩ := List.append_inj' same rfl
  cases first
  cases second
  cases sameRelations
  cases sameNames
  rfl

theorem parse_intercalate {segments : List String} (are : AreSegments segments) :
    ∃ path, parse (".".intercalate segments) = .ok path ∧ path.segments = segments := by
  obtain ⟨first, rest, rfl⟩ := List.exists_cons_of_ne_nil are.nonempty
  have pieces := Text.pieces_joined '.' first rest are.undotted
  rw [Text.joined_eq_intercalate] at pieces
  exact ⟨_, parse_ok_iff.mpr ⟨first, rest, pieces, are.named, rfl⟩, segments_ofSegments first rest⟩

theorem areSegments_of_parse {text : String} {path : FieldPath} (parsed : parse text = .ok path) :
    AreSegments path.segments := by
  obtain ⟨first, rest, pieces, named, rfl⟩ := parse_ok_iff.mp parsed
  have undotted := Text.separator_not_mem_pieces '.' text
  rw [pieces] at undotted
  rw [segments_ofSegments]
  exact ⟨List.cons_ne_nil _ _, named, undotted⟩

theorem parse_ok_iff_segments {text : String} {path : FieldPath} :
    parse text = .ok path ↔ AreSegments path.segments ∧ ".".intercalate path.segments = text := by
  constructor
  · intro parsed
    exact ⟨areSegments_of_parse parsed, by rw [← text_eq_intercalate, text_of_parse parsed]⟩
  · rintro ⟨are, rfl⟩
    obtain ⟨other, parsed, same⟩ := parse_intercalate are
    rw [parsed, segments_injective same]

end FieldPath

namespace Leaf

/-- What is left out of the joins stands at the end of the path: the attribute, and before it the
collection that `contains` searches, if there is one. -/
theorem joinSegments_eq_take (leaf : Leaf) :
    leaf.joinSegments =
      leaf.path.segments.take (leaf.path.segments.length -
        if leaf.operator = .contains then 2 else 1) := by
  have relations : leaf.path.segments.dropLast = leaf.path.relations := List.dropLast_concat
  unfold joinSegments
  rw [← relations]
  cases leaf.operator with
  | contains =>
      have fewer : leaf.path.segments.length - 2 ≤ leaf.path.segments.length - 1 := by omega
      simp [List.dropLast_eq_take, List.take_take, Nat.sub_sub, Nat.min_eq_left fewer]
  | _ => simp [List.dropLast_eq_take]

theorem joinSegments_ne_segments (leaf : Leaf) : leaf.joinSegments ≠ leaf.path.segments := by
  intro same
  have length := congrArg List.length same
  have positive : 0 < leaf.path.segments.length := by simp [FieldPath.segments]
  rw [leaf.joinSegments_eq_take, List.length_take] at length
  split at length <;> omega

end Leaf

namespace FieldPath

/-- A text is a path exactly when it is segments with dots between them, and then these are its
segments: written again they are the text, which is read as the same path, and no other text has
them. What is joined for a condition is a start of them that leaves out the last one, or the last
two for `contains`, as far as there are two. -/
theorem parse_lossless (text : String) :
    ((∃ path, parse text = .ok path) ↔
      ∃ segments, AreSegments segments ∧ text = ".".intercalate segments) ∧
      ∀ path, parse text = .ok path →
        path.text = text ∧ parse path.text = .ok path ∧
          (∀ segments, AreSegments segments → text = ".".intercalate segments →
            path.relations ++ [path.attributeName] = segments) ∧
          (∀ other otherPath, parse other = .ok otherPath → otherPath.segments = path.segments →
            other = text) ∧
          ∀ leaf : Leaf, leaf.path = path →
            leaf.joinSegments =
                path.segments.take (path.segments.length -
                  if leaf.operator = .contains then 2 else 1) ∧
              leaf.joinSegments <+: path.segments ∧ leaf.joinSegments ≠ path.segments := by
  refine ⟨⟨?_, ?_⟩, fun path parsed => ?_⟩
  · rintro ⟨path, parsed⟩
    obtain ⟨are, whole⟩ := parse_ok_iff_segments.mp parsed
    exact ⟨path.segments, are, whole.symm⟩
  · rintro ⟨segments, are, rfl⟩
    obtain ⟨path, parsed, _⟩ := parse_intercalate are
    exact ⟨path, parsed⟩
  have whole := text_of_parse parsed
  refine ⟨whole, by rw [whole, parsed], ?_, ?_, ?_⟩
  · rintro segments are rfl
    obtain ⟨other, otherParsed, same⟩ := parse_intercalate are
    cases parsed.symm.trans otherParsed
    exact same
  · intro other otherPath otherParsed same
    rw [← text_of_parse otherParsed, segments_injective same, whole]
  · rintro leaf rfl
    refine ⟨leaf.joinSegments_eq_take, ?_, leaf.joinSegments_ne_segments⟩
    rw [leaf.joinSegments_eq_take]
    exact List.take_prefix _ _

/-- The toys of a pet are searched as a whole, so the joins stop at the pet that has them. -/
theorem toyName_lossless :
    let path : FieldPath := ⟨["keeper", "pet", "toys"], "name"⟩
    parse "keeper.pet.toys.name" = .ok path ∧ path.text = "keeper.pet.toys.name" ∧
      (⟨path, .contains, .text "ball", defaultGroup⟩ : Leaf).joinSegments = ["keeper", "pet"] := by
  intro path
  have parsed : parse "keeper.pet.toys.name" = .ok path := rfl
  obtain ⟨same, _, _, _, joins⟩ := (parse_lossless "keeper.pet.toys.name").2 path parsed
  exact ⟨parsed, same, (joins ⟨path, .contains, .text "ball", defaultGroup⟩ rfl).1⟩

end FieldPath

end FilterQuery
