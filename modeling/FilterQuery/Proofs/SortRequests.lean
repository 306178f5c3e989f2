import FilterQuery.Proofs.EntitySteps
import FilterQuery.Proofs.Faithfulness
import FilterQuery.Proofs.OrderClauses
import Mathlib.Data.List.DropRight

/-!
Requests for an order. Names and directions can come in one text with commas, whose entries are
trimmed, and blank entries count for nothing. Main statements: a text of directions is read when
every entry with something in it is a word for a direction, and gives the keys their directions in
turn; a text of names asks for what a list of the trimmed names asks for.
-/

namespace FilterQuery

/-! Trimmed texts. -/

namespace Text

theorem forall_entries {text : String} {holds : String → Prop} :
    (∀ entry ∈ entries text, holds entry) ↔
      ∀ piece ∈ pieces ',' text, trimmed piece = "" ∨ holds (trimmed piece) := by
  simp [entries, or_iff_not_imp_left]

theorem dropWhile_trim (text : List Char) : (trim text).dropWhile isBlank = trim text := by
  obtain ⟨dropped, whole⟩ := List.rdropWhile_prefix isBlank (text.dropWhile isBlank)
  have first := List.head?_dropWhile_not isBlank text
  rw [← whole] at first
  -- What is cut off at the end leaves the first character where it is.
  change (List.rdropWhile isBlank (text.dropWhile isBlank)).dropWhile isBlank =
    List.rdropWhile isBlank (text.dropWhile isBlank)
  cases kept : List.rdropWhile isBlank (text.dropWhile isBlank) with
  | nil => rfl
  | cons char rest =>
      rw [kept] at first
      exact List.dropWhile_cons_of_neg (by simpa using first)

theorem trim_trim (text : List Char) : trim (trim text) = trim text := by
  rw [trim, dropWhile_trim]
  exact List.rdropWhile_idempotent isBlank (text.dropWhile isBlank)

theorem trim_eq_nil_iff {text : List Char} :
    trim text = [] ↔ ∀ char ∈ text, isBlank char = true := by
  rw [← List.dropWhile_eq_nil_iff]
  refine ⟨fun trimmedAway => ?_, fun blank => by rw [trim, blank]; rfl⟩
  have blankRest := List.rdropWhile_eq_nil_iff.mp trimmedAway
  rw [← List.dropWhile_idempotent isBlank text]
  exact List.dropWhile_eq_nil_iff.mpr blankRest

theorem trimmed_trimmed (text : String) : trimmed (trimmed text) = trimmed text := by
  rw [trimmed, trimmed, String.toList_ofList, trim_trim]

/-- The text can stand between commas: it has a visible character, and no comma. -/
structure IsEntry (text : String) : Prop where
  visible : ∃ char ∈ text.toList, isBlank char = false
  whole : ',' ∉ text.toList

theorem isEntry_iff {text : String} : IsEntry text ↔ trim text.toList ≠ [] ∧ ',' ∉ text.toList := by
  rw [Ne, trim_eq_nil_iff, not_forall]
  simp only [Classical.not_imp, Bool.not_eq_true]
  exact ⟨fun entry => ⟨entry.visible, entry.whole⟩, fun ⟨visible, whole⟩ => ⟨visible, whole⟩⟩

instance (text : String) : Decidable (IsEntry text) :=
  decidable_of_iff _ isEntry_iff.symm

theorem IsEntry.trimmed_ne {text : String} (entry : IsEntry text) : trimmed text ≠ "" := by
  intro blank
  exact (isEntry_iff.mp entry).left (by simpa [trimmed] using congrArg String.toList blank)

theorem entries_joined {texts : List String} (each : ∀ text ∈ texts, IsEntry text) :
    entries (joined "," texts) = texts.map trimmed := by
  cases texts with
  | nil => rfl
  | cons first rest =>
      have cut : pieces ',' (joined "," (first :: rest)) = first :: rest :=
        pieces_joined ',' first rest fun text held => (each text held).whole
      rw [entries, cut, List.filter_eq_self]
      intro text held
      obtain ⟨given, among, rfl⟩ := List.mem_map.mp held
      exact decide_eq_true (each given among).trimmed_ne

end Text

/-! Directions. -/

namespace DirectionRequest

def words : Bool → List String
  | true => ["true", "t", "yes", "y", "1", "desc"]
  | false => ["false", "f", "no", "n", "0", "asc"]

def Says (entry : String) (descending : Bool) : Prop :=
  String.ofList (entry.toList.map Char.toLower) ∈ words descending

instance (entry : String) (descending : Bool) : Decidable (Says entry descending) :=
  inferInstanceAs (Decidable (_ ∈ words descending))

def misread (entry : String) : Fault :=
  .invalidValue "is_desc" "order" entry "a boolean token (true/false, yes/no, 1/0, desc/asc)"

theorem flag?_eq_some_iff {entry : String} {descending : Bool} :
    flag? entry = some descending ↔ Says entry descending := by
  rw [Says]
  change (if _ ∈ words true then some true
    else if _ ∈ words false then some false else none) = _ ↔ _
  generalize String.ofList (entry.toList.map Char.toLower) = lower
  by_cases falling : lower ∈ words true
  · -- No word stands for both directions.
    have apart : ∀ word ∈ words true, word ∉ words false := by decide
    cases descending <;> simp [falling, apart lower falling]
  · by_cases rising : lower ∈ words false <;> cases descending <;> simp [falling, rising]

theorem readFlag_ok_iff {entry : String} {descending : Bool} :
    readFlag entry = .ok descending ↔ Says entry descending := by
  rw [← flag?_eq_some_iff, readFlag]
  cases flag? entry <;> simp

theorem readFlag_error_iff {entry : String} {fault : Fault} :
    readFlag entry = .error fault ↔
      (∀ descending, ¬ Says entry descending) ∧ fault = misread entry := by
  simp only [← flag?_eq_some_iff, ← Option.eq_none_iff_forall_ne_some, readFlag, misread]
  cases flag? entry <;> simp [eq_comm]

theorem flags_joined_ok_iff {tokens : String} {keyCount : Nat} {flags : List Bool} :
    (joined tokens).flags keyCount = .ok flags ↔ List.Forall₂ Says (Text.entries tokens) flags := by
  rw [DirectionRequest.flags, mapM_ok_iff]
  simp only [readFlag_ok_iff]

theorem flags_joined_error_iff {tokens : String} {keyCount : Nat} {fault : Fault} :
    (joined tokens).flags keyCount = .error fault ↔
      ∃ before entry after, Text.entries tokens = before ++ entry :: after ∧
        (∀ earlier ∈ before, ∃ descending, Says earlier descending) ∧
          (∀ descending, ¬ Says entry descending) ∧ fault = misread entry := by
  rw [DirectionRequest.flags, mapM_error_iff]
  simp only [readFlag_ok_iff, readFlag_error_iff]

end DirectionRequest

namespace Assembler

/-- A text of directions is read when each of its entries is blank or a word for a direction. Each
entry that is not blank gives one direction, for the key in its place; the first that is no such
word is the fault. -/
theorem directions_in_turn (assembler : Assembler) (root : Entity) (names : PropertyMap)
    (sort : SortRequest) (tokens : String) :
    (∀ keyCount,
      ((∃ flags, (DirectionRequest.joined tokens).flags keyCount = .ok flags) ↔
        ∀ piece ∈ Text.pieces ',' tokens,
          Text.trimmed piece = "" ∨
          ∃ descending, DirectionRequest.Says (Text.trimmed piece) descending) ∧
      (∀ flags, (DirectionRequest.joined tokens).flags keyCount = .ok flags ↔
        List.Forall₂ DirectionRequest.Says (Text.entries tokens) flags) ∧
      ∀ fault, (DirectionRequest.joined tokens).flags keyCount = .error fault ↔
        ∃ before entry after, Text.entries tokens = before ++ entry :: after ∧
          (∀ earlier ∈ before, ∃ descending, DirectionRequest.Says earlier descending) ∧
            (∀ descending, ¬ DirectionRequest.Says entry descending) ∧
              fault = DirectionRequest.misread entry) ∧
    ∀ clauses, assembler.orderClauses root names sort (.joined tokens) = .ok clauses ↔
      (Text.entries tokens).length = sort.keys.length ∧
        List.Forall₂ (fun paired clause => ∃ descending, DirectionRequest.Says paired.2 descending ∧
          assembler.Sorts root names paired.1 descending clause)
          (sort.keys.zip (Text.entries tokens)) clauses := by
  refine ⟨fun keyCount => ⟨?_, fun flags => DirectionRequest.flags_joined_ok_iff,
    fun fault => DirectionRequest.flags_joined_error_iff⟩, fun clauses => ?_⟩
  · simp only [DirectionRequest.flags_joined_ok_iff]
    exact exists_forall₂_iff.trans Text.forall_entries
  · rw [orderClauses_ok_iff]
    simp only [DirectionRequest.flags_joined_ok_iff]
    exact exists_forall₂_zip_iff

example : (DirectionRequest.joined " Yes ,, 0,aSc,").flags 3 = .ok [true, false, false] := rfl

end Assembler

/-- Nothing stands between the two commas, and it is no word for a direction. The text is read all
the same, and the direction in the third place becomes the second. -/
theorem DirectionRequest.blank_between_commas :
    (∃ piece ∈ Text.pieces ',' "desc,,asc", ∀ descending, ¬ Says (Text.trimmed piece) descending) ∧
      (joined "desc,,asc").flags 2 = .ok [true, false] :=
  ⟨⟨"", by decide, by decide⟩, rfl⟩

/-! Names, in one text or in a list. -/

theorem SortRequest.keys_joined {names : List String} (each : ∀ name ∈ names, Text.IsEntry name) :
    (SortRequest.joined (Text.joined "," names)).keys =
      (SortRequest.listed (names.map fun name => .requested (Text.trimmed name))).keys := by
  rw [keys, keys, Text.entries_joined each, List.map_map]
  rfl

def Shelter.petWith (attributes : List String) : Assembler :=
  ⟨.ofEntities [(Entity.new "Pet" "pets").withAttributes attributes], {}⟩

theorem Shelter.entity_petWith (attributes : List String) :
    (petWith attributes).schema.entity "Pet" =
      .ok ((Entity.new "Pet" "pets").withAttributes attributes) := by
  have named := (Entity.new "Pet" "pets").name_withAttributes attributes
  rw [Schema.entity_ok_iff]
  exact (Dictionary.find?_insert ..).trans (if_pos named.symm)

theorem Shelter.assemble_petWith_ok_iff {attributes : List String} {sort : SortRequest} :
    (∃ plan, (petWith attributes).assemble "Pet" { sort := sort } = .ok plan) ↔
      ∀ key ∈ sort.keys, key.resolve .empty = "id" ∨ key.resolve .empty ∈ attributes := by
  have named : ((Entity.new "Pet" "pets").withAttributes attributes).name = "Pet" :=
    Entity.name_withAttributes ..
  have unmapped : (petWith attributes).settings.names = .empty := rfl
  simp only [Assembler.assemble_sort_ok_iff, Schema.column_ok_iff, entity_petWith, named, unmapped,
    Except.ok.injEq, exists_eq_left', Entity.find?_withAttributes]
  refine forall₂_congr fun key _ => ?_
  generalize key.resolve .empty = asked
  by_cases given : asked ∈ attributes
  · simp [given]
  · rw [if_neg given, Entity.find?_new]
    by_cases own : asked = "id" <;> simp [given, own]

namespace Assembler

/-- A text of names asks for the order that a list of the trimmed names asks for. So the text and a
list of the names as they are agree, for all schemas and requests, just when the names have no
blanks around them. -/
theorem sort_forms_agree_iff {names : List String} (each : ∀ name ∈ names, Text.IsEntry name) :
    (∀ (assembler : Assembler) (rootName : String) (request : Request),
      assembler.assemble rootName { request with sort := .joined (Text.joined "," names) } =
        assembler.assemble rootName
          { request with sort := .listed (names.map fun name => .requested (Text.trimmed name)) }) ∧
    ((∀ (assembler : Assembler) (rootName : String) (request : Request),
        assembler.assemble rootName { request with sort := .joined (Text.joined "," names) } =
          assembler.assemble rootName { request with sort := .listed (names.map .requested) }) ↔
      ∀ name ∈ names, Text.trimmed name = name) := by
  have joined := SortRequest.keys_joined each
  refine ⟨fun assembler rootName request =>
    assembler.assemble_of_keys_eq rootName request joined, ?_, ?_⟩
  · intro agree name held
    -- Pets have the trimmed names as attributes, so the list asks for others when it has blanks.
    obtain ⟨plan, assembled⟩ : ∃ plan, (Shelter.petWith (names.map Text.trimmed)).assemble "Pet"
        { sort := .joined (Text.joined "," names) } = .ok plan := by
      rw [Shelter.assemble_petWith_ok_iff, joined, SortRequest.keys, List.forall_mem_map]
      exact fun known among => Or.inr (List.mem_map_of_mem among)
    have listed :=
      Shelter.assemble_petWith_ok_iff.mp ⟨plan, (agree _ "Pet" {}).symm.trans assembled⟩
    rcases listed (.requested name) (List.mem_map_of_mem held) with own | among
    · change name = "id" at own
      rw [own]
      rfl
    · obtain ⟨other, _, same⟩ := List.mem_map.mp among
      change Text.trimmed other = name at same
      rw [← same, Text.trimmed_trimmed]
  · intro bare assembler rootName request
    refine assembler.assemble_of_keys_eq rootName request (joined.trans ?_)
    refine congrArg (fun keys => (SortRequest.listed keys).keys) (List.map_congr_left ?_)
    intro name held
    rw [bare name held]

/-- In a text the blank after the name is left out, and in a list it makes another name. -/
theorem padded_in_text :
    (∀ name ∈ ["name ", "id"], Text.IsEntry name) ∧
      (∃ plan, Shelter.assembler.assemble "Pet" { sort := .joined "name ,id" } = .ok plan ∧
        Shelter.assembler.assemble "Pet" { sort := .listed [.requested "name", .requested "id"] } =
          .ok plan) ∧
      ¬ ∀ (assembler : Assembler) (rootName : String) (request : Request),
        assembler.assemble rootName { request with sort := .joined "name ,id" } =
          assembler.assemble rootName
            { request with sort := .listed [.requested "name ", .requested "id"] } := by
  have each : ∀ name ∈ ["name ", "id"], Text.IsEntry name := by decide
  obtain ⟨asTrimmed, agree_iff⟩ := sort_forms_agree_iff each
  obtain ⟨plan, assembled⟩ :
      ∃ plan, Shelter.assembler.assemble "Pet" { sort := .joined "name ,id" } = .ok plan :=
    ⟨_, rfl⟩
  refine ⟨each, ⟨plan, assembled, (asTrimmed Shelter.assembler "Pet" {}).symm.trans assembled⟩,
    fun agree => ?_⟩
  exact absurd (agree_iff.mp agree "name " List.mem_cons_self) (by decide)

/-- The same name with the same blank before it: a column in a text, and none in a list. -/
theorem padded_in_list :
    Text.IsEntry " name" ∧
      (∃ plan, Shelter.assembler.assemble "Pet" { sort := .joined (Text.joined "," [" name"]) } =
        .ok plan) ∧
        Shelter.assembler.assemble "Pet" { sort := .listed [.requested " name"] } =
          .error (.unresolved "Pet" " name") :=
  ⟨by decide, ⟨_, rfl⟩, rfl⟩

end Assembler

end FilterQuery
