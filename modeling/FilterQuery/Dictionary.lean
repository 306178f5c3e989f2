/-!
Dictionaries that remember the order in which their keys first came.
-/

namespace FilterQuery

structure Dictionary (Content : Type) where
  entries : List (String × Content)
  deriving Repr

namespace Dictionary

variable {Content : Type}

def empty : Dictionary Content := ⟨[]⟩

def find? (dictionary : Dictionary Content) (key : String) : Option Content :=
  (dictionary.entries.find? (·.1 = key)).map (·.2)

def put (key : String) (content : Content) : List (String × Content) → List (String × Content)
  | [] => [(key, content)]
  | (next, held) :: rest =>
      if next = key then (next, content) :: rest else (next, held) :: put key content rest

/-- A new key comes last; a key that is there keeps its place and gets the new content. -/
def insert (dictionary : Dictionary Content) (key : String) (content : Content) :
    Dictionary Content :=
  ⟨put key content dictionary.entries⟩

def erase (dictionary : Dictionary Content) (key : String) : Dictionary Content :=
  ⟨dictionary.entries.filter (·.1 ≠ key)⟩

def ofList (entries : List (String × Content)) : Dictionary Content :=
  entries.foldl (fun dictionary (key, content) => dictionary.insert key content) empty

def isEmpty (dictionary : Dictionary Content) : Bool :=
  dictionary.entries.isEmpty

def contents (dictionary : Dictionary Content) : List Content :=
  dictionary.entries.map (·.2)

theorem mem_contents_of_find? {dictionary : Dictionary Content} {key : String} {content : Content}
    (found : dictionary.find? key = some content) : content ∈ dictionary.contents := by
  obtain ⟨entry, held, rfl⟩ := Option.map_eq_some_iff.mp found
  exact List.mem_map_of_mem (List.mem_of_find?_eq_some held)

theorem find?_insert (dictionary : Dictionary Content) (key asked : String) (content : Content) :
    (dictionary.insert key content).find? asked =
      if asked = key then some content else dictionary.find? asked := by
  obtain ⟨entries⟩ := dictionary
  simp only [insert, find?]
  induction entries with
  | nil => by_cases same : asked = key <;> simp [put, same, eq_comm]
  | cons entry rest ih =>
      obtain ⟨next, held⟩ := entry
      by_cases sameKey : next = key
      · subst sameKey
        by_cases same : asked = next
        · simp [put, same]
        · simp [put, Ne.symm same, same]
      · by_cases same : next = asked
        · subst same
          simp [put, sameKey]
        · simpa [put, sameKey, same] using ih

theorem find?_erase (dictionary : Dictionary Content) (key asked : String) :
    (dictionary.erase key).find? asked =
      if asked = key then none else dictionary.find? asked := by
  obtain ⟨entries⟩ := dictionary
  simp only [erase, find?]
  induction entries with
  | nil => simp
  | cons entry rest ih =>
      obtain ⟨next, held⟩ := entry
      by_cases sameKey : next = key
      · subst sameKey
        by_cases same : asked = next
        · subst same
          simp
        · simpa [Ne.symm same, same] using ih
      · by_cases same : next = asked
        · subst same
          simp [sameKey]
        · simpa [sameKey, same] using ih

end Dictionary

/-- The schema names behind the names that requests use. A name without an entry is its own schema
name. -/
structure PropertyMap where
  names : Dictionary String
  deriving Repr

namespace PropertyMap

def empty : PropertyMap := ⟨.empty⟩

def resolve (map : PropertyMap) (name : String) : String :=
  (map.names.find? name).getD name

def isEmpty (map : PropertyMap) : Bool :=
  map.names.isEmpty

theorem resolve_empty (name : String) : empty.resolve name = name := rfl

end PropertyMap

end FilterQuery
