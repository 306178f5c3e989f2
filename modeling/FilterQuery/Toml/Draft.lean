import FilterQuery.Toml

/-!
Tables while their entries come in. A table is declared once: by its header, by the header of a
table inside it, or by dotted keys, and what may still be added to it depends on which of these it
was.
-/

namespace FilterQuery.Toml

inductive Origin where
  | header
  | headerInside
  | dottedKey
  deriving DecidableEq, Repr

inductive Draft where
  | value (value : Toml)
  | table (origin : Origin) (entries : List (String × Draft))
  deriving Repr

abbrev Entries := List (String × Draft)

namespace Draft

def find? (key : String) (entries : Entries) : Option Draft :=
  (entries.find? (·.1 = key)).map (·.2)

def erase (key : String) (entries : Entries) : Entries :=
  entries.filter (·.1 ≠ key)

def replace (key : String) (draft : Draft) (entries : Entries) : Entries :=
  entries.map fun (name, held) => if name = key then (name, draft) else (name, held)

/-- Changes the table at the end of a path. Tables missing on the way come from `created`; dotted
keys do not lead through a table that has a header. -/
def within (created : Origin) (change : Origin → Entries → Option Entries) :
    List String → Origin → Entries → Option Entries
  | [], origin, entries => change origin entries
  | key :: rest, _, entries =>
      match find? key entries with
      | none => do
          let inner ← within created change rest created []
          some (entries ++ [(key, .table created inner)])
      | some (.value _) => none
      | some (.table origin inner) =>
          if created = .dottedKey ∧ origin = .header then none
          else do
            let inner ← within created change rest origin inner
            some (replace key (.table origin inner) entries)

def addEntry (path : List String) (name : String) (value : Toml) (origin : Origin)
    (entries : Entries) : Option Entries :=
  within .dottedKey (fun reached entries =>
      if decide (reached = .dottedKey) == path.isEmpty then none
      else if (find? name entries).isSome then none
      else some (entries ++ [(name, .value value)]))
    path origin entries

/-- Declares a table by a header. It may hold tables already if only their headers declared it. -/
def addHeader (path : List String) (name : String) (entries : Entries) : Option Entries :=
  within .headerInside (fun _ entries =>
      match find? name entries with
      | none => some (entries ++ [(name, .table .header [])])
      | some (.table .headerInside inner) =>
          some (erase name entries ++ [(name, .table .header inner)])
      | some _ => none)
    path .header entries

mutual

def toToml : Draft → Toml
  | .value held => held
  | .table _ entries => .table (entriesToToml entries)

def entriesToToml : Entries → List (String × Toml)
  | [] => []
  | (key, draft) :: rest => (key, draft.toToml) :: entriesToToml rest

end

end Draft

end FilterQuery.Toml
