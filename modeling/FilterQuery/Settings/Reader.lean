import FilterQuery.Environment
import FilterQuery.Settings
import FilterQuery.Text.Blank
import FilterQuery.Toml.Reader

/-!
Settings from a TOML document. References to environment variables are replaced first, everywhere in
the text. A document with an unknown key, or with a value that a key does not take, is refused as a
whole.
-/

namespace FilterQuery.Settings

/-- One of a fixed set of names: as a text, or as a table whose only entry has the name as its key
and nothing in it. How the table is written makes no difference. -/
def choice? : Toml → Option String
  | .string name => some name
  | .table [(name, .table [])] => some name
  | .table [(name, .array [])] => some name
  | _ => none

def text? : Toml → Option String
  | .string value => some value
  | _ => none

/-- The key under which a moment shows its text where a table is expected. -/
def momentKey : String := "$__toml_private_datetime"

def names? : Toml → Option PropertyMap
  | .table entries => do
      let entries ← entries.mapM fun (name, value) => (text? value).map (name, ·)
      some ⟨Dictionary.ofList entries⟩
  | .moment written => some ⟨Dictionary.ofList [(momentKey, written)]⟩
  | _ => none

def takeEntry (settings : Settings) (entry : String × Toml) : Option Settings :=
  let (key, value) := entry
  if key = "join_scope" then
    ((choice? value).bind JoinScope.ofName?).map fun scope => { settings with joinScope := scope }
  else if key = "default_condition_group" then
    (text? value).map fun group => { settings with defaultGroup := group }
  else if key = "dialect" then
    ((choice? value).bind Dialect.ofName?).map fun dialect => { settings with dialect := dialect }
  else if key = "property_map" then
    (names? value).map fun names => { settings with names := names }
  else none

def ofEntries? (entries : List (String × Toml)) : Option Settings :=
  entries.foldlM takeEntry {}

def isBlank (text : String) : Bool :=
  text.toList.all Text.isBlank

def read (environment : Environment) (text : String) : Except Fault Settings :=
  match (Toml.read? (environment.expandText text)).bind ofEntries? with
  | none => .error (.configuration .unreadableSettings)
  | some settings =>
      if isBlank settings.defaultGroup then .error (.configuration .blankDefaultGroup)
      else .ok settings

end FilterQuery.Settings
