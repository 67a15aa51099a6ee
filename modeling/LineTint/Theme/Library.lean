import LineTint.FileSystem
import LineTint.Locations
import LineTint.Theme.Builtin

namespace LineTint

inductive LoadError where
  | unknownId (id : String)
  | unreadable (path : FilePath) (cause : FileError)
  | invalid (cause : ThemeError)
deriving DecidableEq, Repr

def LoadError.message : LoadError → String
  | .unknownId id => "Unknown theme id: " ++ id
  | .unreadable path cause => "Failed to read theme file " ++ path ++ ": " ++ cause.message
  | .invalid cause => cause.message

namespace Theme

def ofFile (fs : FileSystem) (p : FilePath) : Except LoadError Theme :=
  match fs.readText p with
  | .error e => .error (.unreadable p e)
  | .ok text => (ofYaml text).mapError .invalid

def ofId (id : String) : Except LoadError Theme :=
  match builtin? id with
  | some text => (ofYaml text).mapError .invalid
  | none => .error (.unknownId id)

def load (fs : FileSystem) (home : Home) (id : String) : Except LoadError Theme :=
  if fs.contains (home.theme id) then ofFile fs (home.theme id) else ofId id

inductive Origin where
  | user
  | builtin
deriving DecidableEq, Repr

structure Listed where
  id : String
  name : String
  origin : Origin
deriving DecidableEq, Repr

def isThemeFile (name : String) : Bool :=
  match (FilePath.divide name).2 with
  | some suffix => suffix = "yaml" || suffix = "yml"
  | none => false

def distinct (seen : List String) : List Listed → List Listed
  | [] => []
  | t :: rest => if seen.contains t.id then distinct seen rest else t :: distinct (t.id :: seen) rest

/-- The user's themes. One that cannot be read is listed under its id. -/
def listUser (fs : FileSystem) (home : Home) : List Listed :=
  match fs.list home.themes with
  | .error _ => []
  | .ok names =>
    (names.filter isThemeFile).map fun file =>
      let id := (FilePath.divide file).1
      match ofFile fs (FilePath.join home.themes file) with
      | .ok t => ⟨id, t.name, .user⟩
      | .error _ => ⟨id, id, .user⟩

def listedBuiltin (id text : String) : Listed :=
  match ofYaml text with
  | .ok t => ⟨id, t.name, .builtin⟩
  | .error _ => ⟨id, id, .builtin⟩

def listBuiltin : List Listed := builtin.map fun (id, text) => listedBuiltin id text

def list (fs : FileSystem) (home : Home) : List Listed :=
  distinct [] (listUser fs home ++ listBuiltin)

end Theme
end LineTint
