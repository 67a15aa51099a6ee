import LineTint.FileSystem
import LineTint.Language
import LineTint.Table
import LineTint.Yaml.Print
import LineTint.Yaml.Reading

namespace LineTint

structure Config where
  theme : String := "default-dark"
  userQueries : Bool := true
  /-- The names of languages for endings of file names, each behind a dot. -/
  extensions : Table String String := .empty
deriving Repr, Inhabited

inductive ConfigError where
  | noDirectory (cause : FileError)
  | notWritten (path : FilePath) (cause : FileError)
deriving DecidableEq, Repr

def ConfigError.message : ConfigError → String
  | .noDirectory cause => "Failed to create config directory: " ++ cause.message
  | .notWritten path cause => "Failed to write config to " ++ path ++ ": " ++ cause.message

namespace Config

/-- The entry with the longest key; of several with keys of one length the last. -/
def longest? : List (String × String) → Option (String × String)
  | [] => none
  | entry :: rest =>
    match longest? rest with
    | some best => if best.1.utf8ByteSize < entry.1.utf8ByteSize then some entry else some best
    | none => some entry

def languageFor (c : Config) (p : FilePath) : Language :=
  match p.fileName? with
  | none => .plainText
  | some name =>
    let configured := longest? (c.extensions.entries.filter fun (ending, _) => FilePath.hasEnding name ending)
    (configured.bind fun (_, language) => Language.ofName? language).getD (.ofPath p)

section Reading

open Yaml

structure Fields where
  theme : Option String := none
  userQueries : Option Bool := none
  extensions : Option (Table String String) := none

def readTable (s : Source) (path : Path) (n : Node) : ReadM (Table String String) := do
  let (_, entries) ← readEntries s "a map" path n
  entries.foldlM (fun table (k, v) => do
    let key ← readString s "a string" path k
    return table.insert key (← readString s "a string" (path.under k) v)) .empty

def read (s : Source) (root : Node) : ReadM Config := do
  let (mark, entries) ← readEntries s "struct HighlightConfig" .root root
  let once (known : Bool) (name : String) : ReadM Unit :=
    if known then misfit .root mark (.duplicateField name) else pure ()
  let fields ← entries.foldlM (fun (fields : Fields) (k, v) => do
    let path := Path.root.under k
    match ← readString s "field identifier" .root k with
    | "theme" =>
      once fields.theme.isSome "theme"
      return { fields with theme := some (← readString s "a string" path v) }
    | "user_queries" =>
      once fields.userQueries.isSome "user_queries"
      return { fields with userQueries := some (← readBool s path v) }
    | "extensions" =>
      once fields.extensions.isSome "extensions"
      return { fields with extensions := some (← readTable s path v) }
    | _ =>
      s.ignore v
      return fields) {}
  let default : Config := {}
  return {
    theme := fields.theme.getD default.theme
    userQueries := fields.userQueries.getD default.userQueries
    extensions := fields.extensions.getD default.extensions }

def ofYaml (text : String) : Except ReadError Config := readText text read

end Reading

def toYaml (c : Config) : String :=
  let extensions :=
    if c.extensions.isEmpty then []
    else "extensions:\n".toList ++
      c.extensions.entries.flatMap fun (key, value) => Yaml.Print.entry 2 key value
  String.ofList (Yaml.Print.entry 0 "theme" c.theme ++
    ("user_queries: " ++ (if c.userQueries then "true" else "false") ++ "\n").toList ++ extensions)

def load (fs : FileSystem) (p : FilePath) : Config :=
  match fs.readText p with
  | .error _ => {}
  | .ok text =>
    match ofYaml text with
    | .ok c => c
    | .error _ => {}

def save (c : Config) (fs : FileSystem) (p : FilePath) : FileSystem × Except ConfigError Unit :=
  match (p.parent?.map fs.makeDirectories).getD (fs, .ok ()) with
  | (fs, .error e) => (fs, .error (.noDirectory e))
  | (fs, .ok ()) =>
    match fs.write p (Text.bytes c.toYaml) with
    | .error e => (fs, .error (.notWritten p e))
    | .ok fs => (fs, .ok ())

end Config
end LineTint
