import LineTint.Color
import LineTint.Table
import LineTint.Yaml.Reading

namespace LineTint

inductive StyleData where
  | color (hex : String)
  | full (color : Option String) (bold italic : Bool)
deriving DecidableEq, Repr

structure ThemeData where
  version : UInt32
  name : String
  styles : Table String StyleData := .empty
deriving Repr

namespace StyleData

open Yaml (Value Atom)

inductive Field where
  | color
  | bold
  | italic
  | other
deriving DecidableEq, Repr

def Field.ofKey? : Value → Option Field
  | .atom (.string name) =>
    some (match name with
      | "color" => .color
      | "bold" => .bold
      | "italic" => .italic
      | _ => .other)
  | .atom (.integer false i) =>
    some (match i with
      | 0 => .color
      | 1 => .bold
      | 2 => .italic
      | _ => .other)
  | _ => none

structure Fields where
  color : Option (Option String) := none
  bold : Option Bool := none
  italic : Option Bool := none

def Fields.add? (fields : Fields) (entry : Value × Value) : Option Fields := do
  match ← Field.ofKey? entry.1, entry.2 with
  | .color, .atom .null => if fields.color.isSome then none else some { fields with color := some none }
  | .color, .atom (.string hex) =>
    if fields.color.isSome then none else some { fields with color := some (some hex) }
  | .bold, .atom (.bool b) => if fields.bold.isSome then none else some { fields with bold := b }
  | .italic, .atom (.bool b) => if fields.italic.isSome then none else some { fields with italic := b }
  | .other, _ => some fields
  | _, _ => none

def ofValue? : Value → Option StyleData
  | .atom (.string hex) => some (.color hex)
  | .record entries => do
    let fields ← entries.foldlM Fields.add? {}
    return .full (fields.color.getD none) (fields.bold.getD false) (fields.italic.getD false)
  | _ => none

end StyleData

namespace ThemeData

open Yaml

/-- The styles of a theme file; of several entries for a tag the last one counts. -/
def readStyles (s : Source) (path : Path) (n : Node) : ReadM (Table String StyleData) := do
  let (mark, entries) ← readEntries s "a map" path n
  entries.foldlM (fun styles (k, v) => do
    let tag ← readString s "a string" path k
    let value ← readValue s (maxDepth - 2) (path.under k) v
    match StyleData.ofValue? value with
    | some style => return styles.insert tag style
    | none => misfit path mark (.noForm "SyntaxStyleData")) .empty

structure Fields where
  version : Option UInt32 := none
  name : Option String := none
  styles : Option (Table String StyleData) := none

def read (s : Source) (root : Node) : ReadM ThemeData := do
  let (mark, entries) ← readEntries s "struct ThemeData" .root root
  let once (known : Bool) (name : String) : ReadM Unit :=
    if known then misfit .root mark (.duplicateField name) else pure ()
  let fields ← entries.foldlM (fun (fields : Fields) (k, v) => do
    let path := Path.root.under k
    match ← readString s "field identifier" .root k with
    | "version" =>
      once fields.version.isSome "version"
      return { fields with version := some (← readWord s path v) }
    | "name" =>
      once fields.name.isSome "name"
      return { fields with name := some (← readString s "a string" path v) }
    | "syntax" =>
      once fields.styles.isSome "syntax"
      return { fields with styles := some (← readStyles s path v) }
    | _ =>
      s.ignore v
      return fields) {}
  match fields.version, fields.name with
  | none, _ => misfit .root mark (.missingField "version")
  | _, none => misfit .root mark (.missingField "name")
  | some version, some name =>
    return { version, name, styles := fields.styles.getD .empty }

def ofYaml (text : String) : Except ReadError ThemeData := readText text read

end ThemeData
end LineTint
