import LineTint.Style
import LineTint.Text.Dotted
import LineTint.Theme.Data

namespace LineTint

structure Theme where
  name : String
  styles : Table String Style := .empty
deriving Repr

inductive ThemeError where
  | unsupportedVersion (version : UInt32)
  | invalidStyle (tag : String) (cause : ColorError)
  | notYaml (cause : Yaml.ReadError)
deriving DecidableEq, Repr

def ThemeData.currentVersion : UInt32 := 1

def ThemeError.message : ThemeError → String
  | .unsupportedVersion version =>
    "Unsupported theme version " ++ toString version.toNat ++ " (expected " ++
      toString ThemeData.currentVersion.toNat ++ ")"
  | .invalidStyle tag cause => "Invalid style for '" ++ tag ++ "': " ++ cause.message
  | .notYaml cause => "YAML parse error: " ++ cause.message

def StyleData.toStyle : StyleData → Except ColorError Style
  | .color hex => return { color := some (← Color.ofHex hex) }
  | .full none bold italic => return { font := { bold, italic } }
  | .full (some hex) bold italic =>
    return { color := some (← Color.ofHex hex), font := { bold, italic } }

namespace Theme

def parent? (tag : String) : Option String :=
  (Text.cutAtDot tag.toList).map fun (stem, _) => String.ofList stem

theorem length_lt_of_parent? {tag stem : String} (h : parent? tag = some stem) : stem.length < tag.length := by
  obtain ⟨⟨front, last⟩, hcut, rfl⟩ := Option.map_eq_some_iff.mp h
  have htag := (Text.cutAtDot_eq_some_iff.mp hcut).1
  rw [String.length_ofList, ← String.length_toList, htag, List.length_append, List.length_cons]
  omega

def styleFor? (t : Theme) (tag : String) : Option Style :=
  match t.styles.get? tag with
  | some style => some style
  | none =>
    match _ : parent? tag with
    | some stem => t.styleFor? stem
    | none => none
termination_by tag.length
decreasing_by exact length_lt_of_parent? ‹_›

def colorFor? (t : Theme) (tag : String) : Option Color := (t.styleFor? tag).bind (·.color)

def fontFor (t : Theme) (tag : String) : FontStyle := ((t.styleFor? tag).map (·.font)).getD {}

/-- Tags without any style keep the color of the text and the regular font. -/
def policy (t : Theme) : StylePolicy := fun tag => { color := t.colorFor? tag, font := t.fontFor tag }

def size (t : Theme) : Nat := t.styles.size

def ofData (d : ThemeData) : Except ThemeError Theme :=
  if d.version ≠ ThemeData.currentVersion then .error (.unsupportedVersion d.version)
  else
    match d.styles.mapM fun tag style => style.toStyle.mapError (.invalidStyle tag) with
    | .ok styles => .ok { name := d.name, styles }
    | .error e => .error e

def ofYaml (text : String) : Except ThemeError Theme :=
  match ThemeData.ofYaml text with
  | .ok d => ofData d
  | .error e => .error (.notYaml e)

end Theme
end LineTint
