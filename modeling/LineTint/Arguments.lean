import LineTint.Config
import LineTint.LineFilter

namespace LineTint

structure Arguments where
  file : Option FilePath := none
  theme : Option String := none
  language : Option String := none
  lines : Option String := none
  json : Bool := false
  listThemes : Bool := false
  saveTheme : Bool := false
  verbosity : Nat := 0
deriving DecidableEq, Repr, Inhabited

inductive UsageError where
  | unknownArgument
  | invalidValue
  | repeated
  | valueForFlag
  | missingArgument
deriving DecidableEq, Repr

def UsageError.message : UsageError → String
  | .unknownArgument => "unexpected argument"
  | .invalidValue => "a value is required"
  | .repeated => "an argument cannot be used multiple times"
  | .valueForFlag => "unexpected value"
  | .missingArgument => "a required argument was not provided"

inductive Request where
  | run (arguments : Arguments)
  | help
  | version
deriving DecidableEq, Repr

structure UnknownLanguage where
  name : String
deriving DecidableEq, Repr

def UnknownLanguage.message (e : UnknownLanguage) : String := "Unknown language: " ++ e.name

inductive LogLevel where
  | warn
  | info
  | debug
  | trace
deriving DecidableEq, Repr

def LogLevel.ofVerbosity : Nat → LogLevel
  | 0 => .warn
  | 1 => .info
  | 2 => .debug
  | _ => .trace

def LogLevel.name : LogLevel → String
  | .warn => "warn"
  | .info => "info"
  | .debug => "debug"
  | .trace => "trace"

namespace Arguments

inductive Setting where
  | theme
  | language
  | lines
deriving DecidableEq, Repr

inductive Flag where
  | json
  | listThemes
  | saveTheme
  | verbose
  | help
  | version
deriving DecidableEq, Repr

def Setting.ofName? : String → Option Setting
  | "theme" => some .theme
  | "language" => some .language
  | "lines" => some .lines
  | _ => none

def Setting.ofLetter? : Char → Option Setting
  | 't' => some .theme
  | 'l' => some .language
  | _ => none

def Flag.ofName? : String → Option Flag
  | "json" => some .json
  | "list-themes" => some .listThemes
  | "save-theme" => some .saveTheme
  | "verbose" => some .verbose
  | "help" => some .help
  | "version" => some .version
  | _ => none

def Flag.ofLetter? : Char → Option Flag
  | 'v' => some .verbose
  | 'h' => some .help
  | 'V' => some .version
  | _ => none

inductive Pending where
  | nothing
  | awaiting (s : Setting)
  | setting (s : Setting) (value : String)
  | file (path : FilePath)
deriving DecidableEq, Repr

/-- An option that still waits for its value, and the last value read, are checked when the next argument that is
known comes up, or at the end; so a mistake in them may be hidden by a later one. -/
structure Progress where
  arguments : Arguments := {}
  pending : Pending := .nothing
  named : Bool := false
  /-- Whether all that follows are files, whatever they begin with. -/
  literal : Bool := false
deriving DecidableEq, Repr

inductive Stop where
  | error (e : UsageError)
  | help
  | version
deriving DecidableEq, Repr

def put (a : Arguments) (s : Setting) (value : String) : Except Stop Arguments :=
  let once (known : Option String) (a : Arguments) :=
    if known.isSome then .error (.error .repeated) else .ok a
  match s with
  | .theme => once a.theme { a with theme := some value }
  | .language => once a.language { a with language := some value }
  | .lines => once a.lines { a with lines := some value }

def raise (a : Arguments) (f : Flag) : Except Stop Arguments :=
  let once (known : Bool) (a : Arguments) := if known then .error (.error .repeated) else .ok a
  match f with
  | .json => once a.json { a with json := true }
  | .listThemes => once a.listThemes { a with listThemes := true }
  | .saveTheme => once a.saveTheme { a with saveTheme := true }
  | .verbose => .ok { a with verbosity := min (a.verbosity + 1) 255 }
  | .help => .error .help
  | .version => .error .version

namespace Progress

def settle (p : Progress) : Except Stop Progress :=
  let settled := { p with pending := .nothing }
  match p.pending with
  | .nothing => .ok settled
  | .awaiting _ => .error (.error .invalidValue)
  | .setting s value => return { settled with arguments := ← p.arguments.put s value }
  | .file "" => .error (.error .invalidValue)
  | .file path => .ok { settled with arguments := { p.arguments with file := some path } }

def raise (p : Progress) (f : Flag) : Except Stop Progress := do
  let p ← p.settle
  return { p with arguments := ← p.arguments.raise f }

def open? (p : Progress) (s : Setting) (joined : Option String) : Except Stop Progress := do
  let p ← p.settle
  match joined with
  | some value => return { p with arguments := ← p.arguments.put s value }
  | none => return { p with pending := .awaiting s }

/-- Letters behind a dash. The value of a setting may follow its letter directly, or behind an
equals sign. -/
def letters (p : Progress) : List Char → Except Stop Progress
  | [] => .ok p
  | c :: rest =>
    match Flag.ofLetter? c, Setting.ofLetter? c with
    | some f, _ => do (← p.raise f).letters rest
    | none, some s =>
      p.open? s (match rest with
        | [] => none
        | '=' :: value => some (String.ofList value)
        | value => some (String.ofList value))
    | none, none => .error (.error .unknownArgument)

def word (p : Progress) (name : String) (joined : Option String) : Except Stop Progress :=
  match Flag.ofName? name, Setting.ofName? name with
  | some f, _ => if joined.isSome then .error (.error .valueForFlag) else p.raise f
  | none, some s => p.open? s joined
  | none, none => .error (.error .unknownArgument)

def value (p : Progress) (text : String) : Except Stop Progress :=
  match p.literal, p.pending with
  | false, .awaiting s => .ok { p with pending := .setting s text }
  | _, _ => do
    if p.named then throw (.error .unknownArgument)
    let p ← p.settle
    return { p with pending := .file text, named := true }

def step (p : Progress) (text : String) : Except Stop Progress :=
  if p.literal then p.value text
  else match text.toList with
    | ['-', '-'] => .ok { p with literal := true }
    | '-' :: '-' :: rest =>
      match rest.span (· ≠ '=') with
      | (name, []) => p.word (String.ofList name) none
      | (name, _ :: joined) => p.word (String.ofList name) (some (String.ofList joined))
    | '-' :: c :: rest => p.letters (c :: rest)
    | _ => p.value text

end Progress

def isComplete (a : Arguments) : Bool :=
  (a.file.isSome || a.listThemes || a.saveTheme) && (a.theme.isSome || !a.saveTheme)

def parse (texts : List String) : Except UsageError Request :=
  match (do (← texts.foldlM Progress.step {}).settle : Except Stop Progress) with
  | .ok p => if p.arguments.isComplete then .ok (.run p.arguments) else .error .missingArgument
  | .error .help => .ok .help
  | .error .version => .ok .version
  | .error (.error e) => .error e

def resolveLanguage (a : Arguments) (c : Config) : Except UnknownLanguage Language :=
  match a.language with
  | some name =>
    match Language.ofName? name with
    | some l => .ok l
    | none => .error ⟨name⟩
  | none => .ok ((a.file.map c.languageFor).getD .plainText)

def lineFilter (a : Arguments) : Except LineFilterError (Option LineFilter) :=
  match a.lines with
  | some spec => some <$> LineFilter.ofSpec spec
  | none => .ok none

end Arguments
end LineTint
