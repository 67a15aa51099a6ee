import LineTint.Arguments
import LineTint.Highlighter
import LineTint.Manual
import LineTint.Report
import LineTint.Text.LineBreak

namespace LineTint

inductive Failure where
  | theme (cause : LoadError)
  | config (cause : ConfigError)
  | noFile
  | language (cause : UnknownLanguage)
  | lines (cause : LineFilterError)
  | noGrammar (file : FilePath) (language : Language)
  | unreadable (file : FilePath) (cause : FileError)
  | noQuery (language : Language)
  | highlight (cause : HighlightError)
deriving DecidableEq, Repr

def Failure.message : Failure → String
  | .theme cause => cause.message
  | .config cause => cause.message
  | .noFile => "No file given"
  | .language cause => cause.message
  | .lines cause => cause.message
  | .noGrammar file l => "No syntax highlighting for " ++ file ++ " (" ++ l.title ++ ")"
  | .unreadable file cause =>
    "Failed to read " ++ file ++ "\n\nCaused by:\n    " ++ cause.message
  | .noQuery l => "Highlight query for " ++ l.title ++ " failed to compile (see log)"
  | .highlight cause => cause.message

inductive Ending where
  | done
  | failed (cause : Failure)
  | misused (cause : UsageError)
deriving DecidableEq, Repr

def Ending.exitCode : Ending → UInt32
  | .done => 0
  | .failed _ => 1
  | .misused _ => 2

structure Outcome where
  output : List String
  ending : Ending
deriving DecidableEq, Repr

/-- An outcome from what is printed before the first failure, if there is one. -/
def Outcome.ofPrinted (output : List String) : Option Failure → Outcome
  | none => ⟨output, .done⟩
  | some cause => ⟨output, .failed cause⟩

namespace Program

variable {Tree Query : Type}

structure Job (Tree Query : Type) where
  source : String
  highlighter : Highlighter (IncrementalParser Tree) Query
  filter : Option LineFilter
  json : Bool

def chosenLines (filter : Option LineFilter) (source : String) : List (Span × Nat) :=
  (lineSpans source).zipIdx.filter fun (_, i) => filter.all (·.contains i)

/-- The reports of lines, up to the first whose tokens are not to be had. -/
def reports (e : Engine Tree Query) (source : ByteArray)
    (h : Highlighter (IncrementalParser Tree) Query) :
    List (Span × Nat) → List LineReport × Option HighlightError
  | [] => ([], none)
  | (span, i) :: rest =>
    match h.tokensForLine e (UInt64.ofNat i) span with
    | (.error cause, _) => ([], some cause)
    | (.ok tokens, h) =>
      let (more, cause) := reports e source h rest
      (⟨i + 1, source.extract span.start.toNat span.stop.toNat, tokens⟩ :: more, cause)

def Job.run (e : Engine Tree Query) (j : Job Tree Query) : Outcome :=
  let (reports, cause) := reports e j.source.toUTF8 j.highlighter (chosenLines j.filter j.source)
  .ofPrinted (reports.flatMap (·.printed j.json)) (cause.map .highlight)

def prepare (e : Engine Tree Query) (home : Home) (fs : FileSystem) (a : Arguments) (c : Config)
    (t : Theme) : Except Failure (Job Tree Query) := do
  let some file := a.file | throw .noFile
  let language ← (a.resolveLanguage c).mapError .language
  let filter ← a.lineFilter.mapError .lines
  let some grammar := Grammar.load? fs home c.userQueries language
    | throw (.noGrammar file language)
  let source ← (fs.readText file).mapError (.unreadable file)
  let parser : IncrementalParser Tree := { grammar }
  let highlighter : Highlighter (IncrementalParser Tree) Query :=
    { policy := t.policy, parser := some (parser.parse e source) }
  let highlighter := highlighter.prepare e
  if highlighter.slot.isReady then return { source, highlighter, filter, json := a.json }
  else throw (.noQuery language)

/-- Highlights the file of the arguments; without one there is nothing to do after a theme has been
saved. -/
def highlight (e : Engine Tree Query) (home : Home) (fs : FileSystem) (a : Arguments) (c : Config)
    (t : Theme) : Outcome :=
  if a.file.isNone && a.saveTheme then ⟨[], .done⟩
  else match prepare e home fs a c t with
    | .ok job => job.run e
    | .error cause => ⟨[], .failed cause⟩

def chooseTheme (home : Home) (fs : FileSystem) (a : Arguments) (c : Config) :
    FileSystem × Except Failure Theme :=
  let id := a.theme.getD c.theme
  match Theme.load fs home id with
  | .error cause => (fs, .error (.theme cause))
  | .ok t =>
    if a.saveTheme then
      match { c with theme := id }.save fs home.config with
      | (fs, .error cause) => (fs, .error (.config cause))
      | (fs, .ok ()) => (fs, .ok t)
    else (fs, .ok t)

def perform (e : Engine Tree Query) (home : Home) (fs : FileSystem) (a : Arguments) :
    FileSystem × Outcome :=
  let (fs, _) := home.makeLogs fs
  if a.listThemes then (fs, ⟨(Theme.list fs home).map (·.row), .done⟩)
  else
    let c := Config.load fs home.config
    match chooseTheme home fs a c with
    | (fs, .error cause) => (fs, ⟨[], .failed cause⟩)
    | (fs, .ok t) => (fs, highlight e home fs a c t)

def run (e : Engine Tree Query) (home : Home) (fs : FileSystem) (arguments : List String) :
    FileSystem × Outcome :=
  match Arguments.parse arguments with
  | .ok (.run a) => perform e home fs a
  | .ok .help => (fs, ⟨Manual.help, .done⟩)
  | .ok .version => (fs, ⟨[Manual.version], .done⟩)
  | .error cause => (fs, ⟨[], .misused cause⟩)

end Program
end LineTint
