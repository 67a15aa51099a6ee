import LineTint.Yaml.Atom
import LineTint.Yaml.Node

namespace LineTint.Yaml

inductive Misfit where
  | missingField (name : String)
  | duplicateField (name : String)
  | wrongType (found expected : String)
  | wrongValue (found expected : String)
  | noForm (type : String)
  /-- A tag of the text's own on a value whose type is not known. -/
  | tagged
deriving DecidableEq, Repr

def Misfit.message : Misfit → String
  | .missingField name => "missing field `" ++ name ++ "`"
  | .duplicateField name => "duplicate field `" ++ name ++ "`"
  | .wrongType found expected => "invalid type: " ++ found ++ ", expected " ++ expected
  | .wrongValue found expected => "invalid value: " ++ found ++ ", expected " ++ expected
  | .noForm type => "data did not match any variant of untagged enum " ++ type
  | .tagged => "untagged and internally tagged enums do not support enum input"

abbrev Path := String

namespace Path

def root : Path := ""

def key (p : Path) (k : String) : Path := if p.isEmpty then k else p ++ "." ++ k

def item (p : Path) (i : Nat) : Path := p ++ "[" ++ toString i ++ "]"

end Path

structure Place where
  path : Path
  mark : Mark
deriving DecidableEq, Repr

inductive ReadError where
  | misfit (what : Misfit) (place : Place)
  | malformed (what : Malformed)
  | tooDeep (mark : Mark)
  | tooManyAliases
  | severalDocuments
deriving DecidableEq, Repr

def ReadError.message : ReadError → String
  | .misfit what place =>
    (if place.path.isEmpty then "" else place.path ++ ": ") ++ what.message ++ place.mark.suffix
  | .malformed what => what.message
  | .tooDeep mark => "recursion limit exceeded" ++ mark.suffix
  | .tooManyAliases => "repetition limit exceeded"
  | .severalDocuments =>
    "deserializing from YAML containing more than one document is not supported"

namespace Node

mutual

def anchored : Node → List (Nat × Node)
  | .scalar head form text =>
    match head.anchor with
    | some n => [(n, .scalar head form text)]
    | none => []
  | .sequence head items =>
    let inner := anchoredItems items
    match head.anchor with
    | some n => (n, .sequence head items) :: inner
    | none => inner
  | .mapping head entries =>
    let inner := anchoredEntries entries
    match head.anchor with
    | some n => (n, .mapping head entries) :: inner
    | none => inner
  | .alias _ => []
  | .cut => []

def anchoredItems : List Node → List (Nat × Node)
  | [] => []
  | n :: ns => anchored n ++ anchoredItems ns

def anchoredEntries : List (Node × Node) → List (Nat × Node)
  | [] => []
  | (k, v) :: es => anchored k ++ anchored v ++ anchoredEntries es

end

def closed (inner : Nat × Bool) : Nat × Bool := (inner.1 + if inner.2 then 2 else 1, inner.2)

def joined (first rest : Nat × Bool) : Nat × Bool := (first.1 + rest.1, first.2 && rest.2)

mutual

/-- The number of marks in a text that a node takes, one for each end of a collection and one for
all else, and whether the text goes on behind the node. -/
def marks : Node → Nat × Bool
  | .sequence _ items => closed (itemMarks items)
  | .mapping _ entries => closed (entryMarks entries)
  | .scalar _ _ _ => (1, true)
  | .alias _ => (1, true)
  | .cut => (0, false)

def itemMarks : List Node → Nat × Bool
  | [] => (0, true)
  | n :: ns => joined (marks n) (itemMarks ns)

def entryMarks : List (Node × Node) → Nat × Bool
  | [] => (0, true)
  | (k, v) :: es => joined (marks k) (joined (marks v) (entryMarks es))

end

def isCut (n : Node) : Bool := !n.marks.2

def head : Node → Head
  | .scalar head _ _ => head
  | .sequence head _ => head
  | .mapping head _ => head
  | .alias _ => { mark := {} }
  | .cut => { mark := {} }

end Node

structure Source where
  anchored : List (Nat × Node)
  limit : Nat
  failure : Malformed

abbrev ReadM := StateT Nat (Except ReadError)

inductive Value where
  | atom (a : Atom)
  | list (items : List Value)
  | record (entries : List (Value × Value))

def isLocal (tag : TagText) : Bool := tag.head? = some '!'.toUInt8

/-- Whether a tag names a variant: it is local, and what follows its mark is a text. -/
def isVariant (tag : TagText) : Bool := isLocal tag && (Text.decode? (tag.drop 1)).isSome

/-- What a scalar stands for. A tag for a truth value, a number or null asks for one; any other tag
that does not begin with `!` makes it a text. -/
def Atom.ofScalar (tag : Option TagText) (form : ScalarForm) (text : String) : Except Misfit Atom :=
  let cs := text.toList
  let forced (atom : Option Atom) (expected : String) : Except Misfit Atom :=
    match atom with
    | some a => .ok a
    | none => .error (.wrongValue (Atom.string text).describe expected)
  match tag with
  | none => .ok (if form = .plain then .ofPlain text else .string text)
  | some tag =>
    if tag = coreTag "bool" then forced ((bool? text).map .bool) "a boolean"
    else if tag = coreTag "int" then
      forced ((integer? cs).map fun (negative, n) => .integer negative n) "an integer"
    else if tag = coreTag "float" then forced ((real? cs).map .real) "a float"
    else if tag = coreTag "null" then forced (if isNull text then some .null else none) "null"
    else if isLocal tag && form = .plain then .ok (.ofPlain text)
    else .ok (.string text)

namespace Source

variable (s : Source)

def ofDocument (d : Document) : Source × Node :=
  let root := d.root.getD (.missing d.stop)
  let size := if d.root.isNone then 1 else root.marks.1
  ({ anchored := root.anchored, limit := 100 * size, failure := d.failure.getD default }, root)

def failMalformed {α : Type} : ReadM α := throw (.malformed s.failure)

/-- The node itself, or the one that an alias stands for. Of anchors with one number the last
counts, also for aliases in front of it. -/
def follow (n : Node) : ReadM Node := do
  match n with
  | .alias target =>
    let jumps ← get
    set (jumps + 1)
    if s.limit < jumps + 1 then throw .tooManyAliases
    match s.anchored.reverse.lookup target with
    | some n => return n
    | none => s.failMalformed
  | .cut => s.failMalformed
  | n => return n

def ignore (n : Node) : ReadM Unit := if n.isCut then s.failMalformed else pure ()

end Source

def misfit {α : Type} (path : Path) (mark : Mark) (what : Misfit) : ReadM α :=
  throw (.misfit what ⟨path, mark⟩)

def Node.misfit (n : Node) (expected : String) : Misfit :=
  match n with
  | .scalar head form text =>
    match Atom.ofScalar head.tag form text with
    | .ok a => .wrongType a.describe expected
    | .error e => e
  | .sequence _ _ => .wrongType "sequence" expected
  | _ => .wrongType "map" expected

def readString (s : Source) (expected : String) (path : Path) (n : Node) : ReadM String := do
  match ← s.follow n with
  | .scalar _ _ text => return text
  | n => misfit path n.head.mark (n.misfit expected)

def isLoose (head : Head) (form : ScalarForm) (core : String) : Bool :=
  form = .plain || (form = .literal && head.tag = some (coreTag core))

def readBool (s : Source) (path : Path) (n : Node) : ReadM Bool := do
  let n ← s.follow n
  match n with
  | .scalar head form text =>
    match if isLoose head form "bool" then Atom.bool? text else none with
    | some b => return b
    | none => misfit path head.mark (n.misfit "a boolean")
  | n => misfit path n.head.mark (n.misfit "a boolean")

def readWord (s : Source) (path : Path) (n : Node) : ReadM UInt32 := do
  let n ← s.follow n
  match n with
  | .scalar head form text =>
    match if isLoose head form "int" then Atom.integer? text.toList else none with
    | some (false, i) =>
      if Atom.fits 32 false i then return UInt32.ofNat i
      else if Atom.fits 64 false i then
        misfit path head.mark (.wrongValue (Atom.integer false i).describe "u32")
      else misfit path head.mark (n.misfit "u32")
    | _ => misfit path head.mark (n.misfit "u32")
  | n => misfit path n.head.mark (n.misfit "u32")

/-- The entries of a mapping, and where it begins. Nothing at all is an empty mapping. -/
def readEntries (s : Source) (expected : String) (path : Path) (n : Node) :
    ReadM (Mark × List (Node × Node)) := do
  match ← s.follow n with
  | .mapping head entries => return (head.mark, entries)
  | .scalar head .plain "" => return (head.mark, [])
  | n => misfit path n.head.mark (n.misfit expected)

def Path.under (p : Path) (k : Node) : Path :=
  match k with
  | .scalar _ _ text => p.key text
  | _ => p.key "?"

def maxDepth : Nat := 128

def readValue (s : Source) : Nat → Path → Node → ReadM Value
  | depth, path, n => do
    let n ← s.follow n
    let mark := n.head.mark
    if n.head.tag.any isVariant then misfit path mark .tagged
    else match n with
      | .scalar head form text =>
        match Atom.ofScalar head.tag form text with
        | .error e => misfit path mark e
        | .ok (.integer negative i) =>
          if Atom.fits 64 negative i then return .atom (.integer negative i)
          else misfit path mark (.wrongType (Atom.integer negative i).describe "any value")
        | .ok a => return .atom a
      | .sequence _ items =>
        match depth with
        | 0 => throw (.tooDeep mark)
        | depth + 1 =>
          return .list (← items.zipIdx.mapM fun (item, i) => readValue s depth (path.item i) item)
      | .mapping _ entries =>
        match depth with
        | 0 => throw (.tooDeep mark)
        | depth + 1 =>
          return .record (← entries.mapM fun (k, v) => do
            let key ← readValue s depth path k
            return (key, ← readValue s depth (path.under k) v))
      | _ => s.failMalformed

def readDocument {α : Type} (d : Document) (read : Source → Node → ReadM α) : Except ReadError α := do
  let (s, root) := Source.ofDocument d
  let (a, _) ← (read s root).run 0
  match d.failure with
  | some e => throw (.malformed e)
  | none => if d.more then throw .severalDocuments else return a

def readText {α : Type} (text : String) (read : Source → Node → ReadM α) : Except ReadError α :=
  readDocument (.ofText text) read

end LineTint.Yaml
