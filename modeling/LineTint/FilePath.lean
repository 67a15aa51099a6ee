import LineTint.Text.Dotted
import LineTint.Text.Utf8

namespace LineTint

abbrev FilePath := String

namespace FilePath

def isAbsolute (p : FilePath) : Bool := p.startsWith "/"

def pieces : List Char → List (List Char)
  | [] => [[]]
  | c :: rest =>
    match pieces rest with
    | piece :: more => if c = '/' then [] :: piece :: more else (c :: piece) :: more
    | [] => [[c]]

def steps (p : FilePath) : List String := (pieces p.toList).map String.ofList

/-- Whether a step stays where it is. -/
def isIdle (step : String) : Bool := step.isEmpty || step = "."

def names (p : FilePath) : List String := p.steps.filter (!isIdle ·)

def join (p q : FilePath) : FilePath :=
  if q.isAbsolute || p.isEmpty then q
  else if p.endsWith "/" then p ++ q
  else p ++ "/" ++ q

def fileName? (p : FilePath) : Option String :=
  match p.names.getLast? with
  | some ".." => none
  | name => name

/-- What stands before and behind the last dot of a file's name. A dot at the start of the name
is not one that divides it. -/
def divide (name : String) : String × Option String :=
  match Text.cutAtDot name.toList with
  | none => (name, none)
  | some ([], _) => (name, none)
  | some (stem, suffix) => (String.ofList stem, some (String.ofList suffix))

def suffix? (p : FilePath) : Option String := p.fileName?.bind (divide · |>.2)

/-- Whether a name goes on with an ending behind one of its dots. The byte in front of the ending is
looked at only where there is one. -/
def hasEnding (name ending : String) : Bool :=
  let bytes := Text.bytes name
  let size := (Text.bytes ending).length
  if _ : size < bytes.length then
    name.endsWith ending && bytes[bytes.length - size - 1] == '.'.toUInt8
  else false

/-- The text of a path up to its last name; none for the root and for the empty path. -/
def parent? (p : FilePath) : Option FilePath :=
  let steps := if p.isAbsolute then p.steps.tail else p.steps
  match steps.reverse.dropWhile isIdle with
  | [] => if p.isAbsolute || p.isEmpty then none else some ""
  | _ :: before =>
    let text := String.intercalate "/" (before.dropWhile isIdle).reverse
    some (if p.isAbsolute then "/" ++ text else text)

end FilePath
end LineTint
