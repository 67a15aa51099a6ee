namespace LineTint.Yaml

/-- A place in a text: the bytes before it, the lines before it, and the characters of its line
before it. -/
structure Mark where
  index : Nat := 0
  line : Nat := 0
  column : Nat := 0
deriving DecidableEq, Repr, Inhabited

namespace Mark

def next (m : Mark) (c : Char) : Mark := ⟨m.index + c.utf8Size, m.line, m.column + 1⟩

def forward (m : Mark) (cs : List Char) : Mark := cs.foldl next m

def nextLine (m : Mark) (c : Char) : Mark := ⟨m.index + c.utf8Size, m.line + 1, 0⟩

def nextLineCrLf (m : Mark) : Mark := (m.next '\r').nextLine '\n'

def suffix (m : Mark) : String :=
  if m.line = 0 ∧ m.column = 0 then ""
  else " at line " ++ toString (m.line + 1) ++ " column " ++ toString (m.column + 1)

end Mark

structure Malformed where
  problem : String
  mark : Mark
deriving DecidableEq, Repr, Inhabited

def Malformed.message (e : Malformed) : String := e.problem ++ e.mark.suffix

def isBlank (c : Char) : Bool := c == ' ' || c == '\t'

def isBreak (c : Char) : Bool :=
  c == '\n' || c == '\r' || c == '\u0085' || c == '\u2028' || c == '\u2029'

def normalBreak (c : Char) : Char := if c == '\u2028' || c == '\u2029' then c else '\n'

def isWordChar (c : Char) : Bool := c.isAlphanum || c == '_' || c == '-'

def atSpace : List Char → Bool
  | [] => true
  | c :: _ => isBlank c || isBreak c

def atLineEnd : List Char → Bool
  | [] => true
  | c :: _ => isBreak c

def atDocumentMarker : List Char → Bool
  | '-' :: '-' :: '-' :: rest => atSpace rest
  | '.' :: '.' :: '.' :: rest => atSpace rest
  | _ => false

def isAllowed (c : Char) : Bool :=
  c == '\t' || c == '\n' || c == '\r' || ('\x20' ≤ c && c ≤ '\x7e') || c == '\u0085' ||
    ('\u00a0' ≤ c && c != '\ufffe' && c != '\uffff')

structure Cursor where
  rest : List Char
  mark : Mark := {}

namespace Cursor

def skip (c : Cursor) : Cursor :=
  match c.rest with
  | [] => c
  | a :: rest => ⟨rest, c.mark.next a⟩

def skipMany (n : Nat) (c : Cursor) : Cursor := ⟨c.rest.drop n, c.mark.forward (c.rest.take n)⟩

/-- Goes past a break; CR LF is one. -/
def skipBreak (c : Cursor) : Cursor :=
  match c.rest with
  | '\r' :: '\n' :: rest => ⟨rest, c.mark.nextLineCrLf⟩
  | b :: rest => if isBreak b then ⟨rest, c.mark.nextLine b⟩ else c
  | [] => c

def span (p : Char → Bool) (c : Cursor) : List Char × Cursor :=
  let taken := c.rest.takeWhile p
  (taken, ⟨c.rest.dropWhile p, c.mark.forward taken⟩)

def skipWhile (p : Char → Bool) (c : Cursor) : Cursor := (c.span p).2

def skipLineTail (c : Cursor) : Cursor :=
  let c := c.skipWhile isBlank
  match c.rest with
  | '#' :: _ => c.skipWhile (!isBreak ·)
  | _ => c

def fail {α : Type} (c : Cursor) (problem : String) : Except Malformed α := .error ⟨problem, c.mark⟩

end Cursor
end LineTint.Yaml
