import LineTint.Yaml.Token
import LineTint.Text.Digit
import LineTint.Text.Utf8

namespace LineTint.Yaml

/-- White space between two parts of a flow scalar. Blanks count up to the first break, breaks from
there on. -/
structure Gap where
  blanks : List Char := []
  broken : Bool := false
  first : Option Char := none
  more : List Char := []

namespace Gap

def isEmpty (g : Gap) : Bool := g.blanks.isEmpty && !g.broken

def addBlank (g : Gap) (c : Char) : Gap := if g.broken then g else { g with blanks := c :: g.blanks }

def addBreak (g : Gap) (c : Char) : Gap :=
  if g.broken then { g with more := normalBreak c :: g.more }
  else { broken := true, first := some (normalBreak c) }

def folded (g : Gap) : List Char :=
  if !g.broken then g.blanks
  else match g.first with
    | none => g.more
    | some '\n' => if g.more.isEmpty then [' '] else g.more
    | some c => g.more ++ [c]

end Gap

structure Scanned where
  text : String
  stop : Mark
  cursor : Cursor
  broken : Bool := false
  seen : Nat := 1

def textOf (reversed : List Char) : String := String.ofList reversed.reverse

def isFlowEnd (c : Char) : Bool := c == ',' || c == '[' || c == ']' || c == '\x7b' || c == '\x7d'

namespace Plain

structure Bounds where
  flow : Bool
  indent : Nat

def isOutdented (b : Bounds) (gap : Gap) (column : Nat) : Bool :=
  !gap.isEmpty && !b.flow && column < b.indent

def endsAfterGap (gap : Gap) (column : Nat) (text : List Char) : Bool :=
  !gap.isEmpty && ((column == 0 && atDocumentMarker text) || text.head? == some '#')

def strayColon (b : Bounds) (text : List Char) : Bool :=
  match text with
  | ':' :: c :: _ => b.flow && (isFlowEnd c || c == '?')
  | _ => false

def endsHere (b : Bounds) (text : List Char) : Bool :=
  match text with
  | ':' :: rest => atSpace rest
  | c :: _ => b.flow && isFlowEnd c
  | [] => true

/-- The rest of a plain scalar of which `text` is read, last character first, and then `gap`, while
`seen` further characters have been looked at. -/
def scanFrom (b : Bounds) (start : Mark) (text : List Char) (gap : Gap) (stop : Mark) (seen : Nat) :
    List Char → Mark → Except Malformed Scanned
  | [], m => .ok ⟨textOf text, stop, ⟨[], m⟩, gap.broken, 1⟩
  | '\r' :: '\n' :: rest, m =>
    scanFrom b start text (gap.addBreak '\n') stop (max (seen - 2) 1) rest m.nextLineCrLf
  | c :: rest, m =>
    if isBreak c then
      scanFrom b start text (gap.addBreak c) stop (max (seen - 1) 1) rest (m.nextLine c)
    else if isBlank c then
      if gap.broken && m.column < b.indent && c == '\t' then
        .error ⟨"found a tab character that violates indentation", start⟩
      else scanFrom b start text (gap.addBlank c) stop (max (seen - 1) 1) rest (m.next c)
    else
      let ended (seen : Nat) : Scanned := ⟨textOf text, stop, ⟨c :: rest, m⟩, gap.broken, seen⟩
      let ahead := if gap.isEmpty then seen else 4
      if isOutdented b gap m.column then .ok (ended seen)
      else if endsAfterGap gap m.column (c :: rest) then .ok (ended ahead)
      else if strayColon b (c :: rest) then .error ⟨"found unexpected ':'", start⟩
      else if endsHere b (c :: rest) then .ok (ended ahead)
      else
        scanFrom b start (c :: gap.folded ++ text) {} (m.next c) (max (ahead - 1) 2) rest (m.next c)

def scan (b : Bounds) (c : Cursor) : Except Malformed Scanned :=
  scanFrom b c.mark [] {} c.mark 4 c.rest c.mark

end Plain

namespace Quoted

def simpleEscape? : Char → Option Char
  | '0' => some '\x00'
  | 'a' => some '\x07'
  | 'b' => some '\x08'
  | 't' => some '\t'
  | '\t' => some '\t'
  | 'n' => some '\n'
  | 'v' => some '\x0b'
  | 'f' => some '\x0c'
  | 'r' => some '\r'
  | 'e' => some '\x1b'
  | ' ' => some ' '
  | '"' => some '"'
  | '/' => some '/'
  | '\\' => some '\\'
  | 'N' => some '\u0085'
  | '_' => some '\u00a0'
  | 'L' => some '\u2028'
  | 'P' => some '\u2029'
  | _ => none

def codeWidth? : Char → Option Nat
  | 'x' => some 2
  | 'u' => some 4
  | 'U' => some 8
  | _ => none

structure Code where
  owed : Nat
  value : Nat := 0

/-- The rest of a quoted scalar of which `text` is read, last character first, then `gap`, and then
the start of an escape, if one is open, while `seen` further characters have been looked at. -/
def scanFrom (single : Bool) (start : Mark) (text : List Char) (gap : Gap) (code : Option Code)
    (seen : Nat) : List Char → Mark → Except Malformed Scanned
  | [], _ => .error ⟨"found unexpected end of stream", start⟩
  | c :: rest, m =>
    match code with
    | some code =>
      match Digit.value? c with
      | none => .error ⟨"did not find expected hexdecimal number", start⟩
      | some d =>
        let value := code.value * 16 + d
        if 1 < code.owed then
          scanFrom single start text {} (some ⟨code.owed - 1, value⟩) 2 rest (m.next c)
        else if value.isValidChar then
          scanFrom single start (Char.ofNat value :: text) {} none 2 rest (m.next c)
        else .error ⟨"found invalid Unicode character escape code", start⟩
    | none =>
      if isBreak c then
        match c, rest with
        | '\r', '\n' :: rest =>
          scanFrom single start text (gap.addBreak '\n') none 4 rest m.nextLineCrLf
        | c, rest => scanFrom single start text (gap.addBreak c) none 4 rest (m.nextLine c)
      else if isBlank c then scanFrom single start text (gap.addBlank c) none 4 rest (m.next c)
      else if m.column == 0 && atDocumentMarker (c :: rest) then
        .error ⟨"found unexpected document indicator", start⟩
      else
        let text := gap.folded ++ text
        let seenBehind := max ((if gap.isEmpty then seen else 4) - 1) 2
        if single then
          match c, rest with
          | '\'', '\'' :: rest =>
            scanFrom single start ('\'' :: text) {} none 2 rest (m.forward ['\'', '\''])
          | '\'', rest => .ok ⟨textOf text, m.next c, ⟨rest, m.next c⟩, false, seen - 1⟩
          | c, rest => scanFrom single start (c :: text) {} none seenBehind rest (m.next c)
        else
          match c, rest with
          | '"', rest => .ok ⟨textOf text, m.next c, ⟨rest, m.next c⟩, false, seen - 1⟩
          | '\\', '\r' :: '\n' :: rest =>
            scanFrom single start text { broken := true } none 1 rest (m.next c).nextLineCrLf
          | '\\', e :: rest =>
            if isBreak e then
              scanFrom single start text { broken := true } none (max (seenBehind - 1) 1) rest
                ((m.next c).nextLine e)
            else match simpleEscape? e, codeWidth? e with
              | some a, _ => scanFrom single start (a :: text) {} none 2 rest (m.forward [c, e])
              | none, some n =>
                scanFrom single start text {} (some { owed := n }) 2 rest (m.forward [c, e])
              | none, none => .error ⟨"found unknown escape character", start⟩
          | c, rest => scanFrom single start (c :: text) {} none seenBehind rest (m.next c)

def scan (single : Bool) (c : Cursor) : Except Malformed Scanned :=
  scanFrom single c.mark [] {} none 4 c.skip.rest c.skip.mark

end Quoted

namespace Block

inductive Chomping where
  | strip
  | clip
  | keep
deriving DecidableEq

structure Header where
  chomping : Chomping := .clip
  increment : Option Nat := none

def chomping? : Char → Option Chomping
  | '+' => some .keep
  | '-' => some .strip
  | _ => none

def increment? (c : Char) : Option Nat :=
  if c.isDigit then some (c.toNat - '0'.toNat) else none

def scanHeader (c : Cursor) : Except Malformed (Header × Cursor) :=
  let zero := c.fail "found an indentation indicator equal to 0"
  match c.rest with
  | [] => .ok ({}, c)
  | a :: rest =>
    match chomping? a, increment? a with
    | some chomping, _ =>
      match rest.head?.bind increment? with
      | some 0 => zero
      | some n => .ok ({ chomping, increment := some n }, c.skipMany 2)
      | none => .ok ({ chomping }, c.skip)
    | none, some 0 => zero
    | none, some n =>
      match rest.head?.bind chomping? with
      | some chomping => .ok ({ chomping, increment := some n }, c.skipMany 2)
      | none => .ok ({ increment := some n }, c.skip)
    | none, none => .ok ({}, c)

/-- The breaks of empty lines, last first, the place behind the last of them, and the greatest
column reached. -/
structure Breaks where
  breaks : List Char := []
  stop : Mark
  widest : Nat := 0

def scanBreaks (indent : Option Nat) (start : Mark) (b : Breaks) :
    List Char → Mark → Except Malformed (Breaks × Cursor)
  | [], m => .ok ({ b with widest := max b.widest m.column }, ⟨[], m⟩)
  | '\r' :: '\n' :: rest, m =>
    scanBreaks indent start
      ⟨'\n' :: b.breaks, m.nextLineCrLf, max b.widest m.column⟩ rest m.nextLineCrLf
  | c :: rest, m =>
    let inside := match indent with
      | none => true
      | some n => m.column < n
    if c == ' ' && inside then scanBreaks indent start b rest (m.next c)
    else if c == '\t' && inside then
      .error ⟨"found a tab character where an indentation space is expected", start⟩
    else if isBreak c then
      scanBreaks indent start
        ⟨normalBreak c :: b.breaks, m.nextLine c, max b.widest m.column⟩ rest (m.nextLine c)
    else .ok ({ b with widest := max b.widest m.column }, ⟨c :: rest, m⟩)

structure Content where
  text : List Char := []
  ending : Option Char := none
  breaks : List Char
  indented : Bool := false

/-- The text with the white space between it and a further line. In a folded scalar the break
between two lines that begin with no blank becomes a space, or nothing if empty lines follow. -/
def Content.joined (literal : Bool) (c : Content) (nextIndented : Bool) : List Char :=
  let folds := !literal && c.ending == some '\n' && !c.indented && !nextIndented
  let ending := if folds then (if c.breaks.isEmpty then [' '] else []) else c.ending.toList
  c.breaks ++ ending ++ c.text

def scanLines (literal : Bool) (indent : Nat) (start : Mark) :
    Nat → Content → Mark → Cursor → Except Malformed (Content × Mark × Cursor)
  | 0, content, stop, c => .ok (content, stop, c)
  | fuel + 1, content, stop, c =>
    match c.rest with
    | [] => .ok (content, stop, c)
    | a :: _ =>
      if c.mark.column ≠ indent then .ok (content, stop, c)
      else do
        let (line, afterLine) := c.span (!isBreak ·)
        let ending := afterLine.rest.head?.map normalBreak
        let afterBreak := afterLine.skipBreak
        let (b, c) ← scanBreaks (some indent) start { stop := afterBreak.mark }
          afterBreak.rest afterBreak.mark
        scanLines literal indent start fuel
          { text := line.reverse ++ content.joined literal (isBlank a), ending, breaks := b.breaks,
            indented := isBlank a }
          b.stop c

def chomp (chomping : Chomping) (c : Content) : List Char :=
  match chomping with
  | .strip => c.text
  | .clip => c.ending.toList ++ c.text
  | .keep => c.breaks ++ c.ending.toList ++ c.text

def scan (literal : Bool) (parent : Int) (c : Cursor) : Except Malformed Scanned := do
  let start := c.mark
  let (header, c) ← scanHeader c.skip
  let c := c.skipLineTail
  if !atLineEnd c.rest then c.fail "did not find expected comment or line break"
  let c := c.skipBreak
  let given := header.increment.map fun n => parent.toNat + n
  let (b, c) ← scanBreaks given start { stop := c.mark } c.rest c.mark
  let indent := given.getD (max b.widest (max (parent + 1).toNat 1))
  let (content, stop, c) ←
    scanLines literal indent start c.rest.length { breaks := b.breaks } b.stop c
  return { text := textOf (chomp header.chomping content), stop, cursor := c }

end Block
end LineTint.Yaml
