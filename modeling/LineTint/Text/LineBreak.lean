import LineTint.Span

namespace LineTint
namespace Text

/-- Characters that end a line on their own. CR LF ends one line, not two. -/
def isBreak (c : Char) : Bool :=
  c == '\n' || c == '\r' || c == '\x0b' || c == '\x0c' || c == '\u0085' || c == '\u2028' ||
    c == '\u2029'

def byteLength (cs : List Char) : Nat := cs.foldr (·.utf8Size + ·) 0

/-- The lines of a text, each with its break, when the first has begun with `acc`, last character
first. What follows the last break is a line even if it is empty. -/
def linesFrom (acc : List Char) : List Char → List (List Char)
  | [] => [acc.reverse]
  | '\r' :: '\n' :: rest => (acc.reverse ++ ['\r', '\n']) :: linesFrom [] rest
  | c :: rest =>
    if isBreak c then (acc.reverse ++ [c]) :: linesFrom [] rest else linesFrom (c :: acc) rest

def lines (text : List Char) : List (List Char) := linesFrom [] text

/-- Bytes of a line without its break, which is looked for from the line's end. -/
def contentLength (line : List Char) : Nat :=
  match line.reverse with
  | '\n' :: '\r' :: _ => byteLength line - 2
  | '\n' :: _ => byteLength line - 1
  | c :: _ =>
    if c ∈ ['\r', '\x0b', '\x0c', '\u0085', '\u2028', '\u2029'] then byteLength line - c.utf8Size
    else byteLength line
  | [] => byteLength line

def spansFrom (start : Nat) : List (List Char) → List Span
  | [] => []
  | line :: rest =>
    ⟨UInt64.ofNat start, UInt64.ofNat (contentLength line)⟩ :: spansFrom (start + byteLength line) rest

end Text

def lineSpans (text : String) : List Span := Text.spansFrom 0 (Text.lines text.toList)

end LineTint
