import LineTint.Span
import LineTint.Text.Utf8

namespace LineTint

/-- A position by row and column. Rows end at LF alone, and columns count bytes. -/
structure Point where
  row : Nat := 0
  column : Nat := 0
deriving DecidableEq, Repr, Inhabited

namespace Point

def next (p : Point) (b : UInt8) : Point := if b = 10 then ⟨p.row + 1, 0⟩ else ⟨p.row, p.column + 1⟩

def ofOffset (text : List UInt8) (offset : Nat) : Point := (text.take offset).foldl next {}

end Point

structure Edit where
  start : Nat
  oldEnd : Nat
  newEnd : Nat
  startPoint : Point
  oldEndPoint : Point
  newEndPoint : Point
deriving DecidableEq, Repr

def commonStart : List UInt8 → List UInt8 → Nat
  | a :: as, b :: bs => if a = b then commonStart as bs + 1 else 0
  | _, _ => 0

namespace Edit

/-- The edit between two versions; none if they are the same. -/
def between (old new : List UInt8) : Option Edit :=
  if old = new then none
  else
    let start := commonStart old new
    let kept := commonStart (old.drop start).reverse (new.drop start).reverse
    let oldEnd := old.length - kept
    let newEnd := new.length - kept
    some {
      start, oldEnd, newEnd
      startPoint := .ofOffset old start
      oldEndPoint := .ofOffset old oldEnd
      newEndPoint := .ofOffset new newEnd }

def span (e : Edit) : Span := .ofBounds (UInt64.ofNat e.start) (UInt64.ofNat e.newEnd)

end Edit
end LineTint
