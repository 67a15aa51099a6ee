import LineTint.Span
import LineTint.Style

namespace LineTint

/-- A tag such as `string.special` and the bytes of the document it covers. The span may reach
beyond the line it was asked for. -/
structure Capture where
  tag : String
  span : Span
deriving DecidableEq, Repr, Inhabited

structure Token where
  span : Span
  color : Option Color
  font : FontStyle
deriving DecidableEq, Repr, Inhabited

def tokenAt (tokens : List Token) (o : Offset) : Option Token :=
  tokens.reverse.find? (·.span.contains o)

end LineTint
