import LineTint.Color

namespace LineTint

structure FontStyle where
  bold : Bool := false
  italic : Bool := false
deriving DecidableEq, Repr, Inhabited

def FontStyle.isPlain (f : FontStyle) : Bool := !f.bold && !f.italic

structure Style where
  color : Option Color := none
  font : FontStyle := {}
deriving DecidableEq, Repr, Inhabited

def Style.isVisible (s : Style) : Bool := s.color.isSome || !s.font.isPlain

abbrev StylePolicy := String → Style

end LineTint
