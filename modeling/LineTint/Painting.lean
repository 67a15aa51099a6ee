import LineTint.Token

namespace LineTint

def Capture.paint (policy : StylePolicy) (line : Span) (c : Capture) : Option Token :=
  match c.span.clip line with
  | none => none
  | some span =>
    let style := policy c.tag
    if style.isVisible then some { span, color := style.color, font := style.font } else none

def paint (policy : StylePolicy) (line : Span) (captures : List Capture) : List Token :=
  captures.filterMap (Capture.paint policy line)

end LineTint
