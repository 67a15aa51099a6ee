import LineTint.Edit
import LineTint.Grammar
import LineTint.Token

namespace LineTint

/-- What parses texts and runs queries over their trees. Highlighting relies on nothing else about it. -/
structure Engine (Tree Query : Type) where
  compile : Grammar → Option Query
  /-- The tree of a text. The tree of an earlier version, with the edit that leads from it, may
  save work. -/
  parse : Grammar → Option (Tree × Edit) → String → Tree
  /-- Where the new tree differs from the old one, in the new version of the text. -/
  differences : Tree → Edit → Tree → List Span
  captures : Query → Tree → String → Span → List Capture

end LineTint
