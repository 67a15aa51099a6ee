import LineTint.Engine

namespace LineTint

class SyntaxParser (P : Type) (Tree : outParam Type) where
  grammar? : P → Option Grammar
  tree? : P → Option Tree
  text : P → String
  changes? : P → Option (List Span)

structure IncrementalParser (Tree : Type) where
  grammar : Grammar
  tree : Option Tree := none
  source : String := ""
  /-- What the last parse has changed; none if it began from nothing. -/
  changes : Option (List Span) := none
deriving Repr

namespace IncrementalParser

variable {Tree Query : Type}

def parse (e : Engine Tree Query) (p : IncrementalParser Tree) (text : String) :
    IncrementalParser Tree :=
  match p.tree with
  | none => { p with tree := some (e.parse p.grammar none text), source := text, changes := none }
  | some old =>
    match Edit.between (Text.bytes p.source) (Text.bytes text) with
    | none => { p with changes := some [] }
    | some edit =>
      let tree := e.parse p.grammar (some (old, edit)) text
      { p with
        tree := some tree, source := text
        changes := some (edit.span :: e.differences old edit tree) }

def clear (p : IncrementalParser Tree) : IncrementalParser Tree := { grammar := p.grammar }

instance : SyntaxParser (IncrementalParser Tree) Tree where
  grammar? p := some p.grammar
  tree? p := p.tree
  text p := p.source
  changes? p := p.changes

end IncrementalParser
end LineTint
