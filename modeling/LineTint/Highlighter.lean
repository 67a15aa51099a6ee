import LineTint.Painting
import LineTint.Parser
import LineTint.Query

namespace LineTint

inductive HighlightError where
  | noParser
  | noTree
  | noQuery
deriving DecidableEq, Repr

def HighlightError.message : HighlightError → String
  | .noParser => "no parser configured"
  | .noTree => "parser has not produced a tree yet"
  | .noQuery => "highlight query not compiled"

structure Highlighter (P Query : Type) where
  policy : StylePolicy
  parser : Option P := none
  slot : QuerySlot Query := {}
  cache : Cache := {}

namespace Highlighter

variable {P Tree Query : Type}

def generation (h : Highlighter P Query) : Generation := h.slot.generation

def reset (h : Highlighter P Query) : Highlighter P Query :=
  { h with slot := h.slot.reset, cache := {} }

def store (h : Highlighter P Query) (line : LineId) (tokens : List Token) (g : Generation) :
    Bool × Highlighter P Query :=
  if g = h.generation then (true, { h with cache := h.cache.store line tokens g }) else (false, h)

def fetch (h : Highlighter P Query) (line : LineId) : Option (List Token) :=
  h.cache.fetch line h.generation

def invalidate (h : Highlighter P Query) (line : LineId) : Highlighter P Query :=
  { h with cache := h.cache.invalidate line }

def pruneStale (h : Highlighter P Query) : Highlighter P Query :=
  { h with cache := h.cache.retain h.generation }

def clear (h : Highlighter P Query) : Highlighter P Query := { h with cache := {} }

/-- Takes another parser, or none. It may have another grammar, so the query goes too. -/
def setParser (h : Highlighter P Query) (parser : Option P) : Highlighter P Query :=
  { h with parser }.reset

/-- Takes another policy. Tokens hold colors, so none of them stays. -/
def setPolicy (h : Highlighter P Query) (policy : StylePolicy) : Highlighter P Query :=
  { h with policy }.reset

def mapParser (h : Highlighter P Query) (f : P → P) : Highlighter P Query :=
  { h with parser := h.parser.map f }

/-- To be called when the tree has changed as a whole. -/
def treeReplaced (h : Highlighter P Query) : Highlighter P Query := h.clear

def attributes (h : Highlighter P Query) (captures : List Capture) (line : Span) : List Token :=
  paint h.policy line captures

def cachedLines (h : Highlighter P Query) : Nat := h.cache.size

variable [SyntaxParser P Tree]

def canHighlight (h : Highlighter P Query) : Bool := (h.parser.bind SyntaxParser.tree?).isSome

def prepare (e : Engine Tree Query) (h : Highlighter P Query) : Highlighter P Query :=
  { h with slot := h.slot.prepare e.compile (h.parser.bind SyntaxParser.grammar?) }

/-- Captures that only serve the query itself begin with an underscore. -/
def isPrivate (c : Capture) : Bool := c.tag.startsWith "_"

def captures (e : Engine Tree Query) (h : Highlighter P Query) (span : Span) :
    Except HighlightError (List Capture) :=
  match h.parser with
  | none => .error .noParser
  | some p =>
    match SyntaxParser.tree? p with
    | none => .error .noTree
    | some tree =>
      match h.slot.query? with
      | none => .error .noQuery
      | some q =>
        .ok ((e.captures q tree (SyntaxParser.text p) span).filter fun c => !isPrivate c)

def tokensForLine (e : Engine Tree Query) (h : Highlighter P Query) (line : LineId) (span : Span) :
    Except HighlightError (List Token) × Highlighter P Query :=
  let h := h.prepare e
  let (tokens, cache) := Id.run (h.cache.getOrInsertM line h.generation
    ((h.captures e span).map fun cs => h.attributes cs span))
  (tokens, { h with cache })

/-- To be called when the parser has a new tree. Of the lines given with their new spans those stay
that meet no change, also if they have moved; where changes are not known none stays. -/
def reparsed (h : Highlighter P Query) (lines : List (LineId × Span)) : Highlighter P Query :=
  match h.parser.bind SyntaxParser.changes? with
  | none => h.treeReplaced
  | some changes =>
    lines.foldl (fun h (line, span) =>
      if changes.any (·.touches span) then h.invalidate line else h) h

end Highlighter
end LineTint
