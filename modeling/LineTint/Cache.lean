import LineTint.Table
import LineTint.Token

namespace LineTint

/-- Identity of a line, given by the owner of the document; it survives edits elsewhere. -/
abbrev LineId := UInt64

/-- Counts the changes of the query, modulo `2 ^ 64`. -/
abbrev Generation := UInt64

structure Cache.Entry where
  generation : Generation
  tokens : List Token
deriving DecidableEq, Repr

structure Cache where
  table : Table LineId Cache.Entry := .empty
deriving Repr, Inhabited

namespace Cache

def empty : Cache := {}

def find? (c : Cache) (line : LineId) : Option Entry := c.table.get? line

def fetch (c : Cache) (line : LineId) (current : Generation) : Option (List Token) :=
  match c.find? line with
  | some e => if e.generation = current then some e.tokens else none
  | none => none

def invalidate (c : Cache) (line : LineId) : Cache := ⟨c.table.erase line⟩

def store (c : Cache) (line : LineId) (tokens : List Token) (generation : Generation) : Cache :=
  ⟨c.table.insert line ⟨generation, tokens⟩⟩

def retain (c : Cache) (current : Generation) : Cache :=
  ⟨c.table.filter fun _ e => e.generation = current⟩

def size (c : Cache) : Nat := c.table.size

def isEmpty (c : Cache) : Bool := c.table.isEmpty

/-- The current tokens of a line. They are computed only where `fetch` finds none, and stored only
where that succeeds: a failure leaves the cache as it was, a stale entry of the line included. -/
def getOrInsertM {m : Type → Type} {ε : Type} [Monad m] (c : Cache) (line : LineId)
    (current : Generation) (compute : m (Except ε (List Token))) :
    m (Except ε (List Token) × Cache) :=
  match c.fetch line current with
  | some tokens => pure (.ok tokens, c)
  | none => do
    match ← compute with
    | .ok tokens => pure (.ok tokens, c.store line tokens current)
    | .error e => pure (.error e, c)

end Cache
end LineTint
