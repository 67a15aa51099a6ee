import LineTint.Cache
import LineTint.Grammar

namespace LineTint

inductive QueryState (Query : Type) where
  | unprepared
  | ready (query : Query)
  /-- The grammar's query did not compile; this is remembered until a reset. -/
  | failed
deriving DecidableEq, Repr

/-- The generation changes whenever a query comes or goes, so tokens of an earlier one are known by their stamp. -/
structure QuerySlot (Query : Type) where
  state : QueryState Query := .unprepared
  generation : Generation := 0
deriving DecidableEq, Repr

namespace QuerySlot

variable {Query : Type}

def query? (s : QuerySlot Query) : Option Query :=
  match s.state with
  | .ready q => some q
  | _ => none

def isReady (s : QuerySlot Query) : Bool := s.query?.isSome

def hasFailed (s : QuerySlot Query) : Bool :=
  match s.state with
  | .failed => true
  | _ => false

def prepareM {m : Type → Type} [Monad m] (compile : Grammar → m (Option Query))
    (grammar : Option Grammar) (s : QuerySlot Query) : m (QuerySlot Query) :=
  match s.state, grammar with
  | .unprepared, some g => do
    match ← compile g with
    | some q => pure { state := .ready q, generation := s.generation + 1 }
    | none => pure { s with state := .failed }
  | _, _ => pure s

def prepare (compile : Grammar → Option Query) (grammar : Option Grammar) (s : QuerySlot Query) :
    QuerySlot Query :=
  Id.run (s.prepareM (fun g => pure (compile g)) grammar)

def reset (s : QuerySlot Query) : QuerySlot Query :=
  { state := .unprepared, generation := s.generation + 1 }

theorem prepare_of_settled {s : QuerySlot Query} (hs : s.state ≠ .unprepared)
    (compile : Grammar → Option Query) (grammar : Option Grammar) : s.prepare compile grammar = s := by
  obtain ⟨state, generation⟩ := s
  cases state with
  | unprepared => exact absurd rfl hs
  | ready q | failed => rfl

theorem prepare_of_ready {s : QuerySlot Query} (hs : s.query?.isSome)
    (compile : Grammar → Option Query) (grammar : Option Grammar) : s.prepare compile grammar = s := by
  apply prepare_of_settled
  intro hstate
  simp [query?, hstate] at hs

end QuerySlot
end LineTint
