import LineTint.Text.Blank
import LineTint.Text.Digit

namespace LineTint

/-- The lines from `first` to `last`, counted from zero. -/
structure LineFilter where
  first : Nat
  last : Nat
  first_le_last : first ≤ last
deriving Repr

inductive LineFilterError where
  | notANumber (spec : String)
  | noLines (spec : String)
deriving DecidableEq, Repr

def LineFilterError.message : LineFilterError → String
  | .notANumber spec => "Invalid line number in --lines: " ++ spec
  | .noLines spec => "Empty line range: " ++ spec

namespace LineFilter

def contains (f : LineFilter) (line : Nat) : Bool := f.first ≤ line && line ≤ f.last

def number? (cs : List Char) : Option Nat :=
  let cs := Text.trim cs
  match Digit.number? 10 (if cs.head? = some '+' then cs.tail else cs) with
  | some n => if 0 < n ∧ n < UInt64.size then some n else none
  | none => none

def parts (cs : List Char) : List Char × List Char :=
  match cs.span (· ≠ ':') with
  | (n, _ :: m) => (n, m)
  | (_, []) => (cs, cs)

def ofSpec (spec : String) : Except LineFilterError LineFilter :=
  let (n, m) := parts spec.toList
  match number? n, number? m with
  | some n, some m =>
    if h : n ≤ m then .ok ⟨n - 1, m - 1, Nat.sub_le_sub_right h 1⟩ else .error (.noLines spec)
  | _, _ => .error (.notANumber spec)

end LineFilter
end LineTint
