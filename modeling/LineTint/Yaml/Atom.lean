import LineTint.Decimal
import LineTint.Text.Digit
import LineTint.Text.Quoted

namespace LineTint.Yaml

inductive Real where
  | finite (value : Decimal)
  | infinite (negative : Bool)
  | undefined
deriving DecidableEq, Repr

inductive Atom where
  | null
  | bool (value : Bool)
  /-- Zero keeps its sign. -/
  | integer (negative : Bool) (magnitude : Nat)
  | real (value : Real)
  | string (text : String)
deriving DecidableEq, Repr

namespace Atom

def fits (bits : Nat) (negative : Bool) (magnitude : Nat) : Bool :=
  if negative then magnitude ≤ Nat.pow 2 (bits - 1) else magnitude < Nat.pow 2 bits

def integerText (negative : Bool) (magnitude : Nat) : String :=
  let digits := (if negative && magnitude != 0 then "-" else "") ++ toString magnitude
  let longer := if fits 64 negative magnitude then "" else if negative then " as i128" else " as u128"
  "integer `" ++ digits ++ "`" ++ longer

def realText : Real → String
  | .finite d => d.doubleText
  | .infinite negative => if negative then "-inf" else "inf"
  | .undefined => "NaN"

def describe : Atom → String
  | .null => "unit value"
  | .bool b => "boolean `" ++ (if b then "true" else "false") ++ "`"
  | .integer negative magnitude => integerText negative magnitude
  | .real x => "floating point `" ++ realText x ++ "`"
  | .string text => "string " ++ Text.quote text

def isNull (text : String) : Bool := ["null", "Null", "NULL", "~"].contains text

def bool? (text : String) : Option Bool :=
  if ["true", "True", "TRUE"].contains text then some true
  else if ["false", "False", "FALSE"].contains text then some false
  else none

def announcedBase? : List Char → Option (Nat × List Char)
  | '0' :: 'x' :: digits => some (16, digits)
  | '0' :: 'o' :: digits => some (8, digits)
  | '0' :: 'b' :: digits => some (2, digits)
  | _ => none

def unsigned : List Char → List Char
  | '+' :: rest => rest
  | '-' :: rest => rest
  | cs => cs

/-- Decimal digits with a zero in front are a text, not a number. -/
def isPadded (cs : List Char) : Bool :=
  match unsigned cs with
  | '0' :: d :: rest => (d :: rest).all Char.isDigit
  | _ => false

def magnitude? (cs : List Char) : Option Nat :=
  match announcedBase? cs with
  | some (base, digits) => Digit.number? base digits
  | none => Digit.number? 10 cs

def integer? (cs : List Char) : Option (Bool × Nat) :=
  if isPadded cs then none
  else match cs with
    | '-' :: cs => do
      let n ← magnitude? cs
      if fits 128 true n then some (true, n) else none
    | cs => do
      let n ← magnitude? (if cs.head? = some '+' then cs.tail else cs)
      if fits 128 false n then some (false, n) else none

def real? (cs : List Char) : Option Real :=
  let positive := if cs.head? = some '+' then cs.tail else cs
  if positive != cs && (positive.head? = some '+' || positive.head? = some '-') then none
  else
    let text := String.ofList cs
    if [".inf", ".Inf", ".INF"].contains (String.ofList positive) then some (.infinite false)
    else if ["-.inf", "-.Inf", "-.INF"].contains text then some (.infinite true)
    else if [".nan", ".NaN", ".NAN"].contains text then some .undefined
    else (Decimal.ofChars? positive).bind fun d => if d.isFinite then some (.finite d) else none

def ofPlain (text : String) : Atom :=
  let cs := text.toList
  if text.isEmpty || isNull text then .null
  else match bool? text with
    | some b => .bool b
    | none => match integer? cs with
      | some (negative, n) => .integer negative n
      | none =>
        if isPadded cs then .string text
        else match real? cs with
          | some x => .real x
          | none => .string text

end Atom
end LineTint.Yaml
