namespace LineTint

structure Decimal where
  negative : Bool := false
  digits : Nat
  exponent : Int
deriving DecidableEq, Repr

namespace Decimal

def ofDigits (cs : List Char) : Nat := cs.foldl (fun n c => 10 * n + (c.toNat - '0'.toNat)) 0

def exponent? : List Char → Option Int
  | [] => some 0
  | e :: rest =>
    if e ≠ 'e' ∧ e ≠ 'E' then none
    else
      let (negative, digits) := match rest with
        | '-' :: digits => (true, digits)
        | '+' :: digits => (false, digits)
        | digits => (false, digits)
      if digits.isEmpty || !digits.all Char.isDigit then none
      else some (if negative then -(ofDigits digits : Int) else ofDigits digits)

def ofChars? (cs : List Char) : Option Decimal :=
  let (negative, cs) := match cs with
    | '-' :: cs => (true, cs)
    | cs => (false, cs)
  let (whole, rest) := cs.span Char.isDigit
  let (fraction, rest) := match rest with
    | '.' :: rest => rest.span Char.isDigit
    | rest => ([], rest)
  if whole.isEmpty && fraction.isEmpty then none
  else (exponent? rest).map fun e =>
    { negative, digits := ofDigits (whole ++ fraction), exponent := e - fraction.length }

def toFloat (d : Decimal) : Float :=
  let size : Int := (Nat.toDigits 10 d.digits).length + d.exponent
  let magnitude :=
    if d.digits = 0 ∨ size < -400 then 0.0
    else if 400 < size then 1.0 / 0.0
    else Float.ofScientific d.digits (d.exponent < 0) d.exponent.natAbs
  if d.negative then -magnitude else magnitude

def leadingBit : Nat := 0x10000000000000

def parts (bits : UInt64) : Nat × Int :=
  let fraction := (bits &&& 0xFFFFFFFFFFFFF).toNat
  let exponent := ((bits >>> 52) &&& 0x7FF).toNat
  if exponent = 0 then (fraction, -1074) else (fraction + leadingBit, exponent - 1075)

/-- The multiple of `10 ^ e` nearest to `m * 2 ^ q`, if the double nearest to it is that number
itself. An exact tie between two multiples goes up. -/
def onGrid (m : Nat) (q e : Int) : Option Nat :=
  let up := Nat.pow 10 (-e).toNat <<< (q - 2).toNat
  let unit := Nat.pow 10 e.toNat <<< (2 - q).toNat
  let value := 4 * m * up
  let low := (4 * m - if m = leadingBit ∧ -1074 < q then 1 else 2) * up
  let high := (4 * m + 2) * up
  let inside (d : Nat) : Bool :=
    if m % 2 = 0 then low ≤ d * unit ∧ d * unit ≤ high else low < d * unit ∧ d * unit < high
  let d := value / unit
  let nearer := if 2 * (value % unit) < unit then d else d + 1
  let other := if nearer = d then d + 1 else d
  if inside nearer then some nearer else if inside other then some other else none

/-- The fewest digits that read back as `m * 2 ^ q`: they lie on the coarsest grid with a hit. -/
def shortest (m : Nat) (q : Int) : Nat × Int :=
  ((List.range 640).findSome? fun (i : Nat) =>
    let e : Int := 309 - (i : Int)
    (onGrid m q e).map (·, e)).getD (0, 0)

def positional (digits : Nat) (exponent : Int) : List Char :=
  let ds := Nat.toDigits 10 digits
  if 0 ≤ exponent then ds ++ List.replicate exponent.toNat '0' ++ ['.', '0']
  else
    let places := (-exponent).toNat
    let ds := List.replicate (places + 1 - ds.length) '0' ++ ds
    ds.take (ds.length - places) ++ '.' :: ds.drop (ds.length - places)

def doubleText (d : Decimal) : String :=
  let x := d.toFloat
  let (m, q) := parts x.toBits
  let magnitude := if m = 0 then ['0', '.', '0'] else
    let (digits, exponent) := shortest m q
    positional digits exponent
  String.ofList (if d.negative then '-' :: magnitude else magnitude)

def isFinite (d : Decimal) : Bool := d.toFloat.isFinite

end Decimal
end LineTint
