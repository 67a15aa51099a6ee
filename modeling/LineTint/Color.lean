import LineTint.Text.Digit

namespace LineTint

structure Color where
  red : UInt8
  green : UInt8
  blue : UInt8
  alpha : UInt8 := 255
deriving DecidableEq, Repr, Inhabited

inductive ColorError where
  /-- The text is not six or eight ASCII characters long; leading `#` are already cut off. -/
  | format (text : String)
  | digit
deriving DecidableEq, Repr

def ColorError.message : ColorError → String
  | .format text => "Invalid color format: " ++ text
  | .digit => "invalid digit found in string"

namespace Color

/-- A channel from two characters: two digits, or a plus sign and one digit. -/
def channel (high low : Char) : Except ColorError UInt8 :=
  match if high = '+' then some 0 else Digit.value? high, Digit.value? low with
  | some h, some l => .ok (UInt8.ofNat (16 * h + l))
  | _, _ => .error .digit

def ofDigits (digits : List Char) : Except ColorError Color :=
  if digits.all (·.toNat < 128) then
    match digits with
    | [r, r', g, g', b, b'] =>
        return { red := ← channel r r', green := ← channel g g', blue := ← channel b b' }
    | [r, r', g, g', b, b', a, a'] =>
        return {
          red := ← channel r r', green := ← channel g g', blue := ← channel b b'
          alpha := ← channel a a' }
    | _ => .error (.format (String.ofList digits))
  else .error (.format (String.ofList digits))

def ofHex (text : String) : Except ColorError Color :=
  ofDigits (text.toList.dropWhile (· = '#'))

def channelDigits (n : UInt8) : List Char := [Digit.upper (n.toNat / 16), Digit.upper (n.toNat % 16)]

def digits (c : Color) : List Char :=
  channelDigits c.red ++ channelDigits c.green ++ channelDigits c.blue ++
    if c.alpha = 255 then [] else channelDigits c.alpha

def toHex (c : Color) : String := String.ofList ('#' :: c.digits)

end Color
end LineTint
