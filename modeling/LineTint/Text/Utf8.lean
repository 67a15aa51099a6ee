namespace LineTint.Text

def encode (cs : List Char) : List UInt8 := cs.flatMap String.utf8EncodeChar

def bytes (text : String) : List UInt8 := encode text.toList

structure PartialChar where
  bits : Nat
  owed : Nat
  low : Nat := 0x80
  high : Nat := 0xBF

inductive Lead where
  | complete (c : Char)
  | incomplete (p : PartialChar)
  | invalid

/-- What a byte begins. The second byte is bounded so that no character has two encodings and none
is a surrogate or lies above U+10FFFF. -/
def lead (b : Nat) : Lead :=
  if b < 0x80 then .complete (Char.ofNat b)
  else if b < 0xC2 then .invalid
  else if b < 0xE0 then .incomplete { bits := b - 0xC0, owed := 1 }
  else if b = 0xE0 then .incomplete { bits := 0, owed := 2, low := 0xA0 }
  else if b = 0xED then .incomplete { bits := 0xD, owed := 2, high := 0x9F }
  else if b < 0xF0 then .incomplete { bits := b - 0xE0, owed := 2 }
  else if b = 0xF0 then .incomplete { bits := 0, owed := 3, low := 0x90 }
  else if b < 0xF4 then .incomplete { bits := b - 0xF0, owed := 3 }
  else if b = 0xF4 then .incomplete { bits := 4, owed := 3, high := 0x8F }
  else .invalid

def replacement : Char := '\uFFFD'

def decodeFrom (p : Option PartialChar) : List UInt8 → List Char
  | [] => if p.isSome then [replacement] else []
  | b :: rest =>
    let fresh := fun _ : Unit =>
      match lead b.toNat with
      | .complete c => c :: decodeFrom none rest
      | .incomplete q => decodeFrom (some q) rest
      | .invalid => replacement :: decodeFrom none rest
    match p with
    | none => fresh ()
    | some p =>
      if p.low ≤ b.toNat ∧ b.toNat ≤ p.high then
        let bits := p.bits * 64 + (b.toNat - 0x80)
        if p.owed ≤ 1 then Char.ofNat bits :: decodeFrom none rest
        else decodeFrom (some { bits, owed := p.owed - 1 }) rest
      else replacement :: fresh ()

/-- Each longest start of a character that cannot be completed, and each byte that starts none, becomes the
replacement character. -/
def decodeLossy (bs : List UInt8) : String := String.ofList (decodeFrom none bs)

def decode? (bs : List UInt8) : Option String :=
  let text := decodeLossy bs
  if bytes text = bs then some text else none

end LineTint.Text
