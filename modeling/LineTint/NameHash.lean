import LineTint.Text.Utf8

namespace LineTint.NameHash

structure State where
  a : UInt32 := 0x67452301
  b : UInt32 := 0xefcdab89
  c : UInt32 := 0x98badcfe
  d : UInt32 := 0x10325476
deriving DecidableEq, Repr

def State.add (s t : State) : State := ⟨s.a + t.a, s.b + t.b, s.c + t.c, s.d + t.d⟩

def rotate (x n : UInt32) : UInt32 := (x <<< n) ||| (x >>> (32 - n))

def choice (x y z : UInt32) : UInt32 := z ^^^ (x &&& (y ^^^ z))

def majority (x y z : UInt32) : UInt32 := (x &&& y) + ((x ^^^ y) &&& z)

def parity (x y z : UInt32) : UInt32 := x ^^^ y ^^^ z

/-- A round takes the words in an order of its own and rotates by four widths in turn. -/
structure Round where
  mix : UInt32 → UInt32 → UInt32 → UInt32
  constant : UInt32
  order : List Nat
  widths : List UInt32

def rounds : List Round := [
  ⟨choice, 0, [0, 1, 2, 3, 4, 5, 6, 7], [3, 7, 11, 19]⟩,
  ⟨majority, 0x5a827999, [1, 3, 5, 7, 0, 2, 4, 6], [3, 5, 9, 13]⟩,
  ⟨parity, 0x6ed9eba1, [3, 7, 2, 6, 1, 5, 0, 4], [3, 9, 11, 15]⟩]

def Round.step (r : Round) (words : List UInt32) (s : State) (i : Nat) (width : UInt32) : State :=
  ⟨s.d, rotate (s.a + r.mix s.b s.c s.d + words.getD i 0 + r.constant) width, s.b, s.c⟩

def Round.run (words : List UInt32) (s : State) (r : Round) : State :=
  (r.order.zip (r.widths ++ r.widths)).foldl (fun s (i, width) => r.step words s i width) s

def signed (b : UInt8) : UInt32 := if b < 0x80 then b.toUInt32 else b.toUInt32 - 0x100

/-- The eight words of the next bytes, the first byte of a word highest. Where bytes are missing,
the number of those that are left fills up. -/
def words (bytes : List UInt8) : List UInt32 :=
  let filler := UInt32.ofNat bytes.length * 0x01010101
  (List.range 8).map fun i =>
    ((bytes.drop (4 * i)).take 4).foldl (fun w b => (w <<< 8) + signed b) filler

def absorb (s : State) : Nat → List UInt8 → State
  | 0, _ => s
  | blocks + 1, bytes =>
    absorb (s.add (rounds.foldl (Round.run (words bytes)) s)) blocks (bytes.drop 32)

def ofName (name : String) : Nat :=
  let bytes := Text.bytes name
  let s := absorb {} ((bytes.length + 31) / 32) bytes
  s.b.toNat / 2 * 0x100000000 + s.c.toNat

/-- The order in which a directory lists its names. -/
def sort (names : List String) : List String := names.mergeSort fun a b => ofName a ≤ ofName b

end LineTint.NameHash
