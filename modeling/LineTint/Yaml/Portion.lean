import LineTint.Yaml.Mark

namespace LineTint.Yaml

/-- The bytes of a portion. A character that is not allowed spoils its portion, and what stands in front of that
portion is all that can be read. -/
def portionSize : Nat := 16384

/-- How many characters can be read of a text that holds a character not allowed, when `count` are
passed, `full` of them in earlier portions, and the portion has `room` bytes left. -/
def readable? (full count room : Nat) : List Char → Option Nat
  | [] => none
  | c :: rest =>
    let fits := c.utf8Size ≤ room
    let full := if fits then full else count
    let room := if fits then room else portionSize
    if isAllowed c then readable? full (count + 1) (room - c.utf8Size) rest else some full

def readable (text : List Char) : List Char × Bool :=
  match readable? 0 0 portionSize text with
  | some n => (text.take n, false)
  | none => (text, true)

end LineTint.Yaml
