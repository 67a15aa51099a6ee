import LineTint.Text.Digit
import LineTint.Yaml.Atom
import LineTint.Yaml.Token

namespace LineTint.Yaml.Print

def isPrintable (c : Char) : Bool :=
  c == '\n' || ('\x20' ≤ c && c ≤ '\x7e') ||
    ('\u00a0' ≤ c && c != '\ufeff' && c != '\ufffe' && c != '\uffff')

def hasPair (p q : Char → Bool) : List Char → Bool
  | a :: b :: rest => (p a && q b) || hasPair p q (b :: rest)
  | _ => false

def isSpace (c : Char) : Bool := c == ' '

def isClean (cs : List Char) : Bool := cs.all isPrintable && !hasPair isSpace isBreak cs

def isIndicator (c : Char) : Bool := "#,[]\x7b\x7d&*!|>'\"%@`".toList.contains c

def beginsAmiss : List Char → Bool
  | [] => false
  | c :: rest => isIndicator c || ((c == '?' || c == '-') && atSpace rest)

def breaksOff : List Char → Bool
  | [] => false
  | c :: rest =>
    (c == ':' && atSpace rest) || (isSpace c && rest.head? = some '#') || breaksOff rest

def isMarker (cs : List Char) : Bool := "---".toList.isPrefixOf cs || "...".toList.isPrefixOf cs

def mayBePlain (cs : List Char) : Bool :=
  let edge (c : Option Char) := c.any fun c => isSpace c || isBreak c
  !edge cs.head? && !edge cs.getLast? && isClean cs && !cs.any isBreak && !isMarker cs &&
    !beginsAmiss cs && !breaksOff cs

def mayBeSingleQuoted (cs : List Char) : Bool := isClean cs && !hasPair isBreak isSpace cs

def mayBeLiteral (cs : List Char) : Bool := isClean cs && !cs.getLast?.any isSpace

def isMistakable (text : String) : Bool :=
  match Atom.ofPlain text with
  | .string _ => Atom.isPadded text.toList
  | _ => true

def form (text : String) : ScalarForm :=
  let cs := text.toList
  if cs.contains '\n' then if mayBeLiteral cs then .literal else .doubleQuoted
  else if !isMistakable text && mayBePlain cs then .plain
  else if mayBeSingleQuoted cs then .singleQuoted
  else .doubleQuoted

def spaces (n : Nat) : List Char := List.replicate n ' '

def indented (indent : Nat) (fresh : Bool) : List Char → List Char
  | [] => []
  | c :: rest =>
    if isBreak c then c :: indented indent true rest
    else if fresh then spaces indent ++ c :: indented indent false rest
    else c :: indented indent false rest

/-- The body of a single-quoted scalar. A break at its end leaves the quote on a line of its
own. -/
def singleQuoted (indent : Nat) (cs : List Char) : List Char :=
  let doubled := cs.flatMap fun c => if c = '\'' then ['\'', '\''] else [c]
  indented indent false doubled ++ if cs.getLast?.any isBreak then spaces indent else []

def hex (width n : Nat) : List Char :=
  (List.range width).reverse.map fun k => Digit.upper ((n >>> (4 * k)) % 16)

def escape (c : Char) : List Char :=
  if isPrintable c && !isBreak c && c != '"' && c != '\\' then [c]
  else '\\' :: match c with
    | '\x00' => ['0']
    | '\x07' => ['a']
    | '\x08' => ['b']
    | '\t' => ['t']
    | '\n' => ['n']
    | '\x0b' => ['v']
    | '\x0c' => ['f']
    | '\r' => ['r']
    | '\x1b' => ['e']
    | '"' => ['"']
    | '\\' => ['\\']
    | '\u0085' => ['N']
    | '\u2028' => ['L']
    | '\u2029' => ['P']
    | c =>
      if c.toNat ≤ 0xFF then 'x' :: hex 2 c.toNat
      else if c.toNat ≤ 0xFFFF then 'u' :: hex 4 c.toNat
      else 'U' :: hex 8 c.toNat

/-- What stands behind the bar of a block: the indentation, where the text does not show it, and
what becomes of the breaks at its end. -/
def blockHeader (cs : List Char) : List Char :=
  let indentation := if cs.head?.any fun c => isSpace c || isBreak c then ['2'] else []
  indentation ++ match cs.reverse with
    | [] => ['-']
    | c :: before =>
      if !isBreak c then ['-']
      else if before.isEmpty || before.head?.any isBreak then ['+']
      else []

/-- A text as a scalar whose further lines are indented, without a break at its end, except for
the one that a block may end with. -/
def scalar (indent : Nat) (text : String) : List Char :=
  let cs := text.toList
  match form text with
  | .singleQuoted => '\'' :: singleQuoted indent cs ++ ['\'']
  | .doubleQuoted => '"' :: cs.flatMap escape ++ ['"']
  | .literal => '|' :: blockHeader cs ++ '\n' :: indented indent true cs
  | _ => cs

def endLine (text : String) : List Char :=
  if form text = .literal && text.toList.getLast?.any isBreak then [] else ['\n']

def isSimpleKey (key : String) : Bool := !key.toList.any isBreak && key.utf8ByteSize ≤ 128

def entry (indent : Nat) (key value : String) : List Char :=
  let scalar := scalar (indent + 2)
  (if isSimpleKey key then spaces indent ++ scalar key
    else spaces indent ++ ['?', ' '] ++ scalar key ++ endLine key ++ spaces indent) ++
    [':', ' '] ++ scalar value ++ endLine value

end LineTint.Yaml.Print
