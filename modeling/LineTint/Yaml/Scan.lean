import LineTint.Yaml.Portion
import LineTint.Yaml.Scalar

namespace LineTint.Yaml

/-- A token that may begin a key. Only the colon behind a key shows that it was one, and until then the tokens from
the first candidate on are held back. -/
structure KeyCandidate where
  position : Nat
  mark : Mark
  /-- Whether it must be a key, as it stands where a block mapping needs one. -/
  required : Bool

def keyReach : Nat := 1024

structure Scanner where
  cursor : Cursor
  /-- Whether the text goes on, unreadable, behind what the cursor holds. -/
  goesOn : Bool := false
  tokens : List Token := []
  count : Nat := 0
  released : Nat := 0
  indent : Int := -1
  outer : List Int := []
  keyAllowed : Bool := true
  candidate : Option KeyCandidate := none
  enclosing : List (Option KeyCandidate) := []
  ended : Bool := false

namespace Scanner

def inFlow (s : Scanner) : Bool := !s.enclosing.isEmpty

def allowKey (s : Scanner) (allowed : Bool) : Scanner := { s with keyAllowed := allowed }

def look (s : Scanner) (c : Cursor) (n : Nat) : Except Malformed Unit :=
  if s.goesOn && (c.rest.take n).length < n then c.fail "control characters are not allowed"
  else .ok ()

def push (s : Scanner) (lexeme : Lexeme) (start stop : Mark) : Scanner :=
  { s with tokens := ⟨lexeme, start, stop⟩ :: s.tokens, count := s.count + 1 }

def insert (s : Scanner) (position : Nat) (lexeme : Lexeme) (mark : Mark) : Scanner :=
  let behind := s.count - position
  { s with
    tokens := s.tokens.take behind ++ ⟨lexeme, mark, mark⟩ :: s.tokens.drop behind
    count := s.count + 1 }

def indicator (s : Scanner) (lexeme : Lexeme) (width : Nat) : Scanner :=
  let cursor := s.cursor.skipMany width
  { s.push lexeme s.cursor.mark cursor.mark with cursor }

/-- Whether a candidate can no longer be a key here: a key stays on one line and within reach. -/
def isStale (here : Mark) (k : KeyCandidate) : Bool :=
  k.mark.line < here.line || k.mark.index + keyReach < here.index

def missingColon {α : Type} (k : KeyCandidate) : Except Malformed α :=
  .error ⟨"could not find expected ':'", k.mark⟩

def dropIfStale (here : Mark) : Option KeyCandidate → Except Malformed (Option KeyCandidate)
  | none => .ok none
  | some k =>
    if isStale here k then (if k.required then missingColon k else .ok none) else .ok (some k)

def dropStale (s : Scanner) : Except Malformed Scanner := do
  let enclosing ← s.enclosing.mapM (dropIfStale s.cursor.mark)
  let candidate ← dropIfStale s.cursor.mark s.candidate
  return { s with enclosing, candidate }

def release (s : Scanner) : Scanner :=
  let undecided := (s.candidate :: s.enclosing).filterMap (·.map (·.position))
  { s with released := undecided.foldl min s.count }

def removeCandidate (s : Scanner) : Except Malformed Scanner :=
  match s.candidate with
  | some k => if k.required then missingColon k else .ok { s with candidate := none }
  | none => .ok s

def saveCandidate (s : Scanner) : Except Malformed Scanner := do
  if s.keyAllowed then
    let s ← s.removeCandidate
    let required := !s.inFlow && s.indent == (s.cursor.mark.column : Int)
    return { s with candidate := some ⟨s.count, s.cursor.mark, required⟩ }
  else return s

def unindent (column : Int) (s : Scanner) : Scanner :=
  if s.inFlow then s else close s.outer s
where
  close : List Int → Scanner → Scanner
    | [], s => s
    | parent :: outer, s =>
      if column < s.indent then
        close outer { s.push .blockEnd s.cursor.mark s.cursor.mark with indent := parent, outer }
      else s

def openBlock (s : Scanner) (lexeme : Lexeme) (position : Nat) (mark : Mark) : Scanner :=
  if s.inFlow || (mark.column : Int) ≤ s.indent then s
  else { s.insert position lexeme mark with indent := mark.column, outer := s.indent :: s.outer }

/-- Goes past white space, comments and breaks. Outside brackets a tab is no indentation, and a break
makes room for a key. A byte order mark may stand at the start of each line. -/
def skipFrom (s : Scanner) (keyAllowed comment : Bool) : List Char → Mark → Scanner
  | '\r' :: '\n' :: rest, m => skipFrom s (keyAllowed || !s.inFlow) false rest m.nextLineCrLf
  | c :: rest, m =>
    if isBreak c then skipFrom s (keyAllowed || !s.inFlow) false rest (m.nextLine c)
    else if comment || c == ' ' || (c == '\t' && (s.inFlow || !keyAllowed)) ||
        (c == '\ufeff' && m.column == 0) then
      skipFrom s keyAllowed comment rest (m.next c)
    else if c == '#' then skipFrom s keyAllowed true rest (m.next c)
    else { s with cursor := ⟨c :: rest, m⟩, keyAllowed }
  | [], m => { s with cursor := ⟨[], m⟩, keyAllowed }

def toNextToken (s : Scanner) : Scanner :=
  s.skipFrom s.keyAllowed false s.cursor.rest s.cursor.mark

def fetchStreamEnd (s : Scanner) : Except Malformed Scanner := do
  let mark := s.cursor.mark
  let mark := if mark.column = 0 then mark else ⟨mark.index, mark.line + 1, 0⟩
  let s := unindent (-1) { s with cursor := { s.cursor with mark } }
  let s ← s.removeCandidate
  return { s.push .streamEnd mark mark with keyAllowed := false, ended := true }

def escapedByte? : List Char → Option (UInt8 × List Char)
  | a :: b :: rest => do
    let high ← Digit.value? a
    let low ← Digit.value? b
    return (UInt8.ofNat (16 * high + low), rest)
  | _ => none

def utf8Width? (b : UInt8) : Option Nat :=
  if b < 0x80 then some 1
  else if 0xC0 ≤ b ∧ b < 0xE0 then some 2
  else if 0xE0 ≤ b ∧ b < 0xF0 then some 3
  else if 0xF0 ≤ b ∧ b < 0xF8 then some 4
  else none

def isUriChar (verbatim : Bool) (c : Char) : Bool :=
  isWordChar c || ";/?:@&=+$.%!~*'()".toList.contains c || (verbatim && ",[]".toList.contains c)

/-- Reads a part of a tag, where `%` and two digits stand for a byte. `owed` bytes are missing of a
character begun that way. -/
def scanUri (verbatim : Bool) (start : Mark) (read : List UInt8) (owed : Nat) :
    Nat → Cursor → Except Malformed (List UInt8 × Cursor)
  | 0, c => .ok (read.reverse, c)
  | fuel + 1, c =>
    match c.rest with
    | '%' :: rest =>
      match escapedByte? rest with
      | none => .error ⟨"did not find URI escaped octet", start⟩
      | some (b, _) =>
        if 0 < owed then
          if 0x80 ≤ b ∧ b < 0xC0 then
            scanUri verbatim start (b :: read) (owed - 1) fuel (c.skipMany 3)
          else .error ⟨"found an incorrect trailing UTF-8 octet", start⟩
        else match utf8Width? b with
          | some n => scanUri verbatim start (b :: read) (n - 1) fuel (c.skipMany 3)
          | none => .error ⟨"found an incorrect leading UTF-8 octet", start⟩
    | a :: _ =>
      if 0 < owed then .error ⟨"did not find URI escaped octet", start⟩
      else if isUriChar verbatim a then
        scanUri verbatim start ((String.utf8EncodeChar a).reverse ++ read) 0 fuel c.skip
      else .ok (read.reverse, c)
    | [] => if 0 < owed then .error ⟨"did not find URI escaped octet", start⟩ else .ok (read.reverse, c)

/-- A part of a tag that follows `head`; the two together are not empty. A byte zero ends it for
whoever reads it. -/
def tagPart (verbatim : Bool) (start : Mark) (head : List Char) (c : Cursor) :
    Except Malformed (TagText × Cursor) := do
  let (read, after) ← scanUri verbatim start [] 0 (c.rest.length + 1) c
  if head.isEmpty && read.isEmpty then throw ⟨"did not find expected tag URI", start⟩
  return ((Text.encode (head.drop 1) ++ read).takeWhile (· ≠ 0), after)

def tagHandle (start : Mark) (c : Cursor) : Except Malformed (List Char × Cursor) :=
  match c.rest with
  | '!' :: _ =>
    let (name, c) := c.skip.span isWordChar
    match c.rest with
    | '!' :: _ => .ok ('!' :: name ++ ['!'], c.skip)
    | _ => .ok ('!' :: name, c)
  | _ => .error ⟨"did not find expected '!'", start⟩

def scanTag (s : Scanner) : Except Malformed Scanner := do
  let start := s.cursor.mark
  let (handle, ending, c) ← match s.cursor.rest with
    | '!' :: '<' :: _ => do
      let (text, c) ← tagPart true start [] (s.cursor.skipMany 2)
      match c.rest with
      | '>' :: _ => pure ("", text, c.skip)
      | _ => throw ⟨"did not find the expected '>'", start⟩
    | _ => do
      let (handle, c) ← tagHandle start s.cursor
      if 1 < handle.length && handle.getLast? == some '!' then
        let (text, c) ← tagPart false start [] c
        pure (String.ofList handle, text, c)
      else
        let (text, c) ← tagPart false start handle c
        pure (if text.isEmpty then ("", Text.bytes "!", c) else ("!", text, c))
  let closed := match c.rest with
    | ',' :: _ => s.inFlow
    | rest => atSpace rest
  if !closed then throw ⟨"did not find expected whitespace or line break", start⟩
  s.look c 1
  return { s.push (.tag handle ending) start c.mark with cursor := c }

def scanName (s : Scanner) (lexeme : String → Lexeme) : Except Malformed Scanner := do
  let start := s.cursor.mark
  let (name, c) := s.cursor.skip.span isWordChar
  let closed := match c.rest with
    | a :: rest => atSpace (a :: rest) || "?:,]\x7d%@`".toList.contains a
    | [] => true
  if name.isEmpty || !closed then
    throw ⟨"did not find expected alphabetic or numeric character", start⟩
  s.look c 1
  return { s.push (lexeme (String.ofList name)) start c.mark with cursor := c }

def versionNumber (start : Mark) (c : Cursor) : Except Malformed (Nat × Cursor) :=
  let (digits, c) := c.span Char.isDigit
  if digits.isEmpty then .error ⟨"did not find expected version number", start⟩
  else if 9 < digits.length then .error ⟨"found extremely long version number", start⟩
  else .ok (digits.foldl (fun n d => 10 * n + (d.toNat - '0'.toNat)) 0, c)

def directive (start : Mark) (c : Cursor) : Except Malformed (Lexeme × Cursor) := do
  let (name, c) := c.span isWordChar
  if name.isEmpty then throw ⟨"could not find expected directive name", start⟩
  if !atSpace c.rest then throw ⟨"found unexpected non-alphabetical character", start⟩
  match String.ofList name with
  | "YAML" =>
    let (major, c) ← versionNumber start (c.skipWhile isBlank)
    match c.rest with
    | '.' :: _ =>
      let (minor, c) ← versionNumber start c.skip
      return (.versionDirective major minor, c)
    | _ => throw ⟨"did not find expected digit or '.' character", start⟩
  | "TAG" =>
    let (handle, c) ← tagHandle start (c.skipWhile isBlank)
    if handle ≠ ['!'] && handle.getLast? ≠ some '!' then throw ⟨"did not find expected '!'", start⟩
    match c.rest with
    | a :: _ => if !isBlank a then throw ⟨"did not find expected whitespace", start⟩
    | [] => throw ⟨"did not find expected whitespace", start⟩
    let (expansion, c) ← tagPart true start [] (c.skipWhile isBlank)
    if !atSpace c.rest then throw ⟨"did not find expected whitespace or line break", start⟩
    return (.tagDirective (String.ofList handle) expansion, c)
  | _ => throw ⟨"found unknown directive name", start⟩

def scanDirective (s : Scanner) : Except Malformed Scanner := do
  let start := s.cursor.mark
  let (lexeme, c) ← directive start s.cursor.skip
  let after := c.skipLineTail
  if !atLineEnd after.rest then throw ⟨"did not find expected comment or line break", start⟩
  s.look after 2
  return { s.push lexeme start c.mark with cursor := after.skipBreak }

def endBlocks (s : Scanner) : Except Malformed Scanner := do
  let s ← (s.unindent (-1)).removeCandidate
  return { s with keyAllowed := false }

def openFlow (s : Scanner) (lexeme : Lexeme) : Except Malformed Scanner := do
  let s ← s.saveCandidate
  let s := { s with enclosing := s.candidate :: s.enclosing, candidate := none, keyAllowed := true }
  return s.indicator lexeme 1

def closeFlow (s : Scanner) (lexeme : Lexeme) : Except Malformed Scanner := do
  let s ← s.removeCandidate
  let s := match s.enclosing with
    | candidate :: enclosing => { s with candidate, enclosing }
    | [] => s
  return (s.allowKey false).indicator lexeme 1

def fetchBlockEntry (s : Scanner) : Except Malformed Scanner := do
  if !s.inFlow && !s.keyAllowed then
    s.cursor.fail "block sequence entries are not allowed in this context"
  let s := s.openBlock .blockSequenceStart s.count s.cursor.mark
  let s ← s.removeCandidate
  return (s.allowKey true).indicator .blockEntry 1

def fetchKey (s : Scanner) : Except Malformed Scanner := do
  if !s.inFlow && !s.keyAllowed then
    s.cursor.fail "mapping keys are not allowed in this context"
  let s := s.openBlock .blockMappingStart s.count s.cursor.mark
  let s ← s.removeCandidate
  return (s.allowKey !s.inFlow).indicator .key 1

def fetchValue (s : Scanner) : Except Malformed Scanner :=
  match s.candidate with
  | some k =>
    let s := s.insert k.position .key k.mark
    let s := s.openBlock .blockMappingStart k.position k.mark
    .ok ({ s with candidate := none, keyAllowed := false }.indicator .value 1)
  | none =>
    if !s.inFlow && !s.keyAllowed then
      s.cursor.fail "mapping values are not allowed in this context"
    else
      let s := s.openBlock .blockMappingStart s.count s.cursor.mark
      .ok ((s.allowKey !s.inFlow).indicator .value 1)

def addScalar (s : Scanner) (form : ScalarForm) (r : Scanned) : Scanner :=
  { s.push (.scalar form r.text) s.cursor.mark r.stop with
    cursor := r.cursor, keyAllowed := s.keyAllowed || r.broken }

def fetchBlockScalar (s : Scanner) (literal : Bool) : Except Malformed Scanner := do
  let s ← s.removeCandidate
  let r ← Block.scan literal s.indent s.cursor
  s.look r.cursor r.seen
  return (s.allowKey true).addScalar (if literal then .literal else .folded) r

def fetchQuoted (s : Scanner) (single : Bool) : Except Malformed Scanner := do
  let s ← s.saveCandidate
  let r ← Quoted.scan single s.cursor
  s.look r.cursor r.seen
  return (s.allowKey false).addScalar (if single then .singleQuoted else .doubleQuoted) r

def fetchPlain (s : Scanner) : Except Malformed Scanner := do
  let s ← s.saveCandidate
  let r ← Plain.scan ⟨s.inFlow, (s.indent + 1).toNat⟩ s.cursor
  s.look r.cursor r.seen
  return (s.allowKey false).addScalar .plain r

def beginsPlain (s : Scanner) (c : Char) (rest : List Char) : Bool :=
  if c == '-' then !(rest.head?.any isBlank)
  else if c == '?' || c == ':' then !s.inFlow && !atSpace rest
  else !("[],#&*!|>'\"%@`\x7b\x7d".toList.contains c) && !isBlank c

def fetch (s : Scanner) : Except Malformed Scanner := do
  let s ← s.toNextToken.dropStale
  s.look s.cursor 4
  let s := s.unindent s.cursor.mark.column
  let lineStart := s.cursor.mark.column = 0
  match s.cursor.rest with
  | [] => s.fetchStreamEnd
  | c :: rest =>
    if lineStart && c == '%' then (← s.endBlocks).scanDirective
    else if lineStart && atDocumentMarker (c :: rest) then
      return (← s.endBlocks).indicator (if c == '-' then .documentStart else .documentEnd) 3
    else match c with
      | '[' => s.openFlow .flowSequenceStart
      | '\x7b' => s.openFlow .flowMappingStart
      | ']' => s.closeFlow .flowSequenceEnd
      | '\x7d' => s.closeFlow .flowMappingEnd
      | ',' => return ((← s.removeCandidate).allowKey true).indicator .flowEntry 1
      | '*' => ((← s.saveCandidate).allowKey false).scanName .alias
      | '&' => ((← s.saveCandidate).allowKey false).scanName .anchor
      | '!' => ((← s.saveCandidate).allowKey false).scanTag
      | '\'' => s.fetchQuoted true
      | '"' => s.fetchQuoted false
      | c =>
        if c == '-' && atSpace rest then s.fetchBlockEntry
        else if c == '?' && (s.inFlow || atSpace rest) then s.fetchKey
        else if c == ':' && (s.inFlow || atSpace rest) then s.fetchValue
        else if c == '|' && !s.inFlow then s.fetchBlockScalar true
        else if c == '>' && !s.inFlow then s.fetchBlockScalar false
        else if s.beginsPlain c rest then s.fetchPlain
        else s.cursor.fail "found character that cannot start any token"

def releasedTokens (s : Scanner) : List Token := (s.tokens.drop (s.count - s.released)).reverse

/-- Reads tokens up to the end of the text or an error. Each but the last takes a character. -/
def run : Nat → Scanner → List Token × Option Malformed
  | 0, s => (s.releasedTokens, some ⟨"the text does not end", s.cursor.mark⟩)
  | fuel + 1, s =>
    match s.fetch >>= dropStale with
    | .error e => (s.releasedTokens, some e)
    | .ok next => if next.ended then (next.tokens.reverse, none) else run fuel next.release

end Scanner

def tokens (text : List Char) : List Token × Option Malformed :=
  let (cs, whole) := readable text
  Scanner.run (cs.length + 1) { cursor := { rest := cs }, goesOn := !whole }

end LineTint.Yaml
