import LineTint.Yaml.Scan

namespace LineTint.Yaml

structure Head where
  mark : Mark
  tag : Option TagText := none
  anchor : Option Nat := none
deriving Repr, Inhabited

inductive Node where
  | scalar (head : Head) (form : ScalarForm) (text : String)
  | sequence (head : Head) (items : List Node)
  | mapping (head : Head) (entries : List (Node × Node))
  | alias (target : Nat)
  /-- The text breaks off here; whoever reads up to this place finds it malformed. -/
  | cut
deriving Repr, Inhabited

def Node.missing (mark : Mark) : Node := .scalar { mark } .plain ""

/-- The numbers of the anchors seen so far. A name given again gets a new number, and that is the
count of the names so far. -/
abbrev Anchors := List (String × Nat)

namespace Anchors

def add (a : Anchors) (name : String) : Anchors :=
  (name, a.length) :: a.filter (·.1 ≠ name)

end Anchors

abbrev Handles := List (String × TagText)

def coreTag (name : String) : TagText := Text.bytes ("tag:yaml.org,2002:" ++ name)

def defaultHandles : Handles := [("!", Text.bytes "!"), ("!!", coreTag "")]

structure Feed where
  tokens : List Token
  failure : Malformed
  handles : Handles := defaultHandles
  anchors : Anchors := []

/-- A tree, whole or cut off, and the feed behind it unless it is cut off. -/
abbrev Parsed (α : Type) := α × Except Malformed Feed

namespace Feed

def peek (f : Feed) : Option Token := f.tokens.head?

def drop (f : Feed) : Feed := { f with tokens := f.tokens.tail }

def reject {α : Type} (f : Feed) (broken : α) (problem : String) : Parsed α :=
  (broken, .error (match f.peek with
    | some t => ⟨problem, t.start⟩
    | none => f.failure))

def expand (f : Feed) (handle : String) (ending : TagText) (mark : Mark) :
    Except Malformed TagText :=
  if handle.isEmpty then .ok ending
  else match f.handles.lookup handle with
    | some expansion => .ok (expansion ++ ending)
    | none => .error ⟨"found undefined tag handle", mark⟩

structure Properties where
  mark : Mark
  tag : Option (String × TagText × Mark) := none
  anchor : Option String := none

def properties (f : Feed) : Option (Properties × Feed) := do
  let t ← f.peek
  match t.lexeme with
  | .anchor name =>
    let f := f.drop
    let u ← f.peek
    match u.lexeme with
    | .tag handle ending => return (⟨t.start, some (handle, ending, u.start), some name⟩, f.drop)
    | _ => return (⟨t.start, none, some name⟩, f)
  | .tag handle ending =>
    let f := f.drop
    let u ← f.peek
    match u.lexeme with
    | .anchor name => return (⟨t.start, some (handle, ending, t.start), some name⟩, f.drop)
    | _ => return (⟨t.start, some (handle, ending, t.start), none⟩, f)
  | _ => return (⟨t.start, none, none⟩, f)

def head (f : Feed) (p : Properties) (tag : Option TagText) : Head × Feed :=
  match p.anchor with
  | none => (⟨p.mark, tag, none⟩, f)
  | some name => (⟨p.mark, tag, some f.anchors.length⟩, { f with anchors := f.anchors.add name })

def next (f : Feed) (p : Lexeme → Bool) : Bool := f.peek.any (p ·.lexeme)

def isBlockItemEnd : Lexeme → Bool
  | .blockEntry | .blockEnd => true
  | _ => false

def isPairEnd : Lexeme → Bool
  | .key | .value | .blockEnd => true
  | _ => false

def isFlowItemEnd : Lexeme → Bool
  | .flowEntry | .flowSequenceEnd => true
  | _ => false

def isFlowPairEnd : Lexeme → Bool
  | .flowEntry | .flowMappingEnd => true
  | _ => false

/-- A list whose first element is whole only if the feed goes on. -/
def consIfWhole {α : Type} (first : Parsed α) (more : Feed → Parsed (List α)) : Parsed (List α) :=
  match first with
  | (a, .error e) => ([a], .error e)
  | (a, .ok f) => let (rest, r) := more f; (a :: rest, r)

def withKey (key : Parsed Node) (value : Feed → Parsed Node) : Parsed (Node × Node) :=
  match key with
  | (k, .error e) => ((k, .cut), .error e)
  | (k, .ok f) => let (v, r) := value f; ((k, v), r)

def noValue (f : Feed) : Parsed Node :=
  match f.peek with
  | none => (.cut, .error f.failure)
  | some t => (.missing t.start, .ok f)

mutual

/-- A node. Inside brackets (`block` is false) there are no block collections; `indentless` allows
a sequence whose entries stand no deeper than their key. -/
def node (block indentless : Bool) : Nat → Feed → Parsed Node
  | 0, f => f.reject .cut "the text does not end"
  | fuel + 1, f =>
    match f.peek with
    | none => (.cut, .error f.failure)
    | some t =>
      match t.lexeme with
      | .alias name =>
        match f.anchors.lookup name with
        | some n => (.alias n, .ok f.drop)
        | none => (.cut, .error ⟨"unknown anchor", t.start⟩)
      | _ =>
        match f.properties with
        | none => (.cut, .error f.failure)
        | some (p, f) =>
          match p.tag.mapM fun (handle, ending, mark) => f.expand handle ending mark with
          | .error e => (.cut, .error e)
          | .ok tag => content block indentless p tag fuel f

def content (block indentless : Bool) (p : Properties) (tag : Option TagText) :
    Nat → Feed → Parsed Node
  | 0, f => f.reject .cut "the text does not end"
  | fuel + 1, f =>
    match f.peek with
    | none => (.cut, .error f.failure)
    | some t =>
      let (h, g) := f.head p tag
      let sequenceFrom (items : Parsed (List Node)) : Parsed Node :=
        (.sequence h items.1, items.2)
      let mappingFrom (entries : Parsed (List (Node × Node))) : Parsed Node :=
        (.mapping h entries.1, entries.2)
      match t.lexeme with
      | .scalar form text => (.scalar h form text, .ok g.drop)
      | .flowSequenceStart => sequenceFrom (flowItems true fuel g.drop)
      | .flowMappingStart => mappingFrom (flowPairs true fuel g.drop)
      | lexeme =>
        if indentless && lexeme = .blockEntry then sequenceFrom (indentlessItems fuel g)
        else if block && lexeme = .blockSequenceStart then sequenceFrom (blockItems fuel g.drop)
        else if block && lexeme = .blockMappingStart then mappingFrom (blockPairs fuel g.drop)
        else if p.anchor.isSome || p.tag.isSome then (.scalar h .plain "", .ok g)
        else f.reject .cut "did not find expected node content"

def blockItems : Nat → Feed → Parsed (List Node)
  | 0, f => f.reject [.cut] "the text does not end"
  | fuel + 1, f =>
    match f.peek with
    | some ⟨.blockEntry, _, stop⟩ =>
      let f := f.drop
      if f.next isBlockItemEnd then consIfWhole (.missing stop, .ok f) (blockItems fuel)
      else consIfWhole (node true false fuel f) (blockItems fuel)
    | some ⟨.blockEnd, _, _⟩ => ([], .ok f.drop)
    | _ => f.reject [.cut] "did not find expected '-' indicator"

def indentlessItems : Nat → Feed → Parsed (List Node)
  | 0, f => f.reject [.cut] "the text does not end"
  | fuel + 1, f =>
    match f.peek with
    | some ⟨.blockEntry, _, stop⟩ =>
      let f := f.drop
      if f.next fun l => isBlockItemEnd l || isPairEnd l then
        consIfWhole (.missing stop, .ok f) (indentlessItems fuel)
      else consIfWhole (node true false fuel f) (indentlessItems fuel)
    | some _ => ([], .ok f)
    | none => ([.cut], .error f.failure)

def blockPairs : Nat → Feed → Parsed (List (Node × Node))
  | 0, f => f.reject [(.cut, .cut)] "the text does not end"
  | fuel + 1, f =>
    match f.peek with
    | some ⟨.key, _, stop⟩ =>
      let f := f.drop
      let key := if f.next isPairEnd then (Node.missing stop, .ok f) else node true true fuel f
      consIfWhole (withKey key (blockValue fuel)) (blockPairs fuel)
    | some ⟨.blockEnd, _, _⟩ => ([], .ok f.drop)
    | _ => f.reject [(.cut, .cut)] "did not find expected key"

def blockValue : Nat → Feed → Parsed Node
  | 0, f => f.reject .cut "the text does not end"
  | fuel + 1, f =>
    match f.peek with
    | some ⟨.value, _, stop⟩ =>
      let f := f.drop
      if f.next isPairEnd then (.missing stop, .ok f) else node true true fuel f
    | some t => (.missing t.start, .ok f)
    | none => (.cut, .error f.failure)

def flowItems (first : Bool) : Nat → Feed → Parsed (List Node)
  | 0, f => f.reject [.cut] "the text does not end"
  | fuel + 1, f =>
    match f.peek with
    | none => ([.cut], .error f.failure)
    | some ⟨.flowSequenceEnd, _, _⟩ => ([], .ok f.drop)
    | some t =>
      if !first && t.lexeme ≠ .flowEntry then f.reject [.cut] "did not find expected ',' or ']'"
      else
        let f := if first then f else f.drop
        match f.peek with
        | none => ([.cut], .error f.failure)
        | some ⟨.flowSequenceEnd, _, _⟩ => ([], .ok f.drop)
        | some ⟨.key, start, _⟩ => consIfWhole (flowPair start fuel f.drop) (flowItems false fuel)
        | some _ => consIfWhole (node false false fuel f) (flowItems false fuel)

/-- A single pair as an entry of a flow sequence, behind its key indicator. A key that is not
written takes the token that stands in its place, and only the token behind the pair ends it. -/
def flowPair (mark : Mark) : Nat → Feed → Parsed Node
  | 0, f => f.reject .cut "the text does not end"
  | fuel + 1, f =>
    let key :=
      match f.peek with
      | none => (.cut, .error f.failure)
      | some t =>
        if f.next fun l => isFlowItemEnd l || l = .value then (Node.missing t.stop, .ok f.drop)
        else node false false fuel f
    let (entry, r) := withKey key (flowPairValue fuel)
    match r with
    | .error e => (.mapping { mark } [entry], .error e)
    | .ok f =>
      if f.peek.isSome then (.mapping { mark } [entry], .ok f)
      else (.mapping { mark } [entry, (.cut, .cut)], .error f.failure)

def flowPairValue : Nat → Feed → Parsed Node
  | 0, f => f.reject .cut "the text does not end"
  | fuel + 1, f =>
    let f' := if f.next (· = .value) then f.drop else f
    match f'.peek with
    | none => (.cut, .error f.failure)
    | some t =>
      if f.next (· = .value) && !f'.next isFlowItemEnd then node false false fuel f'
      else (.missing t.start, .ok f')

def flowPairs (first : Bool) : Nat → Feed → Parsed (List (Node × Node))
  | 0, f => f.reject [(.cut, .cut)] "the text does not end"
  | fuel + 1, f =>
    match f.peek with
    | none => ([(.cut, .cut)], .error f.failure)
    | some ⟨.flowMappingEnd, _, _⟩ => ([], .ok f.drop)
    | some t =>
      if !first && t.lexeme ≠ .flowEntry then
        f.reject [(.cut, .cut)] "did not find expected ',' or '\x7d'"
      else
        let f := if first then f else f.drop
        match f.peek with
        | none => ([(.cut, .cut)], .error f.failure)
        | some ⟨.flowMappingEnd, _, _⟩ => ([], .ok f.drop)
        | some ⟨.key, _, _⟩ =>
          consIfWhole (withKey (flowKey fuel f.drop) (flowValue fuel)) (flowPairs false fuel)
        | some _ =>
          consIfWhole (withKey (node false false fuel f) noValue) (flowPairs false fuel)

def flowKey : Nat → Feed → Parsed Node
  | 0, f => f.reject .cut "the text does not end"
  | fuel + 1, f =>
    match f.peek with
    | none => (.cut, .error f.failure)
    | some t =>
      if f.next fun l => isFlowPairEnd l || l = .value then (.missing t.start, .ok f)
      else node false false fuel f

def flowValue : Nat → Feed → Parsed Node
  | 0, f => f.reject .cut "the text does not end"
  | fuel + 1, f =>
    let f' := if f.next (· = .value) then f.drop else f
    match f'.peek with
    | none => (.cut, .error f.failure)
    | some t =>
      if f.next (· = .value) && !f'.next isFlowPairEnd then node false false fuel f'
      else (.missing t.start, .ok f')

end

end Feed

structure Document where
  /-- `none` for a text without content; it ends at `stop`. -/
  root : Option Node
  stop : Mark := {}
  failure : Option Malformed := none
  more : Bool := false

namespace Document

def directives (version : Bool) (own : Handles) : List Token → Except Malformed (Handles × List Token)
  | ⟨.versionDirective major minor, start, _⟩ :: rest =>
    if version then .error ⟨"found duplicate %YAML directive", start⟩
    else if major ≠ 1 || (minor ≠ 1 && minor ≠ 2) then
      .error ⟨"found incompatible YAML document", start⟩
    else directives true own rest
  | ⟨.tagDirective handle expansion, start, _⟩ :: rest =>
    if (own.lookup handle).isSome then .error ⟨"found duplicate %TAG directive", start⟩
    else directives version ((handle, expansion) :: own) rest
  | rest => .ok (own ++ defaultHandles, rest)

def isDirective : Lexeme → Bool
  | .versionDirective _ _ | .tagDirective _ _ => true
  | _ => false

def isBoundary : Lexeme → Bool
  | .documentStart | .documentEnd | .streamEnd => true
  | l => isDirective l

def close (root : Parsed Node) : Document :=
  match root with
  | (n, .error e) => { root := some n, failure := some e }
  | (n, .ok f) =>
    match f.peek with
    | none => { root := some n, failure := some f.failure }
    | some _ =>
      let rest := f.tokens.dropWhile (·.lexeme = .documentEnd)
      { root := some n, more := rest.head?.map (·.lexeme) ≠ some .streamEnd }

def ofFeed (f : Feed) : Document :=
  /- Every node but a pair's parts begins with a token of its own, so this is enough. -/
  let fuel := 4 * f.tokens.length + 8
  match f.peek with
  | none => { root := some .cut, failure := some f.failure }
  | some t =>
    if t.lexeme = .streamEnd then { root := none, stop := t.start }
    else if t.lexeme = .documentStart || isDirective t.lexeme then
      match directives false [] f.tokens with
      | .error e => { root := some .cut, failure := some e }
      | .ok (handles, tokens) =>
        let f := { f with handles, tokens }
        match f.peek with
        | some ⟨.documentStart, _, _⟩ =>
          let f := f.drop
          match f.peek with
          | some t =>
            if isBoundary t.lexeme then close (.missing t.start, .ok f)
            else close (f.node true false fuel)
          | none => close (.cut, .error f.failure)
        | _ => close (f.reject .cut "did not find expected <document start>")
    else close (f.node true false fuel)

def ofChars (text : List Char) : Document :=
  let (tokens, failure) := tokens text
  ofFeed { tokens, failure := failure.getD default }

def ofText (text : String) : Document := ofChars text.toList

end Document
end LineTint.Yaml
