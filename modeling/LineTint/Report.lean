import LineTint.Text.Column
import LineTint.Text.Quoted
import LineTint.Text.Utf8
import LineTint.Theme.Library
import LineTint.Token

namespace LineTint

namespace Json

/-- A string that holds no character in need of an escape. -/
def plain (text : String) : String := "\"" ++ text ++ "\""

def bool (b : Bool) : String := if b then "true" else "false"

def list (items : List String) : String := "[" ++ ",".intercalate items ++ "]"

def object (fields : List (String × String)) : String :=
  "\x7b" ++ ",".intercalate (fields.map fun (name, value) => plain name ++ ":" ++ value) ++ "\x7d"

end Json

namespace Token

def toJson (t : Token) : String :=
  Json.object [
    ("range", Json.object [("start", toString t.span.start), ("len", toString t.span.len)]),
    ("color", (t.color.map fun c => Json.plain c.toHex).getD "null"),
    ("font", Json.object [("bold", Json.bool t.font.bold), ("italic", Json.bool t.font.italic)])]

def fragment (content : ByteArray) (t : Token) : String :=
  Text.decodeLossy (content.extract t.span.start.toNat t.span.stop.toNat).data.toList

end Token

def FontStyle.name (f : FontStyle) : String :=
  match f.bold, f.italic with
  | true, true => "bold+italic"
  | true, false => "bold"
  | false, true => "italic"
  | false, false => ""

/-- A token in columns, behind the number of its line and in front of its text. -/
def Token.row (number : Nat) (fragment : String) (t : Token) : String :=
  " ".intercalate [
    Text.alignRight 5 (toString number),
    Text.alignRight 4 (toString t.span.start) ++ ".." ++ Text.alignLeft 4 (toString t.span.stop),
    Text.alignLeft 9 ((t.color.map Color.toHex).getD ""),
    Text.alignLeft 11 t.font.name,
    Text.quote fragment]

structure LineReport where
  number : Nat
  content : ByteArray
  tokens : List Token

namespace LineReport

def toJson (r : LineReport) : String :=
  Json.object [("line", toString r.number), ("tokens", Json.list (r.tokens.map Token.toJson))]

def row (r : LineReport) (t : Token) : String := t.row r.number (t.fragment r.content)

def printed (json : Bool) (r : LineReport) : List String :=
  if json then [r.toJson] else r.tokens.map r.row

end LineReport

namespace Theme

def Origin.name : Origin → String
  | .user => "user"
  | .builtin => "builtin"

def Listed.row (t : Listed) : String :=
  " ".intercalate [Text.alignLeft 20 t.id, Text.alignLeft 24 t.name, t.origin.name]

end Theme
end LineTint
