import LineTint.FileSystem
import LineTint.Language
import LineTint.Locations

namespace LineTint

inductive QuerySource where
  | bundled
  | text (source : String)
deriving DecidableEq, Repr

structure Grammar where
  language : Language
  query : QuerySource := .bundled
deriving DecidableEq, Repr

namespace Grammar

def bundled? (l : Language) : Option Grammar := if l.isHighlighted then some { language := l } else none

def withQuery (g : Grammar) (source : String) : Grammar := { g with query := .text source }

/-- The grammar of a language. If user queries are wanted, the user's own file for the language
takes the place of the bundled query, provided that it can be read. -/
def load? (fs : FileSystem) (home : Home) (userQueries : Bool) (l : Language) : Option Grammar :=
  (bundled? l).map fun g =>
    match if userQueries then (fs.readText (home.query l.name)).toOption else none with
    | some source => g.withQuery source
    | none => g

def describe (g : Grammar) (source : String) : String :=
  "Grammar \x7b id: " ++ g.language.identifier ++ ", query_len: " ++ toString source.utf8ByteSize ++
    " \x7d"

end Grammar
end LineTint
