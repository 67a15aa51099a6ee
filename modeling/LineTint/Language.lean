import LineTint.FilePath

namespace LineTint

inductive Language where
  | plainText
  | rust
  | python
  | go
  | php
  | c
  | cpp
  | java
  | bash
  | scheme
  | ini
  | xml
deriving DecidableEq, Repr, Inhabited

namespace Language

def highlighted : List Language :=
  [.rust, .python, .go, .php, .c, .cpp, .java, .bash, .scheme, .ini, .xml]

def isHighlighted (l : Language) : Bool := l ≠ .plainText

def name : Language → String
  | .plainText => "text"
  | .rust => "rust"
  | .python => "python"
  | .go => "go"
  | .php => "php"
  | .c => "c"
  | .cpp => "cpp"
  | .java => "java"
  | .bash => "bash"
  | .scheme => "scheme"
  | .ini => "ini"
  | .xml => "xml"

def title : Language → String
  | .plainText => "Plain Text"
  | .rust => "Rust"
  | .python => "Python"
  | .go => "Go"
  | .php => "PHP"
  | .c => "C"
  | .cpp => "C++"
  | .java => "Java"
  | .bash => "Bash"
  | .scheme => "Scheme"
  | .ini => "INI"
  | .xml => "XML"

def identifier : Language → String
  | .plainText => "PlainText"
  | .rust => "Rust"
  | .python => "Python"
  | .go => "Go"
  | .php => "Php"
  | .c => "C"
  | .cpp => "Cpp"
  | .java => "Java"
  | .bash => "Bash"
  | .scheme => "Scheme"
  | .ini => "Ini"
  | .xml => "Xml"

def suffixes : Language → List String
  | .plainText => []
  | .rust => ["rs"]
  | .python => ["py", "pyi"]
  | .go => ["go"]
  | .php => ["php"]
  | .c => ["c", "h"]
  | .cpp => ["cpp", "cc", "cxx", "hpp", "hh", "hxx"]
  | .java => ["java"]
  | .bash => ["sh", "bash", "zsh"]
  | .scheme => ["scm", "ss", "rkt"]
  | .ini => ["ini", "cfg"]
  | .xml => ["xml", "svg", "plist"]

/-- Takes letters to lower case. Names and suffixes are ASCII, and of the characters outside it
only the Kelvin sign has an ASCII letter for its lower case. -/
def foldCase (text : String) : String := text.map fun c => if c = '\u212A' then 'k' else c.toLower

def ofSuffix (suffix : String) : Language :=
  (highlighted.find? (·.suffixes.contains (foldCase suffix))).getD .plainText

def ofPath (p : FilePath) : Language := (p.suffix?.map ofSuffix).getD .plainText

def ofName? (name : String) : Option Language :=
  (highlighted ++ [plainText]).find? (·.name = foldCase name)

end Language
end LineTint
