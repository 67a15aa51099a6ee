import LineTint.Theme.Basic

namespace LineTint.Theme

def characters (lines : List String) : List Char := lines.flatMap fun line => line.toList ++ ['\n']

def ofLines (lines : List String) : String := String.ofList (characters lines)

def defaultDark : List String := [
    "version: 1",
    "name: \"Default Dark\"",
    "",
    "# Capture tag → style. Tags fall back to their parent (\"keyword.function\"",
    "# uses \"keyword\" unless it has its own entry). Tags missing here are not",
    "# highlighted.",
    "syntax:",
    "  attribute: \"#BBB529\"",
    "  boolean: \"#CC7832\"",
    "  comment: \x7b color: \"#808080\", italic: true \x7d",
    "  constant: \"#9876AA\"",
    "  constant.builtin: \"#CC7832\"",
    "  constructor: \"#FFC66D\"",
    "  embedded: \"#D4D4D4\"",
    "  escape: \"#CC7832\"",
    "  function: \"#FFC66D\"",
    "  function.builtin: \"#8888C6\"",
    "  function.macro: \"#4EADE5\"",
    "  keyword: \"#CC7832\"",
    "  label: \"#20999D\"",
    "  module: \"#A9B7C6\"",
    "  number: \"#6897BB\"",
    "  operator: \"#A9B7C6\"",
    "  property: \"#9876AA\"",
    "  punctuation.delimiter: \"#CC7832\"",
    "  string: \"#6A8759\"",
    "  string.special: \"#6A8759\"",
    "  tag: \"#E8BF6A\"",
    "  type: \"#A9B7C6\"",
    "  type.builtin: \"#CC7832\"",
    "  variable.builtin: \x7b color: \"#94558D\", italic: true \x7d",
    "  variable.parameter: \"#A9B7C6\""]

def githubLight : List String := [
    "version: 1",
    "name: \"GitHub Light\"",
    "",
    "syntax:",
    "  attribute: \"#0550AE\"",
    "  boolean: \"#0550AE\"",
    "  comment: \"#6E7781\"",
    "  constant: \"#0550AE\"",
    "  constructor: \"#953800\"",
    "  escape: \"#0A3069\"",
    "  function: \"#8250DF\"",
    "  function.macro: \"#8250DF\"",
    "  keyword: \"#CF222E\"",
    "  label: \"#0550AE\"",
    "  number: \"#0550AE\"",
    "  operator: \"#0550AE\"",
    "  property: \"#0550AE\"",
    "  string: \"#0A3069\"",
    "  tag: \"#116329\"",
    "  type: \"#953800\"",
    "  type.builtin: \x7b color: \"#CF222E\", bold: true \x7d",
    "  variable.builtin: \"#0550AE\"",
    "  variable.parameter: \"#24292F\""]

/-- The built-in themes' texts with their ids, in the order in which they are listed. -/
def builtin : List (String × String) :=
  [("default-dark", ofLines defaultDark), ("github-light", ofLines githubLight)]

def builtin? (id : String) : Option String := builtin.lookup id

end LineTint.Theme
