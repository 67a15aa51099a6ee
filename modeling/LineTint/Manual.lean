namespace LineTint.Manual

def version : String := "token-syntax 0.1.0"

def help : List String := [
  "Print syntax highlight tokens",
  "",
  "Usage: token-syntax [OPTIONS] [FILE]",
  "",
  "Arguments:",
  "  [FILE]  File to highlight",
  "",
  "Options:",
  "  -t, --theme <ID>       Theme id (defaults to the configured theme)",
  "  -l, --language <NAME>  Language name, e.g. \"rust\" (defaults to detection from the extension)",
  "      --lines <N:M>      Only print lines N..=M (1-indexed), e.g. \"10:20\"",
  "      --json             Emit one JSON object per line instead of text",
  "      --list-themes      List available themes and exit",
  "      --save-theme       Store `--theme` as the default theme in the config file",
  "  -v, --verbose...       Raise console log verbosity (-v info, -vv debug, -vvv trace)",
  "  -h, --help             Print help",
  "  -V, --version          Print version"]

end LineTint.Manual
