import LineTint.FileSystem

namespace LineTint

structure Home where
  configHome : Option FilePath := none
  home : FilePath
deriving DecidableEq, Repr

namespace Home

def directory (h : Home) : FilePath :=
  FilePath.join (h.configHome.getD (FilePath.join h.home ".config")) "token-editor"

def themes (h : Home) : FilePath := FilePath.join h.directory "themes"

def theme (h : Home) (id : String) : FilePath := FilePath.join h.themes (id ++ ".yaml")

def queries (h : Home) : FilePath := FilePath.join h.directory "queries"

def query (h : Home) (language : String) : FilePath :=
  FilePath.join (FilePath.join h.queries language) "highlights.scm"

def config (h : Home) : FilePath := FilePath.join h.directory "highlight.yaml"

def logs (h : Home) : FilePath := FilePath.join h.directory "logs"

structure LogsError where
  path : FilePath
  cause : FileError
deriving DecidableEq, Repr

def LogsError.message (e : LogsError) : String :=
  "Failed to create directory " ++ e.path ++ ": " ++ e.cause.message

def makeLogs (h : Home) (fs : FileSystem) : FileSystem × Except LogsError FilePath :=
  match fs.makeDirectories h.logs with
  | (fs, .ok ()) => (fs, .ok h.logs)
  | (fs, .error e) => (fs, .error ⟨h.logs, e⟩)

end Home
end LineTint
