import LineTint.Program

namespace LineTint.CommandLine

/-- No parser is linked in, so no highlight query compiles. -/
def noParsers : Engine Unit Unit where
  compile _ := none
  parse _ _ _ := ()
  differences _ _ _ := []
  captures _ _ _ _ := []

/-- Copies a file if it can be read. Of a directory only that it is there is copied. -/
def copy (fs : FileSystem) (p : FilePath) : IO FileSystem := do
  let path := (← IO.currentDir) / p
  if ← path.isDir then return if fs.contains p then fs else fs.mount p .empty
  try return fs.mount p (.file (← IO.FS.readBinFile path).toList)
  catch _ => return fs

def namesIn (p : FilePath) : IO (List String) := do
  try return (← ((← IO.currentDir) / p).readDir).toList.map (·.fileName)
  catch _ => return []

def snapshot (home : Home) (a : Arguments) : IO FileSystem := do
  let here := (← IO.currentDir).toString
  let fs : FileSystem := { workingDirectory := FilePath.names here }
  let fs ← copy (fs.mount here .empty) home.config
  let themes := (← namesIn home.themes).map (FilePath.join home.themes)
  let theme := home.theme (a.theme.getD (Config.load fs home.config).theme)
  let queries := Language.highlighted.map fun l => home.query l.name
  ([home.directory, home.logs, home.themes] ++ themes ++ theme :: queries ++ a.file.toList).foldlM
    copy fs

def writeBack (before after : FileSystem) (p : FilePath) : IO Unit := do
  match after.read p with
  | .ok content =>
    if (before.read p).toOption ≠ some content then
      IO.FS.writeBinFile p ⟨content.toArray⟩
  | .error _ => return

def makeDirectory (p : FilePath) : IO Unit := do
  try IO.FS.createDirAll p
  catch _ => return

def printEnding : Ending → IO Unit
  | .done => return
  | .failed cause => IO.eprintln ("Error: " ++ cause.message)
  | .misused cause => IO.eprintln ("error: " ++ cause.message)

def run (arguments : List String) : IO UInt32 := do
  let home : Home := {
    configHome := ← IO.getEnv "XDG_CONFIG_HOME", home := (← IO.getEnv "HOME").getD "/" }
  let before ← match Arguments.parse arguments with
    | .ok (.run a) => snapshot home a
    | _ => pure {}
  let (after, outcome) := Program.run noParsers home before arguments
  if after.isDirectory home.logs then makeDirectory home.logs
  writeBack before after home.config
  for line in outcome.output do IO.println line
  printEnding outcome.ending
  return outcome.ending.exitCode

end LineTint.CommandLine

def main (arguments : List String) : IO UInt32 := LineTint.CommandLine.run arguments
