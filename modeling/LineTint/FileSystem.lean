import LineTint.FilePath
import LineTint.NameHash
import LineTint.Text.Utf8

namespace LineTint

inductive FileTree where
  | file (content : List UInt8)
  | directory (entries : List (String × FileTree))
deriving Repr, Inhabited

inductive FileError where
  | notFound
  | alreadyExists
  | notDirectory
  | isDirectory
  | nameTooLong
  | nulInPath
  | notUtf8
deriving DecidableEq, Repr

def FileError.message : FileError → String
  | .notFound => "No such file or directory (os error 2)"
  | .alreadyExists => "File exists (os error 17)"
  | .notDirectory => "Not a directory (os error 20)"
  | .isDirectory => "Is a directory (os error 21)"
  | .nameTooLong => "File name too long (os error 36)"
  | .nulInPath => "file name contained an unexpected NUL byte"
  | .notUtf8 => "stream did not contain valid UTF-8"

abbrev Location := List String

namespace FileTree

def empty : FileTree := .directory []

def isDirectory : FileTree → Bool
  | .directory _ => true
  | .file _ => false

def find? : FileTree → Location → Option FileTree
  | t, [] => some t
  | .directory entries, name :: rest => (entries.lookup name).bind (find? · rest)
  | .file _, _ :: _ => none

def replace (name : String) (t : FileTree) : List (String × FileTree) → List (String × FileTree)
  | [] => [(name, t)]
  | e :: rest => if e.1 = name then (name, t) :: rest else e :: replace name t rest

def put (t new : FileTree) : Location → FileTree
  | [] => new
  | name :: rest =>
    match t with
    | .directory entries =>
      .directory (replace name (put ((entries.lookup name).getD empty) new rest) entries)
    | .file content => .file content

end FileTree

structure FileSystem where
  root : FileTree := .empty
  workingDirectory : Location := []
deriving Repr, Inhabited

namespace FileSystem

def maxName : Nat := 255

def maxPath : Nat := 4096

def follow (fs : FileSystem) (here : Location) (step : String) : Except FileError Location :=
  match fs.root.find? here with
  | some (.directory entries) =>
    if FilePath.isIdle step then .ok here
    else if step = ".." then .ok here.dropLast
    else if maxName < step.utf8ByteSize then .error .nameTooLong
    else if (entries.lookup step).isSome then .ok (here ++ [step])
    else .error .notFound
  | _ => .error .notDirectory

def start (fs : FileSystem) (p : FilePath) : Except FileError Location :=
  if p.toList.contains '\x00' then .error .nulInPath
  else if p.isEmpty then .error .notFound
  else if maxPath ≤ p.utf8ByteSize then .error .nameTooLong
  else .ok (if p.isAbsolute then [] else fs.workingDirectory)

def locate (fs : FileSystem) (p : FilePath) : Except FileError Location := do
  p.steps.foldlM fs.follow (← fs.start p)

def get (fs : FileSystem) (p : FilePath) : Except FileError FileTree := do
  match fs.root.find? (← fs.locate p) with
  | some t => return t
  | none => throw .notFound

def contains (fs : FileSystem) (p : FilePath) : Bool :=
  match fs.get p with
  | .ok _ => true
  | .error _ => false

def isDirectory (fs : FileSystem) (p : FilePath) : Bool :=
  match fs.get p with
  | .ok t => t.isDirectory
  | .error _ => false

def read (fs : FileSystem) (p : FilePath) : Except FileError (List UInt8) := do
  match ← fs.get p with
  | .file content => return content
  | .directory _ => throw .isDirectory

def readText (fs : FileSystem) (p : FilePath) : Except FileError String := do
  match Text.decode? (← fs.read p) with
  | some text => return text
  | none => throw .notUtf8

/-- The names in a directory, in the order of their hashes. -/
def list (fs : FileSystem) (p : FilePath) : Except FileError (List String) := do
  match ← fs.get p with
  | .directory entries => return NameHash.sort (entries.map (·.1))
  | .file _ => throw .notDirectory

/-- The directory from which the last step of a path is taken, that step, and whether a slash
follows it. Nothing but slashes has no last step, and is given as `.`. -/
def lastStep (fs : FileSystem) (p : FilePath) : Except FileError (Location × String × Bool) := do
  let here ← fs.start p
  let steps := p.steps.reverse
  match steps.dropWhile String.isEmpty with
  | [] => return (here, ".", true)
  | last :: before =>
    let here ← (before.reverse ++ ["."]).foldlM fs.follow here
    return (here, last, steps.head? = some "")

def entry? (fs : FileSystem) (here : Location) (name : String) :
    Except FileError (Option FileTree) :=
  match fs.root.find? here with
  | some (.directory entries) =>
    if maxName < name.utf8ByteSize then .error .nameTooLong else .ok (entries.lookup name)
  | _ => .error .notDirectory

def write (fs : FileSystem) (p : FilePath) (content : List UInt8) :
    Except FileError FileSystem := do
  let (here, name, slash) ← fs.lastStep p
  if slash || name = "." || name = ".." then throw .isDirectory
  match ← fs.entry? here name with
  | some (.directory _) => throw .isDirectory
  | _ => return { fs with root := fs.root.put (.file content) (here ++ [name]) }

def makeDirectory (fs : FileSystem) (p : FilePath) : Except FileError FileSystem := do
  let (here, name, _) ← fs.lastStep p
  if name = "." || name = ".." then throw .alreadyExists
  match ← fs.entry? here name with
  | some _ => throw .alreadyExists
  | none => return { fs with root := fs.root.put .empty (here ++ [name]) }

/-- A path and all above it, as far as `steps` of them; the root and the empty path are left out. -/
def ancestry : Nat → FilePath → List FilePath
  | 0, _ => []
  | steps + 1, p =>
    match p.parent? with
    | none => []
    | some up => p :: ancestry steps up

/-- Makes the first of some directories, each of which is in the next. What is made before
something fails stays. -/
def makeFirst (fs : FileSystem) : List FilePath → FileSystem × Except FileError Unit
  | [] => (fs, .ok ())
  | p :: above =>
    let finish (fs : FileSystem) (tried : Except FileError FileSystem) :=
      match tried with
      | .ok fs => (fs, .ok ())
      | .error e => (fs, if fs.isDirectory p then .ok () else .error e)
    match fs.makeDirectory p with
    | .error .notFound =>
      match fs.makeFirst above with
      | (fs, .ok ()) => finish fs (fs.makeDirectory p)
      | (fs, .error e) => (fs, .error e)
    | tried => finish fs tried

def makeDirectories (fs : FileSystem) (p : FilePath) : FileSystem × Except FileError Unit :=
  fs.makeFirst (ancestry (p.names.length + 1) p)

def mount (fs : FileSystem) (p : FilePath) (node : FileTree) : FileSystem :=
  let start := if p.isAbsolute then [] else fs.workingDirectory
  let (root, place) := p.names.foldl (fun (root, here) name =>
    let here := if name = ".." then here.dropLast else here ++ [name]
    (if (root.find? here).isSome then root else root.put .empty here, here)) (fs.root, start)
  { fs with root := root.put node place }

end FileSystem
end LineTint
