import Montage.Codec.Stock
import Montage.Command.Program
/-!
# Disks — a file system as a value

A disk holds files and directories below a root. Its view is `Disk.read`. It
answers as a file system does: a path leads through directories only, a name
belongs to one thing and has a limited length, and a path that does not start
at the root starts at the working directory.

A disk with a console beside it is a `Session`, in which a command can be
executed.
-/

namespace Montage

/-- What a name stands for. -/
inductive Entry where
  | directory
  | file (content : List UInt8)
deriving DecidableEq

/-- The names that lead straight to a thing from the root. -/
abbrev Location := List String

/-- A file system. -/
structure Disk where
  /-- The working directory. -/
  home : Location
  entries : List (Location × Entry)

namespace Disk

/-- The directories that every disk has. -/
def furnishings : List Location :=
  [["bin"], ["dev"], ["etc"], ["home"], ["opt"], ["proc"], ["root"], ["sys"], ["tmp"],
    ["tmp", "work"], ["usr"], ["var"]]

/-- A disk without files of its own: there is only the file that is always
empty. -/
def empty : Disk where
  home := ["tmp", "work"]
  entries := (["dev", "null"], .file []) :: furnishings.map fun l => (l, .directory)

/-- What stands at a location. The root is always there. -/
def entry? (d : Disk) (l : Location) : Option Entry :=
  if l.isEmpty then some .directory else d.entries.lookup l

/-- A disk with something put at a location. -/
def put (d : Disk) (l : Location) (e : Entry) : Disk :=
  { d with entries := (l, e) :: d.entries.filter fun p => p.1 != l }

/-! ## Following a path -/

/-- The location that one name leads to from a directory. -/
def step (l : Location) (name : String) : Except FileTrouble Location :=
  if name = "." then .ok l
  else if name = ".." then .ok l.dropLast
  else if Path.nameLimit < name.utf8ByteSize then .error .nameTooLong
  else .ok (l ++ [name])

/-- The directory that names lead to from another one. -/
def walk (d : Disk) : Location → List String → Except FileTrouble Location
  | l, [] => .ok l
  | l, name :: rest => do
    let next ← step l name
    match d.entry? next with
    | some .directory => walk d next rest
    | some (.file _) => throw .notADirectory
    | none => throw .notFound

/-- The directory that a path starts at. A path must have some text, but not
too much. -/
def start (d : Disk) (path : String) : Except FileTrouble Location :=
  if path.isEmpty then .error .notFound
  else if Path.pathLimit < path.utf8ByteSize then .error .nameTooLong
  else .ok (if Path.isAbsolute path then [] else d.home)

/-- The directory that holds the last name on a path. -/
def above (d : Disk) (path : String) : Except FileTrouble Location := do
  d.walk (← d.start path) (Path.names path).dropLast

/-- The location of what a path leads to. -/
def locate (d : Disk) (path : String) : Except FileTrouble Location := do
  step (← d.above path) ((Path.names path).getLast?.getD ".")

/-! ## Files -/

/-- The content of a file. -/
def read (d : Disk) (path : String) : Except FileTrouble (List UInt8) := do
  match d.entry? (← d.locate path) with
  | some (.file content) => if Path.endsInSlash path then throw .notADirectory else return content
  | some .directory => throw .isADirectory
  | none => throw .notFound

/-- A disk on which a file holds the given content. -/
def write (d : Disk) (path : String) (content : List UInt8) : Except FileTrouble Disk := do
  let l ← d.above path
  -- a path that asks for a directory is refused whatever it leads to
  if Path.endsInSlash path then throw .isADirectory
  let l ← step l ((Path.names path).getLast?.getD ".")
  match d.entry? l with
  | some .directory => throw .isADirectory
  | _ => return d.put l (.file content)

/-! ## Directories -/

/-- Whether names lead to a directory. -/
def isDirectory (d : Disk) (l : Location) (names : List String) : Bool :=
  (d.walk l names).toOption.isSome

/-- Makes the directory that names lead to. The last of them must be a name of
its own. -/
def make (d : Disk) (l : Location) (names : List String) : Except FileTrouble Disk := do
  let above ← d.walk l names.dropLast
  match names.getLast? with
  | none | some "." | some ".." => throw .exists
  | some name =>
    let l ← step above name
    match d.entry? l with
    | some _ => throw .exists
    | none => return d.put l .directory

/-- Makes the directory that names lead to, unless it is there. Where that
fails because one above it is missing, those above are made first, of which
there are fewer than `fuel`. What has been made before a trouble stays. -/
def makeAll (l : Location) : (fuel : Nat) → List String → Disk → Except FileTrouble Unit × Disk
  | 0, _, d => (.ok (), d)
  | fuel + 1, names, d =>
    let settle := fun (t : FileTrouble) (d : Disk) =>
      if d.isDirectory l names then (.ok (), d) else (.error t, d)
    match d.make l names with
    | .ok d => (.ok (), d)
    | .error .notFound =>
      match makeAll l fuel (Path.parent names) d with
      | (.error t, d) => (.error t, d)
      | (.ok (), d) =>
        match d.make l names with
        | .ok d => (.ok (), d)
        | .error t => settle t d
    | .error t => settle t d

/-- Makes a directory and those above it. A path without text asks for none. -/
def createDirectory (d : Disk) (path : String) : Except FileTrouble Unit × Disk :=
  if path.isEmpty then (.ok (), d)
  else
    match d.start path with
    | .error t => (.error t, d)
    | .ok l => makeAll l ((Path.names path).length + 1) (Path.names path) d

end Disk

/-! ## Sessions -/

/-- A disk, and what has been printed on the console beside it. -/
structure Session where
  disk : Disk
  /-- The printed lines, in their order. -/
  printed : List Line

instance : Storage (StateM Session) where
  read path s := (s.disk.read path, s)
  createDirectory path s :=
    let (result, d) := s.disk.createDirectory path
    (result, { s with disk := d })
  write path content s :=
    match s.disk.write path content with
    | .ok d => (.ok (), { s with disk := d })
    | .error t => (.error t, s)

instance : Console (StateM Session) where
  print line s := ((), { s with printed := s.printed ++ [line] })

namespace Command

variable [Codecs]

/-- Executes a command in a session. -/
def executeIn (c : Command) (s : Session) : Except Failure Unit × Session :=
  (c.execute : ExceptT Failure (StateM Session) Unit).run.run s

/-- Executes a command on a disk. What comes back is the line that it has
printed last, if there is one. -/
def runOn (c : Command) (d : Disk) : Except Failure (Option Line) × Disk :=
  let (result, s) := c.executeIn ⟨d, []⟩
  (result.map fun _ => s.printed.getLast?, s.disk)

end Command

end Montage
