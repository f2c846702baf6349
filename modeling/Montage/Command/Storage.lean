import Montage.Codec.Coding
import Montage.Command.Failure
import Montage.Command.Path
/-!
# Storage — what a command can do to its surroundings

A command reads and writes files, makes directories and prints lines, wherever
this can be done. Such a place is the machine, and `Session`, which is a disk
and a console as a value. `openPhoto`, `openMask` and `loadDocument` take from
it what a command works on, and `savePicture` and `makeDirectory` put back what
it has made.
-/

namespace Montage

/-- A place with files and directories. -/
class Storage (m : Type → Type) where
  /-- The content of a file. -/
  read : (path : String) → m (Except FileTrouble (List UInt8))
  /-- Makes a directory and those above it, unless it is there. -/
  createDirectory : (path : String) → m (Except FileTrouble Unit)
  /-- Puts a file in the place of the one that is there. -/
  write : (path : String) → (content : List UInt8) → m (Except FileTrouble Unit)

/-- A line of text. -/
structure Line where
  text : String

/-- A place where something can be printed. -/
class Console (m : Type → Type) where
  /-- Prints a line. -/
  print : Line → m Unit

/-! ## What is in a file -/

/-- A file's bytes as text. -/
def textOf (bytes : List UInt8) : Except FileTrouble String :=
  match String.fromUTF8? ⟨bytes.toArray⟩ with
  | some s => .ok s
  | none => .error .notText

/-- A document made of a file. -/
def readText (read : String → Except Fault α) (content : Except FileTrouble (List UInt8)) :
    Except Fault α :=
  match content >>= textOf with
  | .ok text => read text
  | .error t => .error (.file t)

section

variable [Codecs]

/-- A picture made of a file, whose extension tells the format. -/
def readPicture (path : String) (content : Except FileTrouble (List UInt8)) :
    Except CodecFlaw Picture :=
  match content, Path.extension? path >>= Format.ofExtension? with
  | .error .isADirectory, none => .error .unknownFormat
  | .error t, _ => .error (.file t)
  | .ok _, none => .error .unknownFormat
  | .ok bytes, some f => f.decode bytes

/-- A picture made of the file that is opened for it. -/
def openedPicture (role : Role) (path : String) (content : Except FileTrouble (List UInt8)) :
    Except Failure Picture :=
  match readPicture path content with
  | .ok p => .ok p
  | .error e => .error ⟨none, .fault (.picture (.opening role path e))⟩

end

/-! ## Steps of a command -/

section

variable {m : Type → Type} [Monad m] [Storage m]

/-- The document in a file, which a command is about. -/
def loadDocument (a : Activity) (read : String → Except Fault α) (path : String) :
    ExceptT Failure m α := do
  during a (readText read (← (Storage.read path : m _)))

/-- Makes the directory that a command stores its pictures in. -/
def makeDirectory (path : String) : ExceptT Failure m Unit := do
  match ← (Storage.createDirectory path : m _) with
  | .ok () => return ()
  | .error t => throw ⟨some (.creatingDirectory path), .refused t⟩

/-- The format of a file that is to be written. -/
def formatFor (path : String) : Except CodecFlaw Format :=
  match Path.extension? path with
  | none => .error .unknownFormat
  | some e =>
    match Format.ofExtension? e with
    | none => .error (.unknownExtension e)
    | some f => .ok f

/-- The failure to store a picture. -/
def notSaved (path : String) (flaw : CodecFlaw) : Failure :=
  ⟨some (.writing path), .fault (.picture (.saving path flaw))⟩

variable [Codecs]

/-- The picture in a file, for the part that it plays. -/
def openPicture (role : Role) (convert : Picture → α) (path : String) : ExceptT Failure m α := do
  return convert (← openedPicture role path (← (Storage.read path : m _)))

/-- The photo in a file. -/
def openPhoto : (path : String) → ExceptT Failure m Photo := openPicture .photo Picture.toPhoto

/-- The mask in a file. -/
def openMask : (path : String) → ExceptT Failure m Mask := openPicture .mask Picture.toMask

/-- Stores a picture. A file is made for it as soon as its format is known,
and stays empty if the picture has no form in that format. -/
def savePicture (path : String) (p : Picture) : ExceptT Failure m Unit := do
  match formatFor path with
  | .error flaw => throw (notSaved path flaw)
  | .ok format =>
    -- even a picture that has no form in the format leaves a file behind
    let encoded := format.encode p
    match ← (Storage.write path (encoded.toOption.getD []) : m _) with
    | .error t => throw (notSaved path (.file t))
    | .ok () =>
      match encoded with
      | .ok _ => return ()
      | .error flaw => throw (notSaved path flaw)

/-- Stores a photo. -/
def savePhoto (photo : Photo) (path : String) : ExceptT Failure m Unit :=
  savePicture path (.ofPhoto photo)

/-- Stores a mask. -/
def saveMask (mask : Mask) (path : String) : ExceptT Failure m Unit :=
  savePicture path (.ofMask mask)

end

end Montage
