import Montage.Codec.Stock
import Montage.Command.Program
/-!
# The command line

Executes a command on the machine and prints its failure. The exit code is zero
for a command that succeeds, one for one that fails, and two for a command line
that is no command.
-/

namespace Montage

/-- How commands are typed. -/
def usage : String := "\n".intercalate
  ["Reposition masked objects and faces, fit n-gons and rectangles",
    "",
    "Usage: montage [--config FILE] COMMAND [OPTIONS]",
    "",
    "Commands:",
    "  reposition  -i IMAGE -m MASK [--out-image FILE] [--out-mask FILE] [PLACEMENT]",
    "  fit-ngon    -m MASK [-s SIDES]",
    "  fit-rect    -m MASK",
    "  segment     -i IMAGE -m MASK [-o DIR] [--perspective] [--reflection PERCENT] [PLACEMENT]",
    "  face        -i IMAGE -l LANDMARKS [-o DIR] [PLACEMENT]",
    "",
    "Placement:",
    "  --width N  --height N  --scale X  --pos-x X  --pos-y X"]

/-- What the file system of the machine reports, as far as it is told apart. -/
def troubleOf : IO.Error → FileTrouble
  | .noFileOrDirectory .. => .notFound
  | .alreadyExists .. => .exists
  | .inappropriateType _ code _ => if code = 21 then .isADirectory else .notADirectory
  | .invalidArgument (some _) _ _ => .nameTooLong
  | e => .worded (toString e)

/-- The outcome of an action on the file system. -/
def attempt (action : IO α) : IO (Except FileTrouble α) := do
  match ← action.toBaseIO with
  | .ok a => return .ok a
  | .error e => return .error (troubleOf e)

instance : Storage IO where
  read path := attempt (do return (← IO.FS.readBinFile path).toList)
  createDirectory path := attempt (IO.FS.createDirAll path)
  write path content := attempt (IO.FS.writeBinFile path ⟨content.toArray⟩)

instance : Console IO where
  print line := IO.println line.text

/-- Executes a command on the machine. -/
def Command.perform (c : Command) : IO UInt32 := do
  match ← (c.execute : ExceptT Failure IO Unit).run with
  | .ok () => return 0
  | .error f =>
    IO.eprintln f.report
    return 1

end Montage

open Montage in
def main (arguments : List String) : IO UInt32 := do
  match Command.ofArguments arguments with
  | .ok c => c.perform
  | .error .help =>
    IO.println usage
    return 0
  | .error .version =>
    IO.println "montage 0.3.0"
    return 0
  | .error .usage =>
    IO.eprintln usage
    return 2
