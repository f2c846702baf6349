/-!
# Paths

A path is a text whose names are parted by slashes. It leads from directory to
directory; a single dot stays where it is, and two dots lead to the directory
above. A path that begins with a slash starts at the root of all directories,
and one that ends with a slash asks for a directory.
-/

namespace Montage

namespace Path

/-- The names on a path. Slashes in a row count as one. -/
def names (path : String) : List String :=
  (path.splitToList (· == '/')).filter (· != "")

/-- Whether a path starts at the root. -/
def isAbsolute (path : String) : Bool := path.startsWith "/"

/-- Whether a path asks for a directory by its form. -/
def endsInSlash (path : String) : Bool := path.endsWith "/"

/-- The names on a path that lead somewhere else. -/
def components (path : String) : List String := (names path).filter (· != ".")

/-- The last component, unless that is the directory above. -/
def fileName? (path : String) : Option String :=
  match (components path).getLast? with
  | some ".." => none
  | name => name

/-- What follows the last dot of a file's name. A name whose only dot comes
first has no extension. -/
def extension? (path : String) : Option String := do
  match ((← fileName? path).splitToList (· == '.')).reverse with
  | [] | [_] | [_, ""] => none
  | e :: _ => some e

/-- The path of a file in a directory. -/
def join (directory name : String) : String :=
  if directory.isEmpty || endsInSlash directory then directory ++ name
  else directory ++ "/" ++ name

/-- Names without the single dots that come last. -/
def withoutLastDots (names : List String) : List String :=
  (names.reverse.dropWhile (· == ".")).reverse

/-- The names that lead to the directory in which the last component is to be
found. -/
def parent (names : List String) : List String :=
  withoutLastDots (withoutLastDots names).dropLast

/-- The most bytes of a name. -/
def nameLimit : Nat := 255

/-- The most bytes of a path. -/
def pathLimit : Nat := 4095

end Path

end Montage
