import Montage.Command.Number
import Montage.Command.Override
/-!
# Arguments — commands as they are typed

A command line names a job and gives its parameters, each by a long name or
by a short one: `--name value`, `--name=value`, `-nvalue`, `-n=value` or
`-n value`. A value that begins with a dash must be attached. Each parameter
is given once at most; only the settings may be given both before and after
the name of the job, and then the later ones count.
-/

namespace Montage

/-- What is to be done, and with which files. -/
inductive Job where
  | reposition (photo mask outPhoto outMask : String) (overrides : Overrides)
  | fitNgon (mask : String) (sides : Nat)
  | fitRect (mask : String)
  | segment (photo mask directory : String) (straighten : Bool) (reflection : Option Float)
    (overrides : Overrides)
  | face (photo landmarks directory : String) (overrides : Overrides)

/-- A job under settings that are kept in a file, or under the default
settings. -/
structure Command where
  settings : Option String
  job : Job

/-- Why a command line is no command. -/
inductive Refusal where
  /-- It asks for help. -/
  | help
  /-- It asks for the version. -/
  | version
  /-- It cannot be understood. -/
  | usage
deriving DecidableEq

namespace Command

/-! ## Parameters -/

/-- The parameters that have been given so far. -/
structure Draft where
  settings : Option String := none
  photo : Option String := none
  mask : Option String := none
  outPhoto : Option String := none
  outMask : Option String := none
  landmarks : Option String := none
  directory : Option String := none
  sides : Option Nat := none
  straighten : Bool := false
  reflection : Option Float := none
  overrides : Overrides := {}

/-- How a parameter is entered into a draft. -/
inductive Entry where
  /-- By being named. -/
  | switch (enter : Draft → Draft)
  /-- By a value, which may be refused. -/
  | valued (enter : Draft → String → Option Draft)

/-- A parameter with its names. -/
structure Parameter where
  name : String
  short : Option Char
  entry : Entry

/-- A path. It must not be empty. -/
def path? (s : String) : Option String := if s.isEmpty then none else some s

/-- A parameter that has a value. -/
def valued (name : String) (short : Option Char) (read : String → Option α)
    (set : Draft → α → Draft) : Parameter :=
  ⟨name, short, .valued fun d s => (read s).map (set d)⟩

def settingsParameter : Parameter :=
  valued "config" (some 'c') path? fun d v => { d with settings := some v }

def photoParameter : Parameter :=
  valued "image" (some 'i') path? fun d v => { d with photo := some v }

def maskParameter : Parameter :=
  valued "mask" (some 'm') path? fun d v => { d with mask := some v }

def outPhotoParameter : Parameter :=
  valued "out-image" none path? fun d v => { d with outPhoto := some v }

def outMaskParameter : Parameter :=
  valued "out-mask" none path? fun d v => { d with outMask := some v }

def landmarksParameter : Parameter :=
  valued "landmarks" (some 'l') path? fun d v => { d with landmarks := some v }

def directoryParameter : Parameter :=
  valued "out-dir" (some 'o') path? fun d v => { d with directory := some v }

def sidesParameter : Parameter :=
  valued "sides" (some 's') count? fun d v => { d with sides := some v }

def straightenParameter : Parameter :=
  ⟨"perspective", none, .switch fun d => { d with straighten := true }⟩

def reflectionParameter : Parameter :=
  valued "reflection" none real? fun d v => { d with reflection := some v }

/-- A parameter that overrides a field of the placement. -/
def overriding (name : String) (read : String → Option α) (set : Overrides → α → Overrides) :
    Parameter :=
  valued name none read fun d v => { d with overrides := set d.overrides v }

/-- The parameters that override fields of the placement. -/
def overrideParameters : List Parameter :=
  [overriding "width" pixels? fun o v => { o with width := some v },
    overriding "height" pixels? fun o v => { o with height := some v },
    overriding "scale" real? fun o v => { o with scale := some v },
    overriding "pos-x" real? fun o v => { o with posX := some v },
    overriding "pos-y" real? fun o v => { o with posY := some v }]

/-! ## Jobs -/

/-- A kind of job: its name, its parameters, and the job that a draft
describes if nothing is missing from it. -/
structure Kind where
  name : String
  parameters : List Parameter
  job : Draft → Option Job

/-- The file that holds the repositioned photo unless another is named. -/
def defaultOutPhoto : String := "resized.png"

/-- The file that holds the repositioned mask unless another is named. -/
def defaultOutMask : String := "resized_mask.png"

/-- The directory that results go to unless another is named. -/
def defaultDirectory : String := "."

/-- The sides of a polygon to be fitted unless another number is given. -/
def defaultSides : Nat := 4

/-- All kinds of jobs. -/
def kinds : List Kind :=
  [⟨"reposition",
      [photoParameter, maskParameter, outPhotoParameter, outMaskParameter] ++ overrideParameters,
      fun d => do
        return .reposition (← d.photo) (← d.mask) (d.outPhoto.getD defaultOutPhoto)
          (d.outMask.getD defaultOutMask) d.overrides⟩,
    ⟨"fit-ngon", [maskParameter, sidesParameter], fun d => do
        return .fitNgon (← d.mask) (d.sides.getD defaultSides)⟩,
    ⟨"fit-rect", [maskParameter], fun d => do return .fitRect (← d.mask)⟩,
    ⟨"segment",
      [photoParameter, maskParameter, directoryParameter, straightenParameter, reflectionParameter]
        ++ overrideParameters,
      fun d => do
        return .segment (← d.photo) (← d.mask) (d.directory.getD defaultDirectory) d.straighten
          d.reflection d.overrides⟩,
    ⟨"face", [photoParameter, landmarksParameter, directoryParameter] ++ overrideParameters,
      fun d => do
        return .face (← d.photo) (← d.landmarks) (d.directory.getD defaultDirectory)
          d.overrides⟩]

/-! ## Reading -/

/-- What an argument is by its form. -/
inductive Form where
  /-- Two dashes, after which no argument names a parameter. -/
  | separator
  /-- A long name, perhaps with a value. -/
  | long (name : String) (value : Option String)
  /-- A short name, perhaps with a value. -/
  | short (name : Char) (value : Option String)
  | word (text : String)

/-- The value attached to a short name. -/
def attached : List Char → Option String
  | [] => none
  | '=' :: rest => some (String.ofList rest)
  | rest => some (String.ofList rest)

/-- The form of an argument. A single dash is a word. -/
def formOf (argument : String) : Form :=
  match argument.toList with
  | ['-', '-'] => .separator
  | '-' :: '-' :: rest =>
    let name := String.ofList (rest.takeWhile (· != '='))
    match rest.dropWhile (· != '=') with
    | [] => .long name none
    | _ :: value => .long name (some (String.ofList value))
  | '-' :: c :: rest => .short c (attached rest)
  | _ => .word argument

/-- Whether an argument can be the value of the parameter before it. -/
def isWord (argument : String) : Bool :=
  match formOf argument with
  | .word _ => true
  | _ => false

/-- The value of a parameter, as it is given. -/
structure Given where
  /-- The text, which a parameter without a value does not have. -/
  text : Option String
  /-- Whether the text is an argument of its own. -/
  separate : Bool
  /-- The arguments behind it. -/
  rest : List String

/-- The value of a parameter, from what is attached to its name and from the
arguments behind that, if it has one exactly when it takes one. -/
def Parameter.given (p : Parameter) (attachment : Option String) (rest : List String) :
    Option Given :=
  match p.entry, attachment, rest with
  | .switch _, none, _ => some ⟨none, false, rest⟩
  | .switch _, some _, _ => none
  | .valued _, some v, _ => some ⟨some v, false, rest⟩
  | .valued _, none, v :: after => if isWord v then some ⟨some v, true, after⟩ else none
  | .valued _, none, [] => none

/-- Enters a parameter into a draft, unless its value is refused. -/
def Parameter.enter (p : Parameter) (text : Option String) (d : Draft) : Option Draft :=
  match p.entry, text with
  | .switch f, _ => some (f d)
  | .valued f, some v => f d v
  | .valued _, none => none

/-- The request that an argument makes in place of a parameter. Only before
the name of a job can the version be asked for. -/
def request? (top : Bool) : Form → Option Refusal
  | .long "help" none => some .help
  | .short 'h' _ => some .help
  | .long "version" none => if top then some .version else none
  | .short 'V' _ => if top then some .version else none
  | _ => none

/-- The parameter that an argument names. -/
def named? (parameters : List Parameter) : Form → Option (Parameter × Option String)
  | .long name value => (parameters.find? (·.name == name)).map (·, value)
  | .short c value => (parameters.find? (·.short == some c)).map (·, value)
  | _ => none

/-- What parameters have been made into. -/
structure Reading where
  draft : Draft
  /-- The arguments from the first word on. -/
  rest : List String
  /-- Whether the last value could be entered. -/
  sound : Bool

/-- Reads parameters up to the first word. `given` holds the names of the
parameters that have been given.

A value that is an argument of its own is entered when the next parameter
comes. With no such parameter it is entered last of all, so that a value that
cannot be entered is held back until the words have been read. -/
def readParameters (top : Bool) (parameters : List Parameter) :
    (fuel : Nat) → (given : List String) → Draft → List String → Except Refusal Reading
  | _, _, d, [] => .ok ⟨d, [], true⟩
  | 0, _, _, _ => .error .usage
  | fuel + 1, given, d, a :: rest =>
    match formOf a with
    | .word _ => .ok ⟨d, a :: rest, true⟩
    | .separator => if rest.isEmpty then .ok ⟨d, [], true⟩ else .error .usage
    | form =>
      match request? top form, named? parameters form with
      | some r, _ => .error r
      | none, none => .error .usage
      | none, some (p, attachment) =>
        match p.given attachment rest with
        | none => .error .usage
        | some g =>
          match if given.contains p.name then none else p.enter g.text d with
          | some d => readParameters top parameters fuel (p.name :: given) d g.rest
          | none =>
            let last := match g.rest with
              | [] => true
              | next :: _ => isWord next
            if g.separate && last then .ok ⟨d, g.rest, false⟩ else .error .usage

/-- What is asked for by the word `help` and the words after it: help with one
job at most. -/
def helpWith : List String → Refusal
  | [] => .help
  | [name] => if name == "help" || kinds.any (·.name == name) then .help else .usage
  | _ => .usage

/-- **The command that a command line gives.** -/
def ofArguments (arguments : List String) : Except Refusal Command := do
  let before ← readParameters true [settingsParameter] arguments.length [] {} arguments
  match before.rest with
  | [] => throw .usage
  | name :: rest =>
    if name == "help" then throw (helpWith rest)
    match kinds.find? (·.name == name) with
    | none => throw .usage
    | some kind =>
      let after ←
        readParameters false (settingsParameter :: kind.parameters) rest.length [] {} rest
      match before.sound && after.sound, after.rest, kind.job after.draft with
      | true, [], some job => return ⟨after.draft.settings <|> before.draft.settings, job⟩
      | _, _, _ => throw .usage

end Command

end Montage
