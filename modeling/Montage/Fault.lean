import Montage.Flaw
import Montage.Json.Flaw
/-!
# Faults — why an operation fails

Every operation that can fail says why by a `Fault`, and `Fault.message` is
the text of it. `Fault.advice` turns a fault into words for somebody who has
uploaded a photo: what happened, what to try, and whether trying again may
help.
-/

namespace Montage

/-- Why an operation fails. -/
inductive Fault where
  /-- No object shows in the mask. -/
  | noObjectFound
  /-- No pixel of the mask is set. -/
  | emptyMask
  /-- No edge can be collapsed any more, with `remaining` vertices left. -/
  | noFitFound (remaining : Nat)
  /-- The hull has fewer vertices than the polygon wanted has sides. -/
  | hullTooSmall (vertices sides : Nat)
  /-- No face with an area was found. -/
  | noFaceFound
  /-- The search for faces has itself failed. -/
  | detector (detail : String)
  | invalidSetting (flaw : SettingFlaw)
  /-- A photo and a mask that do not belong together. -/
  | sizeMismatch (image mask : Size)
  | picture (flaw : PictureFlaw)
  | file (trouble : FileTrouble)
  | document (flaw : DocumentFlaw)

namespace Fault

/-- A size as it is written in messages. -/
def sizeText (s : Size) : String :=
  "(" ++ toString s.width ++ ", " ++ toString s.height ++ ")"

/-- The text of a fault. -/
def message : Fault → String
  | noObjectFound => "no object found in mask"
  | emptyMask => "mask has no non-zero pixels"
  | noFitFound n =>
    "could not find the best fit n-gon (stalled at " ++ toString n ++ " vertices)"
  | hullTooSmall v n =>
    "convex hull has only " ++ toString v ++ " vertices, too few for a " ++ toString n ++ "-gon"
  | noFaceFound => "Face not found"
  | detector d => "face landmark detection failed: " ++ d
  | invalidSetting f => "invalid parameters: " ++ f.message
  | sizeMismatch i m => "image is " ++ sizeText i ++ " but mask is " ++ sizeText m
  | picture f => "image processing failed: " ++ f.message
  | file t => "file I/O error: " ++ t.message
  | document f => "serialization error: " ++ f.message

/-- The message of what has caused a fault, where it has a cause of its own. -/
def causeMessage? : Fault → Option String
  | file t => some t.message
  | document f => some f.message
  | _ => none

end Fault

/-! ## Advice -/

/-- What a fault means for somebody who has uploaded a photo. -/
inductive Severity where
  /-- The same photo may work in a moment. -/
  | transient
  /-- Another photo or mask is needed. -/
  | actionRequired
  /-- Trying again does not help. -/
  | permanent
deriving DecidableEq

/-- A fault in plain words, with what to do about it. -/
structure Advice where
  message : String
  suggestion : String
  retriable : Bool
  severity : Severity

/-- **The plain words for a fault.** Only a failing search for faces is worth
another try, and a missing face is named as it is. -/
def Fault.advice : Fault → Advice
  | .noObjectFound | .emptyMask =>
    { message := "We couldn't find the object in this photo."
      suggestion := "Try a photo where the object stands out clearly from the background."
      retriable := false
      severity := .actionRequired }
  | .noFitFound _ | .hullTooSmall .. =>
    { message := "We couldn't straighten this object."
      suggestion := "Turn off perspective correction, or use a photo of a flat, four-cornered object."
      retriable := false
      severity := .permanent }
  | .noFaceFound =>
    { message := Fault.message .noFaceFound
      suggestion := "Use a photo with a clearly visible, front-facing face."
      retriable := false
      severity := .actionRequired }
  | .detector detail =>
    { message := "Face detection is unavailable right now."
      suggestion := "Please try again in a moment. (" ++ detail ++ ")"
      retriable := true
      severity := .transient }
  | .invalidSetting flaw =>
    { message := "Some of the settings are out of range."
      suggestion := "Adjust the settings and try again. (" ++ flaw.message ++ ")"
      retriable := false
      severity := .permanent }
  | .sizeMismatch .. =>
    { message := "The mask doesn't match the photo."
      suggestion := "The mask must be exactly the same size as the photo."
      retriable := false
      severity := .permanent }
  | .picture _ =>
    { message := "There's a problem with this image."
      suggestion :=
        "The image may be damaged or in an unusual format. Try saving it as a JPEG or PNG first."
      retriable := false
      severity := .permanent }
  | .file _ =>
    { message := "We couldn't read or write a file."
      suggestion := "Check that the file exists and that there is free disk space."
      retriable := false
      severity := .permanent }
  | .document _ =>
    { message := "The settings file couldn't be read."
      suggestion := "Check the file is valid JSON."
      retriable := false
      severity := .permanent }

end Montage
