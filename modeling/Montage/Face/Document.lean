import Montage.Face.Landmark
import Montage.Fault
import Montage.Json.Reader
/-!
# Landmarks — the document they are read from

Faces that have been found elsewhere are handed over as JSON: a list of faces,
each a list of landmarks. Coordinates must be there; scores may be left out or
be `null`.
-/

namespace Montage

namespace Landmark

open Json

/-- A landmark at the corner of the photo, without scores. -/
def corner : Landmark Float := { x := 0.0, y := 0.0 }

/-- A landmark. -/
def reader : Reader (Landmark Float) :=
  record "struct Landmark" "struct Landmark with 4 elements"
    [ .needed "x" single fun l v => { l with x := v },
      .needed "y" single fun l v => { l with y := v },
      .optional "visibility" (nullable single) fun l v => { l with visibility := v },
      .optional "presence" (nullable single) fun l v => { l with presence := v } ]
    corner

end Landmark

namespace Face

open Json

/-- A face. -/
def reader : Reader (Face Float) :=
  record "struct FaceLandmarks" "struct FaceLandmarks with 1 element"
    [ .needed "landmarks" (list Landmark.reader) fun f v => { f with landmarks := v } ]
    ⟨[]⟩

/-- A list of faces. -/
def listReader : Reader (List (Face Float)) :=
  record "struct StaticDetector" "struct StaticDetector with 1 element"
    [ .needed "faces" (list Face.reader) fun _ v => v ]
    []

/-- Reads faces from a document. -/
def ofDocument (text : String) : Except Fault (List (Face Float)) :=
  (readDocument listReader text).mapError .document

end Face

end Montage
