import Montage.Canvas.Reposition
import Montage.Face.Oval
import Montage.Mask.Cleaning
import Montage.Mask.Filling
/-!
# Face masks

A search for faces yields landmarks, face by face, or fails. Each of the first
faces has a mask, its filled oval; faces whose ovals have no area are passed
over. `faceMask` covers all of them, `faceCutout` keeps what it covers, and
`repositionFace` places the first face on a canvas.
-/

namespace Montage

/-- What a search for faces yields: the faces found, or why it failed. -/
abbrev Detection := Except Fault (List (Face Float))

/-- The hull of a face's oval in a photo. -/
def Face.hull? (spec : FaceSpec) (s : Size) (f : Face Float) : Option (List (Point Int)) :=
  broadHull? (f.ovalPixels s spec.visibility spec.presence)

/-- The hulls of the faces that count, in the order of the faces. -/
def faceHulls (s : Size) (found : Detection) (spec : FaceSpec) :
    Except Fault (List (List (Point Int))) := do
  match ((← found).take spec.maxFaces).filterMap (Face.hull? spec s) with
  | [] => throw .noFaceFound
  | hulls => return hulls

/-- A mask without an object. -/
def emptyMask (s : Size) : Mask := .filled s 0

/-- The mask of each face that counts. -/
def faceMasks (s : Size) (found : Detection) (spec : FaceSpec) : Except Fault (List Mask) := do
  return (← faceHulls s found spec).map fun hull => (emptyMask s).fillPolygon ⟨hull⟩

/-- **The mask of all faces that count.** -/
def faceMask (s : Size) (found : Detection) (spec : FaceSpec) : Except Fault Mask := do
  return (← faceHulls s found spec).foldl (fun m hull => m.fillPolygon ⟨hull⟩) (emptyMask s)

/-- A photo that is black outside the mask of its faces. -/
def faceCutout (photo : Photo) (mask : Mask) : Except Fault Photo := do
  requireSameSize photo mask
  return photo.masked mask

/-- The first face that counts on a new canvas. -/
def repositionFace (photo : Photo) (found : Detection) (spec : FaceSpec) : Except Fault Cut := do
  match ← faceMasks photo.size found spec with
  -- there is a mask for each hull, and at least one hull
  | [] => throw .noFaceFound
  | mask :: _ => reposition photo mask spec.placement

end Montage
