import Montage.Codec.Exchange
import Montage.Command.Arguments
import Montage.Command.Storage
import Montage.Face.Document
import Montage.Face.Mask
import Montage.Json.Printer
import Montage.Settings.Document
import Montage.Shape.Box
/-!
# Programs — what a command does, step by step

`Command.execute` loads the settings of a command and does its job. Each job
opens its files, makes what it has to make of them, and only then stores
pictures or prints a report; the first step that fails ends it.
-/

namespace Montage

/-! ## Reports -/

/-- A point as it is reported. -/
def Point.reported (p : Point Float) : Json.Value :=
  .object [("x", .number p.x), ("y", .number p.y)]

/-- A polygon as it is reported. -/
def Polygon.reported (p : Polygon Float) : Json.Value :=
  .object [("vertices", .list (p.vertices.map Point.reported))]

/-- A box as it is reported. -/
def UprightBox.reported (b : UprightBox Float) : Json.Value :=
  .object [("corners", .list (b.corners.map Point.reported)), ("center", b.center.reported),
    ("width", .number b.width), ("height", .number b.height), ("angle", .number b.angle),
    ("rotation", .number b.rotation)]

/-! ## Commands -/

section

variable {m : Type → Type} [Monad m] [Storage m]

/-- The settings in a file, or the default settings. -/
def loadSettings : Option String → ExceptT Failure m Settings
  | none => return {}
  | some path => loadDocument (.loadingSettings path) Settings.ofDocument path

variable [Console m]

/-- Prints a report. -/
def printReport (value : Json.Value) : ExceptT Failure m Unit :=
  (Console.print ⟨value.text⟩ : m Unit)

variable [Codecs]

/-- Does a job under the given settings. -/
def Job.execute (settings : Settings) : Job → ExceptT Failure m Unit
  | .reposition photoPath maskPath outPhoto outMask overrides => do
    let spec := overrides.apply settings.placement
    let photo ← openPhoto photoPath
    let mask ← openMask maskPath
    let placed ← during .repositioning (Montage.reposition photo mask spec)
    savePhoto placed.photo outPhoto
    saveMask placed.mask outMask
  | .fitNgon maskPath sides => do
    let mask ← openMask maskPath
    let ngon : Polygon Float ← during (.fittingNgon sides maskPath) (mask.fitNgon sides)
    printReport ngon.reported
  | .fitRect maskPath => do
    let mask ← openMask maskPath
    let box : UprightBox Float ← during (.fittingRectangle maskPath) mask.fitBox
    printReport box.reported
  | .segment photoPath maskPath directory straighten reflection overrides => do
    let base := settings.segmentation
    let given := { base with
      straighten := base.straighten || straighten
      reflection := reflection.getD base.reflection }
    let photo ← openPhoto photoPath
    let spec := overrides.applyToSegmentation given photo.size
    let mask ← openMask maskPath
    let composer ← unexplained (Composer.ofParts photo mask)
    let made ← during .segmenting (composer.segment spec)
    makeDirectory directory
    saveMask made.mask (Path.join directory "mask.png")
    savePhoto made.placed.photo (Path.join directory "resized.png")
    saveMask made.placed.mask (Path.join directory "resized_mask.png")
    savePhoto made.cutout (Path.join directory "cutout.png")
  | .face photoPath landmarks directory overrides => do
    let spec := { settings.face with placement := overrides.apply settings.face.placement }
    let photo ← openPhoto photoPath
    let faces ← loadDocument (.readingLandmarks landmarks) Face.ofDocument landmarks
    let mask ← unexplained (faceMask photo.size (.ok faces) spec)
    let cutout ← unexplained (faceCutout photo mask)
    let placed ← unexplained (repositionFace photo (.ok faces) spec)
    makeDirectory directory
    saveMask mask (Path.join directory "face_mask.png")
    savePhoto cutout (Path.join directory "face_cutout.png")
    savePhoto placed.photo (Path.join directory "face_resized.png")
    saveMask placed.mask (Path.join directory "face_resized_mask.png")

/-- **Executes a command.** -/
def Command.execute (c : Command) : ExceptT Failure m Unit := do
  let settings ← loadSettings c.settings
  c.job.execute settings

end

end Montage
