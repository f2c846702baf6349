import Montage.Codec.Flaw
import Montage.Decimal
/-!
# Flaws — what can be wrong with settings and pictures

A flaw carries the cause, not a text. Each kind of flaw has one function that
words it.
-/

namespace Montage

/-! ## Settings -/

/-- The axes of a canvas along which an object is placed. -/
inductive Axis where
  | horizontal
  | vertical
deriving DecidableEq

/-- The name that settings use for the position along an axis. -/
def Axis.positionKey : Axis → String
  | .horizontal => "pos_x"
  | .vertical => "pos_y"

/-- A setting that no operation can work with. -/
inductive SettingFlaw where
  /-- The output canvas has no pixels. -/
  | emptyCanvas (size : Size)
  /-- The wanted extent of the object is not a positive number. -/
  | scale (value : Float)
  /-- The object is to be placed off the canvas. -/
  | position (axis : Axis) (value : Float)
  /-- The threshold is not a fraction. -/
  | threshold (value : Float)
  /-- The opacity is not a percentage. -/
  | opacity (value : Float)
  /-- No polygon has so few sides. -/
  | sides (count : Nat)
  /-- A flaw that somebody else has worded. -/
  | worded (text : String)

/-- The wording of a flawed setting. -/
def SettingFlaw.message : SettingFlaw → String
  | .emptyCanvas s =>
    "output size must be non-zero, got " ++ toString s.width ++ "x" ++ toString s.height
  | .scale v => "object scale must be positive, got " ++ Decimal.positional v
  | .position axis v =>
    axis.positionKey ++ " must be within [0, 1], got " ++ Decimal.positional v
  | .threshold v => "mask threshold must be within [0, 1], got " ++ Decimal.positional v
  | .opacity v => "reflection opacity must be within [0, 100], got " ++ Decimal.positional v
  | .sides n => "an n-gon needs at least 3 vertices, got " ++ toString n
  | .worded text => text

/-! ## Pictures -/

/-- The part a picture plays in an operation. -/
inductive Role where
  | photo
  | mask
deriving DecidableEq

/-- What went wrong with a picture. -/
inductive PictureFlaw where
  /-- The quadrilateral to straighten has no inverse projection. -/
  | degenerateQuad
  | decoding (role : Role) (cause : CodecFlaw)
  | opening (role : Role) (path : String) (cause : CodecFlaw)
  | encoding (cause : CodecFlaw)
  | encodingJpeg (cause : CodecFlaw)
  | saving (path : String) (cause : CodecFlaw)
  /-- A flaw that somebody else has worded. -/
  | worded (text : String)

/-- The wording of a picture's flaw. -/
def PictureFlaw.message : PictureFlaw → String
  | .degenerateQuad => "degenerate quadrilateral for perspective transform"
  | .decoding .photo c => "failed to decode image: " ++ c.message
  | .decoding .mask c => "failed to decode mask: " ++ c.message
  | .opening .photo path c => "failed to open " ++ path ++ ": " ++ c.message
  | .opening .mask path c => "failed to open mask " ++ path ++ ": " ++ c.message
  | .encoding c => "image encoding failed: " ++ c.message
  | .encodingJpeg c => "JPEG encoding failed: " ++ c.message
  | .saving path c => "failed to save image to " ++ path ++ ": " ++ c.message
  | .worded text => text

end Montage
