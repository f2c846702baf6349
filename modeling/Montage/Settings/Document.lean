import Montage.Json.Reader
import Montage.Settings
/-!
# Settings — the document they are read from

Settings are written as JSON. Whatever a document leaves out keeps its
default: an absent key, an absent nested record, and the fields at the end of
a record that is written as a list.
-/

namespace Montage

namespace Settings

open Json

/-- A colour: its three channels. -/
def color : Reader Rgb := fun ts => do
  let (channels, ts) ← fixedList (natural "u8" UInt8.size) "an array of length 3" 3 ts
  let channel := fun i => UInt8.ofNat (channels.getD i 0)
  return (⟨channel 0, channel 1, channel 2⟩, ts)

/-- The extent of a canvas: its width and its height. -/
def size : Reader Size := fun ts => do
  let (sides, ts) ← fixedList (natural "u32" UInt32.size) "a tuple of size 2" 2 ts
  return (⟨sides.getD 0 0, sides.getD 1 0⟩, ts)

/-- A placement. -/
def placementSpec : Reader PlacementSpec :=
  record "struct RepositionSpec" "struct RepositionSpec with 5 elements"
    [ .optional "out_size" size fun p v => { p with canvas := v },
      .optional "obj_scale" double fun p v => { p with scale := v },
      .optional "pos_x" double fun p v => { p with posX := v },
      .optional "pos_y" double fun p v => { p with posY := v },
      .optional "fill_color" color fun p v => { p with fill := v } ]
    {}

/-- The treatment of a segmented object. -/
def segmentationSpec : Reader SegmentationSpec :=
  record "struct SegmentationConfig" "struct SegmentationConfig with 8 elements"
    [ .optional "mask_threshold" double fun s v => { s with threshold := v },
      .optional "perspective_correction" bool fun s v => { s with straighten := v },
      .optional "reflection_opacity" double fun s v => { s with reflection := v },
      .optional "background" color fun s v => { s with background := v },
      .optional "out_size" (nullable size) fun s v => { s with canvas := v },
      .optional "obj_scale" double fun s v => { s with scale := v },
      .optional "pos_x" double fun s v => { s with posX := v },
      .optional "pos_y" double fun s v => { s with posY := v } ]
    {}

/-- The choice of faces. -/
def faceSpec : Reader FaceSpec :=
  record "struct FaceConfig" "struct FaceConfig with 4 elements"
    [ .optional "max_faces" (natural "usize" UInt64.size) fun f v => { f with maxFaces := v },
      .optional "visibility_threshold" single fun f v => { f with visibility := v },
      .optional "presence_threshold" single fun f v => { f with presence := v },
      .optional "reposition" placementSpec fun f v => { f with placement := v } ]
    {}

/-- All settings. -/
def settings : Reader Settings :=
  record "struct RecomposeConfig" "struct RecomposeConfig with 3 elements"
    [ .optional "reposition" placementSpec fun s v => { s with placement := v },
      .optional "segmentation" segmentationSpec fun s v => { s with segmentation := v },
      .optional "face" faceSpec fun s v => { s with face := v } ]
    {}

/-- Reads settings from a document. -/
def ofDocument (text : String) : Except Fault Settings :=
  (readDocument settings text).mapError .document

end Settings

end Montage
