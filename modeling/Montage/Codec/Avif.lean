import Montage.Codec.Bytes
import Montage.Codec.Picture
/-!
# AVIF

An AVIF is made of boxes. Pictures are written as a single item whose samples
stand as they are in the box of the data, with the boxes that describe them
before it.
-/

namespace Montage

namespace Avif

/-- A box: its length, its name and its content. -/
def box (name : String) (content : List UInt8) : List UInt8 :=
  bytes32 (content.length + 8) ++ Format.textBytes name ++ content

/-- A box with a version. -/
def fullBox (name : String) (version : UInt8) (content : List UInt8) : List UInt8 :=
  box name ([version, 0, 0, 0] ++ content)

/-- The kinds of files that may read it. -/
def brands : List UInt8 :=
  box "ftyp" (Format.textBytes "avif" ++ bytes32 0 ++ Format.textBytes "avifmif1miaf")

/-- The number of each channel: red, green and blue, or gray. -/
def channelNumbers (p : Picture) : List Nat := if p.colored then [4, 5, 6] else [0]

/-- The properties of the item: its size and its channels of eight bits. -/
def properties (p : Picture) : List UInt8 :=
  let numbers := channelNumbers p
  let definition := box "cmpd" (bytes32 numbers.length ++ numbers.flatMap bytes16)
  let layout := fullBox "uncC" 0 (bytes32 0 ++ bytes32 numbers.length
    ++ (List.range numbers.length).flatMap (fun i => bytes16 i ++ [7, 0, 0])
    ++ [0, 1, 0, 0, 0] ++ bytes32 0 ++ bytes32 0 ++ bytes32 0 ++ bytes32 0 ++ bytes32 0)
  let extent := fullBox "ispe" 0 (bytes32 p.size.width ++ bytes32 p.size.height)
  box "iprp" (box "ipco" (extent ++ definition ++ layout)
    ++ fullBox "ipma" 0 (bytes32 1 ++ bytes16 1 ++ [3, 0x81, 0x82, 0x83]))

/-- The description of the item, whose data begins at `start`. -/
def description (p : Picture) (start length : Nat) : List UInt8 :=
  fullBox "meta" 0
    (fullBox "hdlr" 0 (bytes32 0 ++ Format.textBytes "pict" ++ List.replicate 13 0)
      ++ fullBox "pitm" 0 (bytes16 1)
      ++ fullBox "iloc" 0 ([0x44, 0] ++ bytes16 1 ++ bytes16 1 ++ bytes16 0 ++ bytes16 1
        ++ bytes32 start ++ bytes32 length)
      ++ fullBox "iinf" 0 (bytes16 1
        ++ fullBox "infe" 2 (bytes16 1 ++ bytes16 0 ++ Format.textBytes "unci" ++ [0]))
      ++ properties p)

/-- A picture as an AVIF. -/
def encode (p : Picture) : List UInt8 :=
  let data := p.pixelBytes Picture.redFirst
  -- the length of the description does not depend on the numbers in it
  let start := brands.length + (description p 0 0).length + 8
  brands ++ description p start data.length ++ box "mdat" data

end Avif

end Montage
