import Montage.Codec.Exchange
import Montage.Codec.Stock
import Montage.Proofs.Codec.Png
/-!
# Encoded pictures lose nothing

A photo or a mask that is written as a PNG is read back as it was, sample by
sample (`decodePhoto_encodePng`, `decodeMask_encodePng`): the file holds the
picture (`Png.decode_encode`), and photos and masks are pictures in another
arrangement (`toPhoto_ofPhoto`, `toMask_ofMask`). So an operation on encoded
pictures is the operation on the rasters, between a reading and a writing.

There is one exception. Pictures are written whatever their extent, but those
whose samples take up more than `Picture.sizeLimit` bytes are not read, and
the operation stops there before it looks at anything else.
-/

namespace Montage

/-! ## Photos and masks as pictures -/

/-- Channel `k` of pixel `i` in the channels of all pixels. -/
theorem getElem?_flatMap_redFirst (colors : List Rgb) (i : Nat) {k : Nat} (hk : k < 3) :
    (colors.flatMap Picture.redFirst)[i * 3 + k]?
      = colors[i]?.bind fun c => (Picture.redFirst c)[k]? := by
  induction colors generalizing i with
  | nil => simp
  | cons c colors ih =>
    have hlength : (Picture.redFirst c).length = 3 := rfl
    cases i with
    | zero =>
      rw [List.flatMap_cons, List.getElem?_append_left (by omega)]
      simp
    | succ i =>
      rw [List.flatMap_cons, List.getElem?_append_right (by omega), hlength,
        show (i + 1) * 3 + k - 3 = i * 3 + k by omega, ih]
      simp

/-- The channels of a photo's pixel are its three samples. -/
theorem sampleByte_ofPhoto {photo : Photo} {i : Nat} {c : Rgb} (hc : photo.samples[i]? = some c)
    {k : Nat} {v : UInt8} (hk : k < 3) (hv : (Picture.redFirst c)[k]? = some v) :
    (Picture.ofPhoto photo).sampleByte (i * 3 + k) = v := by
  have hchannel := getElem?_flatMap_redFirst photo.samples.toList i hk
  have hget : photo.samples.toList[i]? = some c := Array.getElem?_toList.trans hc
  rw [hget, Option.bind_some, hv] at hchannel
  have hlist : (photo.samples.flatMap fun c => #[c.red, c.green, c.blue]).toList
      = photo.samples.toList.flatMap Picture.redFirst := by
    rw [Array.toList_flatMap]
    rfl
  simp only [Picture.sampleByte, Picture.ofPhoto]
  rw [Array.getD_eq_getD_getElem?, ← Array.getElem?_toList, hlist, hchannel]
  rfl

/-- **A photo as a picture is still that photo.** -/
theorem toPhoto_ofPhoto (photo : Photo) : (Picture.ofPhoto photo).toPhoto = photo := by
  have hpixels : (Picture.ofPhoto photo).toPhoto
      = Raster.ofFn photo.width photo.height fun x y =>
        let first := (y * photo.width + x) * 3
        ⟨(Picture.ofPhoto photo).sampleByte first, (Picture.ofPhoto photo).sampleByte (first + 1),
          (Picture.ofPhoto photo).sampleByte (first + 2)⟩ := rfl
  rw [hpixels]
  refine Raster.ofFn_eq fun x y c hc => ?_
  have hred := sampleByte_ofPhoto hc (k := 0) (by decide) rfl
  have hgreen := sampleByte_ofPhoto hc (k := 1) (by decide) rfl
  have hblue := sampleByte_ofPhoto hc (k := 2) (by decide) rfl
  exact congr (congr (congrArg Rgb.mk hred) hgreen) hblue

/-- **A mask as a picture is still that mask**: its gray goes to all three
channels, and the first of them is taken. -/
theorem toMask_ofMask (mask : Mask) : (Picture.ofMask mask).toMask = mask := by
  have hmap : (Picture.ofMask mask).toMask
      = Raster.ofFn mask.width mask.height fun x y =>
        (Picture.ofMask mask).sampleByte ((y * mask.width + x) * 1) := Raster.map_ofFn ..
  rw [hmap]
  refine Raster.ofFn_eq fun x y v hv => ?_
  simp only [Picture.sampleByte, Picture.ofMask, Nat.mul_one]
  rw [Array.getD_eq_getD_getElem?, hv]
  rfl

theorem plain_ofPhoto (photo : Photo) :
    Png.Plain (.ofPhoto photo) (photo.samples.flatMap fun c => #[c.red, c.green, c.blue]) where
  data_eq := rfl
  size_eq := by
    have hsize : (photo.samples.flatMap fun c => #[c.red, c.green, c.blue]).size
        = photo.samples.size * 3 := by
      simp [Array.size_flatMap, Array.map_const']
    rw [hsize, photo.samples_size]
    rfl

theorem plain_ofMask (mask : Mask) : Png.Plain (.ofMask mask) mask.samples where
  data_eq := rfl
  size_eq := by
    rw [mask.samples_size]
    exact (Nat.mul_one _).symm

/-- A picture of eight bits a sample, with all of its samples. -/
def Picture.IsPlain (p : Picture) : Prop := ∃ samples, Png.Plain p samples

theorem isPlain_ofPhoto (photo : Photo) : (Picture.ofPhoto photo).IsPlain :=
  ⟨_, plain_ofPhoto photo⟩

theorem isPlain_ofMask (mask : Mask) : (Picture.ofMask mask).IsPlain := ⟨_, plain_ofMask mask⟩

/-! ## One picture -/

/-- The samples of a picture with `channels` of them a pixel are not too many
to be read. -/
def Size.Readable (channels : Nat) (s : Size) : Prop :=
  s.width * s.height * channels ≤ Picture.sizeLimit

instance (channels : Nat) (s : Size) : Decidable (s.Readable channels) :=
  inferInstanceAs (Decidable (_ ≤ _))

/-- The fault of a picture with too many samples. -/
def Fault.tooMuch (role : Role) : Fault := .picture (.decoding role .tooMuch)

theorem readable_iff {p : Picture} {samples : Array UInt8} (hp : Png.Plain p samples) :
    p.size.Readable (Picture.channels p.colored p.transparent)
      ↔ ¬ Picture.sizeLimit < samples.size := by
  rw [Nat.not_lt, hp.size_eq]
  exact Iff.rfl

theorem channels_pos (colored transparent : Bool) : 0 < Picture.channels colored transparent := by
  cases colored <;> cases transparent <;> decide

/-- What is not too large to be read has sides of at most thirty-two bits. -/
theorem addressable_of_readable {s : Size} {channels : Nat} (hchannels : 0 < channels)
    (hs : s.Nonempty) (h : s.Readable channels) : s.Addressable := by
  obtain ⟨hwidth, hheight⟩ := hs
  have hpixels : s.width * s.height ≤ Picture.sizeLimit :=
    Nat.le_trans (Nat.le_mul_of_pos_right _ hchannels) h
  have hlimit : Picture.sizeLimit < UInt32.size := by decide
  have hcolumns := Nat.le_mul_of_pos_right s.width hheight
  have hrows := Nat.le_mul_of_pos_left s.height hwidth
  exact ⟨by omega, by omega⟩

/-- A picture that has been written has a pixel. -/
theorem Png.nonempty_of_encode {p : Picture} {bytes : List UInt8} (h : Png.encode p = .ok bytes) :
    p.size.Nonempty := by
  rw [Png.encode] at h
  split at h
  · cases h
  · split at h
    · cases h
    · next hsides =>
      simp only [Bool.or_eq_true, decide_eq_true_eq, not_or] at hsides
      exact ⟨Nat.pos_of_ne_zero hsides.1, Nat.pos_of_ne_zero hsides.2⟩

/-- **What has been written is read back**, unless it has too many samples. -/
theorem Png.decode_of_encode {p : Picture} {bytes : List UInt8} (hplain : p.IsPlain)
    (h : Png.encode p = .ok bytes)
    (hread : p.size.Readable (Picture.channels p.colored p.transparent)) :
    Png.decode bytes = .ok p := by
  obtain ⟨samples, hp⟩ := hplain
  have hpixels := Png.nonempty_of_encode h
  have hsides := addressable_of_readable (channels_pos _ _) hpixels hread
  obtain ⟨rest, hencode, hdecode⟩ := Png.decode_encode hp ⟨hsides, hpixels⟩
  obtain rfl := Except.ok.inj (h.symm.trans hencode)
  rw [hdecode, if_neg ((readable_iff hp).mp hread)]

section

variable [Codecs]

/-- **A written PNG is read back**, whatever part it plays. -/
theorem decode_encodePng {p : Picture} {samples : Array UInt8} (hp : Png.Plain p samples)
    (hsize : p.size.Storable) :
    ∃ bytes, encodePng p = .ok bytes ∧ ∀ role, inRole role (Picture.decode bytes)
      = if p.size.Readable (Picture.channels p.colored p.transparent) then .ok p
        else .error (.tooMuch role) := by
  obtain ⟨rest, hencode, hdecode⟩ := Png.decode_encode hp hsize
  refine ⟨Format.pngSignature ++ rest, by rw [encodePng, hencode], fun role => ?_⟩
  have hformat : Format.ofBytes? (Format.pngSignature ++ rest) = some .png := rfl
  have hread : Picture.decode (Format.pngSignature ++ rest)
      = Png.decode (Format.pngSignature ++ rest) := by
    rw [Picture.decode, hformat]
    rfl
  rw [hread, hdecode]
  by_cases h : p.size.Readable (Picture.channels p.colored p.transparent)
  · rw [if_neg ((readable_iff hp).mp h), if_pos h]
    rfl
  · rw [if_pos (Decidable.not_not.mp (mt (readable_iff hp).mpr h)), if_neg h]
    rfl

/-- **A photo is read back from its file.** -/
theorem decodePhoto_encodePng {photo : Photo} (hsize : photo.size.Storable) :
    ∃ bytes, encodePng (.ofPhoto photo) = .ok bytes ∧ decodePhoto bytes
      = if photo.size.Readable 3 then .ok photo else .error (.tooMuch .photo) := by
  obtain ⟨bytes, hencode, hdecode⟩ := decode_encodePng (plain_ofPhoto photo) hsize
  refine ⟨bytes, hencode, ?_⟩
  rw [decodePhoto, hdecode]
  by_cases h : photo.size.Readable 3
  · rw [if_pos h, if_pos (by exact h)]
    exact congrArg Except.ok (toPhoto_ofPhoto photo)
  · rw [if_neg h, if_neg (by exact h)]
    rfl

/-- **And so is a mask.** -/
theorem decodeMask_encodePng {mask : Mask} (hsize : mask.size.Storable) :
    ∃ bytes, encodePng (.ofMask mask) = .ok bytes ∧ decodeMask bytes
      = if mask.size.Readable 1 then .ok mask else .error (.tooMuch .mask) := by
  obtain ⟨bytes, hencode, hdecode⟩ := decode_encodePng (plain_ofMask mask) hsize
  refine ⟨bytes, hencode, ?_⟩
  rw [decodeMask, hdecode]
  by_cases h : mask.size.Readable 1
  · rw [if_pos h, if_pos (by exact h)]
    exact congrArg Except.ok (toMask_ofMask mask)
  · rw [if_neg h, if_neg (by exact h)]
    rfl

/-! ## A photo and its mask -/

namespace Cut

/-- **A photo and its mask are read back**, each on its own. -/
theorem decode_encode {c : Cut} (hphoto : c.photo.size.Storable) (hmask : c.mask.size.Storable) :
    ∃ e, c.encode = .ok e ∧
      decodePhoto e.photo
        = (if c.photo.size.Readable 3 then .ok c.photo else .error (.tooMuch .photo)) ∧
      decodeMask e.mask
        = if c.mask.size.Readable 1 then .ok c.mask else .error (.tooMuch .mask) := by
  obtain ⟨photo, hphoto, hphoto'⟩ := decodePhoto_encodePng hphoto
  obtain ⟨mask, hmask, hmask'⟩ := decodeMask_encodePng hmask
  refine ⟨⟨photo, mask⟩, ?_, hphoto', hmask'⟩
  rw [encode, hphoto, hmask]
  rfl

end Cut

namespace EncodedCut

variable {e : EncodedCut}

theorem decode_of_ok {photo : Photo} {mask : Mask} (hphoto : decodePhoto e.photo = .ok photo)
    (hmask : decodeMask e.mask = .ok mask) : e.decode = .ok ⟨photo, mask⟩ := by
  rw [decode, hphoto, hmask]
  rfl

/-- The photo is read first, so its fault is the one that shows. -/
theorem decode_of_photo {f : Fault} (hphoto : decodePhoto e.photo = .error f) :
    e.decode = .error f := by
  rw [decode, hphoto]
  rfl

theorem decode_of_mask {photo : Photo} {f : Fault} (hphoto : decodePhoto e.photo = .ok photo)
    (hmask : decodeMask e.mask = .error f) : e.decode = .error f := by
  rw [decode, hphoto, hmask]
  rfl

/-- An operation goes on with the rasters that have been read. -/
theorem reposition_of_decode {c : Cut} (h : e.decode = .ok c) (spec : PlacementSpec) :
    e.reposition spec = Montage.reposition c.photo c.mask spec >>= Cut.encode := by
  rw [reposition, h]
  rfl

/-- And ends where they have not been read. -/
theorem reposition_of_fault {f : Fault} (h : e.decode = .error f) (spec : PlacementSpec) :
    e.reposition spec = .error f := by
  rw [reposition, h]
  rfl

end EncodedCut

end

/-! ## The byte boundary -/

theorem Composer.ofCut_of_inStep {c : Cut} (h : c.InStep) : Composer.ofCut c = .ok ⟨c, h⟩ := by
  unfold ofCut ofParts
  exact dif_pos h

/-- A canvas that something is placed on has a pixel. -/
theorem storable_of_reposition {photo : Photo} {mask : Mask} {spec : PlacementSpec} {placed : Cut}
    (hcanvas : spec.canvas.Addressable) (h : reposition photo mask spec = .ok placed) :
    spec.canvas.Storable := by
  have hvalid : spec.flaw? = none := by
    rw [reposition_eq] at h
    split at h
    · cases h
    · assumption
  rw [PlacementSpec.flaw?] at hvalid
  split at hvalid
  · cases hvalid
  · next hempty =>
    simp only [Bool.or_eq_true, decide_eq_true_eq, not_or] at hempty
    exact ⟨hcanvas, Nat.pos_of_ne_zero hempty.1, Nat.pos_of_ne_zero hempty.2⟩

/-- **The byte boundary loses nothing that it lets through.** A photo and a
mask with pixels are written whatever their extent. If one of them has too many
samples to be read, this is the fault of any operation on the two files, the
photo before the mask. Otherwise repositioning the files fails as repositioning
the rasters does, or yields two files of its two rasters, which are read back
unless they have too many samples themselves; and a composer of the files of a
composer's photo and mask is that composer. -/
theorem encoded_reposition [Codecs] {c : Cut} {spec : PlacementSpec}
    (hphoto : c.photo.size.Storable) (hmask : c.mask.size.Storable) (hcanvas : spec.canvas.Addressable) :
    ∃ e, c.encode = .ok e ∧
      (¬ c.photo.size.Readable 3 → e.reposition spec = .error (.tooMuch .photo)) ∧
      (c.photo.size.Readable 3 → ¬ c.mask.size.Readable 1 →
        e.reposition spec = .error (.tooMuch .mask)) ∧
      (c.photo.size.Readable 3 → c.mask.size.Readable 1 →
        (∀ f, reposition c.photo c.mask spec = .error f → e.reposition spec = .error f) ∧
        ∀ placed, reposition c.photo c.mask spec = .ok placed →
          ∃ out, e.reposition spec = .ok out ∧
            decodePhoto out.photo = (if spec.canvas.Readable 3 then .ok placed.photo
              else .error (.tooMuch .photo)) ∧
            decodeMask out.mask = (if spec.canvas.Readable 1 then .ok placed.mask
              else .error (.tooMuch .mask))) ∧
      ∀ h : c.InStep, Composer.ofEncoded e
        = if c.photo.size.Readable 3 then .ok ⟨c, h⟩ else .error (.tooMuch .photo) := by
  obtain ⟨e, hencode, hphoto', hmask'⟩ := Cut.decode_encode hphoto hmask
  refine ⟨e, hencode, fun hlarge => ?_, fun hread hlarge => ?_, fun hread hread' => ⟨?_, ?_⟩, ?_⟩
  · rw [if_neg hlarge] at hphoto'
    exact EncodedCut.reposition_of_fault (EncodedCut.decode_of_photo hphoto') spec
  · rw [if_pos hread] at hphoto'
    rw [if_neg hlarge] at hmask'
    exact EncodedCut.reposition_of_fault (EncodedCut.decode_of_mask hphoto' hmask') spec
  · intro f hf
    rw [if_pos hread] at hphoto'
    rw [if_pos hread'] at hmask'
    rw [EncodedCut.reposition_of_decode (EncodedCut.decode_of_ok hphoto' hmask'), hf]
    rfl
  · intro placed hplaced
    rw [if_pos hread] at hphoto'
    rw [if_pos hread'] at hmask'
    have hstorable := storable_of_reposition hcanvas hplaced
    obtain ⟨hsize, hsize'⟩ := size_of_reposition hplaced
    obtain ⟨out, hout, hread⟩ := Cut.decode_encode (c := placed) (by rwa [hsize]) (by rwa [hsize'])
    rw [hsize, hsize'] at hread
    refine ⟨out, ?_, hread⟩
    rw [EncodedCut.reposition_of_decode (EncodedCut.decode_of_ok hphoto' hmask'), hplaced]
    exact hout
  · intro h
    rw [Composer.ofEncoded]
    by_cases hread : c.photo.size.Readable 3
    · have hread' : c.mask.size.Readable 1 := by
        rw [← h]
        simp only [Size.Readable] at hread ⊢
        omega
      rw [if_pos hread] at hphoto' ⊢
      rw [if_pos hread'] at hmask'
      rw [EncodedCut.decode_of_ok hphoto' hmask']
      exact Composer.ofCut_of_inStep h
    · rw [if_neg hread] at hphoto' ⊢
      rw [EncodedCut.decode_of_photo hphoto']
      rfl

/-- An object of two pixels on the canvas that is there by default. -/
theorem encoded_reposition_of_two_pixels :
    ∃ e, Cut.encode ⟨.filled ⟨2, 1⟩ .white, .filled ⟨2, 1⟩ 255⟩ = .ok e ∧
      (∃ placed out, reposition (.filled ⟨2, 1⟩ .white) (.filled ⟨2, 1⟩ 255) {} = .ok placed ∧
        e.reposition {} = .ok out ∧
        decodePhoto out.photo = .ok placed.photo ∧ decodeMask out.mask = .ok placed.mask) ∧
      Composer.ofEncoded e = .ok ⟨⟨.filled ⟨2, 1⟩ .white, .filled ⟨2, 1⟩ 255⟩, rfl⟩ := by
  have hextent : (⟨2, 1⟩ : Size).Storable := ⟨⟨by decide, by decide⟩, by decide, by decide⟩
  have hcanvas : (PlacementSpec.canvas {}).Addressable := ⟨by decide, by decide⟩
  obtain ⟨b, hb⟩ : ∃ b, (Raster.filled ⟨2, 1⟩ (255 : UInt8)).bounds? = some b := ⟨_, rfl⟩
  have hplaced := reposition_eq (.filled ⟨2, 1⟩ .white) (.filled ⟨2, 1⟩ 255) {}
  rw [hb] at hplaced
  obtain ⟨e, hencode, -, -, hread, hcomposer⟩ := encoded_reposition
    (c := ⟨.filled ⟨2, 1⟩ .white, .filled ⟨2, 1⟩ 255⟩) hextent hextent hcanvas
  obtain ⟨-, hok⟩ := hread (by decide) (by decide)
  obtain ⟨out, hout, hphoto, hmask⟩ := hok _ hplaced
  exact ⟨e, hencode, ⟨_, out, hplaced, hout, hphoto, hmask⟩, hcomposer rfl⟩

/-- **A photo can be too large for the byte boundary.** This one has 13378 times
13378 pixels, whose samples take up more than is read. The operation on its file
never comes to look at the mask, which does not belong to it. -/
theorem large_photo_is_refused :
    ∃ e, Cut.encode ⟨.filled ⟨13378, 13378⟩ .black, .filled ⟨1, 1⟩ 255⟩ = .ok e ∧
      reposition (.filled ⟨13378, 13378⟩ .black) (.filled ⟨1, 1⟩ 255) {}
        = .error (.sizeMismatch ⟨13378, 13378⟩ ⟨1, 1⟩) ∧
      e.reposition {} = .error (.tooMuch .photo) ∧
      e.reposition {} ≠ .error (.sizeMismatch ⟨13378, 13378⟩ ⟨1, 1⟩) := by
  have hphoto : (⟨13378, 13378⟩ : Size).Storable := ⟨⟨by decide, by decide⟩, by decide, by decide⟩
  have hmask : (⟨1, 1⟩ : Size).Storable := ⟨⟨by decide, by decide⟩, by decide, by decide⟩
  have hlarge : ¬ (⟨13378, 13378⟩ : Size).Readable 3 := by decide
  obtain ⟨e, hencode, hread, -⟩ := Cut.decode_encode
    (c := ⟨.filled ⟨13378, 13378⟩ .black, .filled ⟨1, 1⟩ 255⟩) hphoto hmask
  rw [Raster.size_filled, if_neg hlarge] at hread
  have hrefused := EncodedCut.reposition_of_fault (EncodedCut.decode_of_photo hread) {}
  refine ⟨e, hencode, ?_, hrefused, ?_⟩
  · rw [reposition_eq]
    simp only [Raster.size_filled]
    rfl
  · rw [hrefused]
    nofun

end Montage
