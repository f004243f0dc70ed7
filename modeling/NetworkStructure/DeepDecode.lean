import NetworkStructure.BmpDecode
import NetworkStructure.BmpLayout

/-! # Files of whole bytes a pixel

A BMP file of eight or more bits a pixel stores its rows from the last to the first, each padded to
a multiple of four bytes.  The decoder keeps one byte of each pixel.  It knows the length of a row
for every depth, but takes the columns to be four bytes apart: so it returns the first byte of each
pixel exactly for 32 bits a pixel, and for images of one column (`deepDecode_iff`).  In every other
shape there is a file with a byte in the second column that it takes for another one's, or it leaves
`imgdata`. -/

namespace NetworkStructure

/-! ### The files -/

/-- The length of a stored row. -/
def rowBytes (width depth : ℕ) : ℕ := (width * depth + 31) / 32 * 4

/-- The colour table of a file of 256 colours; with more bits a pixel there is none. -/
def paletteBytes (depth : ℕ) : ℕ := if depth = 8 then 1024 else 0

/-- A BMP file of `depth` bits a pixel: the headers and the colour table, and behind them the
rows. -/
structure DeepBmp (file : List BYTE) (width height depth : ℕ) (bmfh : BITMAPFILEHEADER)
    (bmih : BITMAPINFOHEADER) : Prop extends Shaped file width height depth bmfh bmih where
  bfType : bmfh.bfType = 0x4D42
  biPlanes : bmih.biPlanes = 1
  biCompression : bmih.biCompression = 0
  bfOffBits : 54 + paletteBytes depth ≤ bmfh.bfOffBits.toNat
  length : bmfh.bfOffBits.toNat + rowBytes width depth * height ≤ file.length

/-- The first byte of the pixel `(x, y)` in the file whose rows start at `offBits`. -/
def firstByte (file : List BYTE) (offBits width height depth x y : ℕ) : Option BYTE :=
  file[offBits + ((height - 1 - y) * rowBytes width depth + x * (depth / 8))]?

/-- The decoder returns the first byte of each pixel of the file. -/
def DecodesFirst (file : List BYTE) (offBits width height depth : ℕ) : Prop :=
  ∃ d, readPixelData file = .ok d ∧ d.raw.length = width * height ∧
    ∀ x y, x < width → y < height →
      d.raw[y * width + x]? = some (firstByte file offBits width height depth x y)

/-! ### What the decoder makes of them -/

section Decode

variable {file : List BYTE} {W H depth : ℕ} {bmfh : BITMAPFILEHEADER} {bmih : BITMAPINFOHEADER}

/-- The pixel of the result comes from where it is read. -/
theorem copied_getElem? {img : ImgData} {L : DWORD} {size : ℕ} {raw : List (Option BYTE)}
    (h : copyPixels img L W H size = .ok raw) {x y : ℕ} (hx : x < W) (hy : y < H) :
    ∃ cell, raw[y * W + x]? = some cell ∧ img.read (pixelAddr L H y x) = .ok cell := by
  have hcells := copyPixels_ok h
  have hrow : ∀ y, ((List.range W).flatMap fun x => [pixelAddr L H y x]).length = W := by
    simp
  have hk : (pixelAddrs L W H)[y * W + x]? = some (pixelAddr L H y x) := by
    rw [pixelAddrs, Int.toNat_natCast, Int.toNat_natCast, getElem?_flatMap_of_length hrow hx,
      List.getElem?_range hy, Option.bind_some, ← List.map_eq_flatMap, List.getElem?_map,
      List.getElem?_range hx, Option.map_some]
  obtain ⟨hlt, hget⟩ := List.getElem?_eq_some_iff.mp hk
  have hread := hcells.get hlt (hcells.length_eq ▸ hlt)
  rw [List.get_eq_getElem, List.get_eq_getElem, hget] at hread
  exact ⟨_, List.getElem?_eq_getElem _, hread⟩

/-- The columns are read four bytes apart. -/
theorem read_pixelAddr {img : ImgData} {L : DWORD} (hL : L.toNat * H < 2147483648)
    (hH : H < 2147483648) (hsize : img.size = L.toNat * H) {x y : ℕ} (hy : y < H)
    (hx : x * 4 < L.toNat) : img.read (pixelAddr L H y x) =
      .ok img.file[img.bfOffBits + (L.toNat * (H - 1 - y) + x * 4)]? := by
  have hin := rowAddr_add_lt hy hx
  rw [pixelAddr, rowAddr_eq L hy hH, Nat.mod_eq_of_lt (by omega),
    int32_of_lt (by omega) (by omega),
    show ((L.toNat * (H - 1 - y) : ℕ) : ℤ) + (x : ℤ) * 4 =
      ((L.toNat * (H - 1 - y) + x * 4 : ℕ) : ℤ) by omega]
  exact img.read_eq (by omega)

/-- What has to be true of a file for the decoder to return its first bytes. -/
theorem decodesFirst_iff (h : Shaped file W H depth bmfh bmih) (hW : 1 ≤ W) (hH : 1 ≤ H)
    (hdepth : 8 ≤ depth) (hbits : W * depth + 31 < 2147483648)
    (hdata : rowBytes W depth * H < 2147483648) (hdom : W * H < 2147483648) :
    DecodesFirst file bmfh.bfOffBits.toNat W H depth ↔
      4 * (W - 1) < rowBytes W depth ∧ ∀ x y, x < W → y < H →
        file[bmfh.bfOffBits.toNat + (rowBytes W depth * (H - 1 - y) + x * 4)]? =
          firstByte file bmfh.bfOffBits.toNat W H depth x y := by
  have hHle : H ≤ W * H := Nat.le_mul_of_pos_left H hW
  have hL : (getLineBytes W depth).toNat = rowBytes W depth := getLineBytes_of_ge_eight hdepth hbits
  have hdata' : (getLineBytes W depth).toNat * H < 2147483648 := by rwa [hL]
  have hsize := imgdata_size file bmfh hdata' (by omega)
  have hok := copyPixels_ok_iff hW hH hdom hdata' hsize
  have hcell : ∀ {raw}, copyPixels (imgdata file bmfh (getLineBytes W depth) H)
      (getLineBytes W depth) W H (W * H) = .ok raw → ∀ x y, x < W → y < H →
      raw[y * W + x]? =
        some file[bmfh.bfOffBits.toNat + (rowBytes W depth * (H - 1 - y) + x * 4)]? := by
    intro raw hraw x y hx hy
    have hlt := hok.mp ⟨raw, hraw⟩
    obtain ⟨cell, hget, hread⟩ := copied_getElem? hraw hx hy
    rw [read_pixelAddr hdata' (by omega) hsize hy (by omega), hL] at hread
    rw [hget]
    exact congrArg some (Except.ok.inj hread).symm
  unfold DecodesFirst
  rw [readPixelData_shaped h hW hH hdom, if_neg (by omega)]
  rw [hL] at hok
  constructor
  · rintro ⟨d, hd, -, hpixels⟩
    cases hraw : copyPixels (imgdata file bmfh (getLineBytes W depth) H) (getLineBytes W depth) W H
        (W * H) with
    | error e =>
        rw [hraw] at hd
        cases hd
    | ok raw =>
        rw [hraw] at hd
        obtain rfl := Except.ok.inj hd
        refine ⟨hok.mp ⟨raw, hraw⟩, fun x y hx hy => ?_⟩
        have hget := hpixels x y hx hy
        rw [hcell hraw x y hx hy] at hget
        exact Option.some.inj hget
  · rintro ⟨hlt, hpixels⟩
    obtain ⟨raw, hraw⟩ := hok.mpr hlt
    rw [hraw]
    refine ⟨_, rfl, ?_, fun x y hx hy => ?_⟩
    · have hlen := (copyPixels_ok hraw).length_eq
      simp only [pixelAddrs, Int.toNat_natCast, List.length_flatMap, List.length_singleton,
        List.map_const', List.length_range, List.sum_replicate_nat, Nat.mul_one] at hlen
      rw [Nat.mul_comm]
      exact hlen.symm
    · rw [hcell hraw x y hx hy, hpixels x y hx hy]

/-- **The shapes that the decoder takes right.** -/
theorem decodesFirst_of_shape (h : Shaped file W H depth bmfh bmih) (hW : 1 ≤ W) (hH : 1 ≤ H)
    (hdepth : 8 ≤ depth) (hbits : W * depth + 31 < 2147483648)
    (hdata : rowBytes W depth * H < 2147483648) (hdom : W * H < 2147483648)
    (hshape : depth = 32 ∨ W = 1) : DecodesFirst file bmfh.bfOffBits.toNat W H depth := by
  rw [decodesFirst_iff h hW hH hdepth hbits hdata hdom]
  have hrow : ∀ y, rowBytes W depth * (H - 1 - y) = (H - 1 - y) * rowBytes W depth :=
    fun y => Nat.mul_comm ..
  rcases hshape with rfl | rfl
  · refine ⟨by unfold rowBytes; omega, fun x y _ _ => ?_⟩
    rw [firstByte, hrow]
  · refine ⟨by unfold rowBytes; omega, fun x y hx _ => ?_⟩
    obtain rfl : x = 0 := by omega
    rw [firstByte, hrow, Nat.zero_mul, Nat.zero_mul]

end Decode

/-! ### A file with one byte -/

def deepFileHeader (W H depth : ℕ) : BITMAPFILEHEADER where
  bfType := 0x4D42
  bfSize := BitVec.ofNat 32 (54 + paletteBytes depth + rowBytes W depth * H)
  bfReserved1 := 0
  bfReserved2 := 0
  bfOffBits := BitVec.ofNat 32 (54 + paletteBytes depth)

def deepInfoHeader (W H depth : ℕ) : BITMAPINFOHEADER :=
  { writeInfoHeader W H with biBitCount := BitVec.ofNat 16 depth }

/-- All bytes behind the headers are zero but the byte `p` of the rows. -/
def deepFile (W H depth p : ℕ) : List BYTE :=
  (deepFileHeader W H depth).bytes ++ ((deepInfoHeader W H depth).bytes ++
    (List.replicate (paletteBytes depth) 0 ++ (List.replicate (rowBytes W depth * H) 0).set p 1))

section DeepFile

variable {W H depth p k : ℕ}

theorem deepFileHeader_bfOffBits :
    (deepFileHeader W H depth).bfOffBits.toNat = 54 + paletteBytes depth := by
  show (BitVec.ofNat 32 (54 + paletteBytes depth)).toNat = _
  rw [BitVec.toNat_ofNat, Nat.mod_eq_of_lt]
  unfold paletteBytes
  split <;> omega

theorem deepFile_getElem? (hk : k < rowBytes W depth * H) :
    (deepFile W H depth p)[54 + paletteBytes depth + k]? = some (if k = p then 1 else 0) := by
  have h14 := (deepFileHeader W H depth).bytes_length
  have h40 := (deepInfoHeader W H depth).bytes_length
  have hpal : (List.replicate (paletteBytes depth) (0 : BYTE)).length = paletteBytes depth :=
    List.length_replicate
  unfold deepFile
  rw [List.getElem?_append_right (by omega), List.getElem?_append_right (by omega),
    List.getElem?_append_right (by omega), h14, h40, hpal,
    show 54 + paletteBytes depth + k - 14 - 40 - paletteBytes depth = k by omega,
    List.getElem?_set]
  split
  · next hp =>
    subst hp
    rw [if_pos (by rw [List.length_replicate]; exact hk), if_pos rfl]
  · next hp => rw [List.getElem?_replicate, if_pos hk, if_neg (Ne.symm hp)]

theorem deepBmp_deepFile (hW : W < 2147483648) (hH : H < 2147483648) (hdepth : depth < 65536) :
    DeepBmp (deepFile W H depth p) W H depth (deepFileHeader W H depth)
      (deepInfoHeader W H depth) where
  toShaped := by
    have h := shaped_append (deepFileHeader W H depth) (deepInfoHeader W H depth)
      (List.replicate (paletteBytes depth) 0 ++ (List.replicate (rowBytes W depth * H) 0).set p 1)
    have hw : (deepInfoHeader W H depth).biWidth.toNat = W := toNat_ofInt_natCast (by omega)
    have hh : (deepInfoHeader W H depth).biHeight.toNat = H := toNat_ofInt_natCast (by omega)
    have hb : (deepInfoHeader W H depth).biBitCount.toNat = depth := by
      show (BitVec.ofNat 16 depth).toNat = depth
      rw [BitVec.toNat_ofNat]
      omega
    rwa [hw, hh, hb] at h
  bfType := rfl
  biPlanes := rfl
  biCompression := rfl
  bfOffBits := Nat.le_of_eq deepFileHeader_bfOffBits.symm
  length := by
    have h14 := (deepFileHeader W H depth).bytes_length
    have h40 := (deepInfoHeader W H depth).bytes_length
    rw [deepFileHeader_bfOffBits]
    unfold deepFile
    simp only [List.length_append, h14, h40, List.length_set, List.length_replicate]
    omega

/-- The first byte of the second pixel is not where the decoder looks for it. -/
theorem not_decodesFirst (hW : 2 ≤ W) (hH : 1 ≤ H) (hdepth : 8 ≤ depth) (h8 : 8 ∣ depth)
    (h32 : depth ≠ 32) (hfits : depth < 65536) (hbits : W * depth + 31 < 2147483648)
    (hdata : rowBytes W depth * H < 2147483648) (hdom : W * H < 2147483648) :
    ¬ DecodesFirst (deepFile W H depth 4) (54 + paletteBytes depth) W H depth := by
  have hWle : W ≤ W * H := Nat.le_mul_of_pos_right W hH
  have hHle : H ≤ W * H := Nat.le_mul_of_pos_left H (by omega)
  have hfile := @deepBmp_deepFile W H depth 4 (by omega) (by omega) hfits
  have hrows : rowBytes W depth ≤ rowBytes W depth * H := Nat.le_mul_of_pos_right _ hH
  have hwide : 2 * depth ≤ W * depth := Nat.mul_le_mul_right depth hW
  have hrow : depth / 8 < rowBytes W depth := by
    unfold rowBytes
    omega
  rw [← @deepFileHeader_bfOffBits W H depth,
    decodesFirst_iff hfile.toShaped (by omega) hH hdepth hbits hdata hdom]
  rintro ⟨hlt, hpixels⟩
  have hpixel := hpixels 1 (H - 1) (by omega) (by omega)
  rw [firstByte, deepFileHeader_bfOffBits, Nat.sub_self, Nat.mul_zero, Nat.zero_mul, Nat.zero_add,
    Nat.zero_add, Nat.one_mul, Nat.one_mul, deepFile_getElem? (by omega),
    deepFile_getElem? (by omega), if_pos rfl, if_neg (by omega)] at hpixel
  cases hpixel

end DeepFile

/-- **Which depths are decoded**: the first byte of every pixel is found in every file of a shape
exactly where it has 32 bits a pixel or one column. -/
theorem deepDecode_iff {width height depth : ℕ} (hw : 1 ≤ width) (hh : 1 ≤ height)
    (hdepth : 8 ≤ depth) (h8 : 8 ∣ depth) (hfits : depth < 65536)
    (hbits : width * depth + 31 < 2147483648)
    (hdata : rowBytes width depth * height < 2147483648)
    (hdom : width * height < 2147483648) :
    (∀ file bmfh bmih, DeepBmp file width height depth bmfh bmih →
        DecodesFirst file bmfh.bfOffBits.toNat width height depth) ↔
      depth = 32 ∨ width = 1 := by
  have hWle : width ≤ width * height := Nat.le_mul_of_pos_right width hh
  have hHle : height ≤ width * height := Nat.le_mul_of_pos_left height hw
  constructor
  · intro hall
    by_contra hne
    rw [not_or] at hne
    have hfile := deepBmp_deepFile (p := 4) (W := width) (H := height) (by omega) (by omega) hfits
    have hdecodes := hall _ _ _ hfile
    rw [deepFileHeader_bfOffBits] at hdecodes
    exact not_decodesFirst (by omega) hh hdepth h8 hne.1 hfits hbits hdata hdom hdecodes
  · intro hshape file bmfh bmih h
    exact decodesFirst_of_shape h.toShaped hw hh hdepth hbits hdata hdom hshape

/-- Two columns of 32 bits. -/
theorem deepDecode_iff_example : DecodesFirst (deepFile 2 1 32 4) 54 2 1 32 :=
  (@deepDecode_iff 2 1 32 (by decide) (by decide) (by decide) (by decide) (by decide) (by decide)
    (by decide) (by decide)).mpr (.inl rfl) _ _ _
    (deepBmp_deepFile (by decide) (by decide) (by decide))

end NetworkStructure
