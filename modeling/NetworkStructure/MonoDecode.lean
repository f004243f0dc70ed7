import NetworkStructure.BmpDecode
import NetworkStructure.BmpLayout

/-! # Files of one bit a pixel

A monochrome BMP file stores its rows from the last to the first, each padded to a multiple of
four bytes, with the leftmost pixel of a byte in its highest bit.  The decoder takes the rows to be
one directly after another (`getLineBytes_of_lt_eight`), and the pixels of the last byte of a row
to be in its lowest bits (`shiftbits_eq`).  So it finds the pixels where they are exactly for
widths that are multiples of eight, in files of one row or of widths that are multiples of 32
(`monoDecode_iff`).

In every other shape there is a file in which a single pixel is set that the decoder does not
see. -/

namespace NetworkStructure

/-! ### The files -/

/-- The length of a stored row. -/
def stride (width : ℕ) : ℕ := (width + 31) / 32 * 4

/-- A 1-bit BMP file: the headers and a table of two colours, and behind them the rows. -/
structure MonoBmp (file : List BYTE) (width height : ℕ) (bmfh : BITMAPFILEHEADER)
    (bmih : BITMAPINFOHEADER) : Prop extends Shaped file width height 1 bmfh bmih where
  bfType : bmfh.bfType = 0x4D42
  biPlanes : bmih.biPlanes = 1
  biCompression : bmih.biCompression = 0
  bfOffBits : 62 ≤ bmfh.bfOffBits.toNat
  length : bmfh.bfOffBits.toNat + stride width * height ≤ file.length

/-- The pixel `(x, y)` is set in the file whose rows start at `offBits`. -/
def PixelSet (file : List BYTE) (offBits width height x y : ℕ) : Prop :=
  ∃ b, file[offBits + ((height - 1 - y) * stride width + x / 8)]? = some b ∧
    b.toNat.testBit (7 - x % 8) = true

/-- The decoder returns the pixels of the file. -/
def DecodesMono (file : List BYTE) (offBits width height : ℕ) : Prop :=
  ∃ d, readPixelData file = .ok d ∧ d.raw.length = width * height ∧
    ∀ x y, x < width → y < height → ∃ b, d.raw[y * width + x]? = some (some b) ∧
      (b = 0xff ↔ PixelSet file offBits width height x y)

/-! ### What the decoder makes of them -/

section Decode

variable {file : List BYTE} {W H : ℕ} {bmfh : BITMAPFILEHEADER} {bmih : BITMAPINFOHEADER}

/-- The pixel comes from the row and the bit that the decoder takes it from. -/
theorem monoRows_getElem? (img : ImgData) {x y : ℕ} (hx : x < W) (hy : y < H) :
    ((List.range H).flatMap (monoRow img W H))[y * W + x]? =
      some (monoCell img W H y (x / 8) (x % 8)) := by
  rw [getElem?_flatMap_of_length (fun h => monoRow_length img h) hx, List.getElem?_range hy,
    Option.bind_some]
  unfold monoRow
  rw [List.getElem?_map, List.getElem?_range hx, Option.map_some]

theorem decodesMono_iff (h : Shaped file W H 1 bmfh bmih) (hW : 1 ≤ W) (hH : 1 ≤ H)
    (hint : W + 7 < 2147483648) (hdom : W * H < 2147483648) (offBits : ℕ) :
    DecodesMono file offBits W H ↔ ∀ x y, x < W → y < H → ∃ b,
      monoCell (imgdata file bmfh (getLineBytes W (1 : ℕ)) H) W H y (x / 8) (x % 8) = some b ∧
        (b = 0xff ↔ PixelSet file offBits W H x y) := by
  have hHle : H ≤ W * H := Nat.le_mul_of_pos_left H hW
  have hLle : (W + 7) / 8 * H ≤ W * H := Nat.mul_le_mul_right H (by omega)
  have hL := getLineBytes_of_lt_eight (W := W) (b := 1) (by decide) hint
  have hsize := imgdata_size file bmfh (L := getLineBytes W (1 : ℕ)) (H := H)
    (by rw [hL]; omega) (by omega)
  rw [hL] at hsize
  unfold DecodesMono
  rw [readPixelData_shaped h hW hH hdom, if_pos rfl, expandPixels_eq hW hint hdom hL hsize]
  constructor
  · rintro ⟨d, hd, -, hpixels⟩ x y hx hy
    obtain rfl := Except.ok.inj hd
    obtain ⟨b, hb, hset⟩ := hpixels x y hx hy
    rw [monoRows_getElem? _ hx hy] at hb
    exact ⟨b, Option.some.inj hb, hset⟩
  · intro hpixels
    refine ⟨_, rfl, ?_, fun x y hx hy => ?_⟩
    · simp [List.length_flatMap, monoRow_length, Nat.mul_comm]
    · obtain ⟨b, hb, hset⟩ := hpixels x y hx hy
      refine ⟨b, ?_, hset⟩
      rw [monoRows_getElem? _ hx hy, hb]

/-- **The shapes that the decoder takes right.** -/
theorem decodesMono_of_dvd (h : MonoBmp file W H bmfh bmih) (hW : 1 ≤ W) (hH : 1 ≤ H)
    (hdom : W * H < 2147483648) (h8 : 8 ∣ W) (h32 : 32 ∣ W ∨ H = 1) :
    DecodesMono file bmfh.bfOffBits.toNat W H := by
  have hWle : W ≤ W * H := Nat.le_mul_of_pos_right W hH
  apply (decodesMono_iff h.toShaped hW hH (by omega) hdom bmfh.bfOffBits.toNat).mpr
  intro x y hx hy
  have hrow : (W + 7) / 8 * (H - 1 - y) = (H - 1 - y) * stride W := by
    rcases h32 with h32 | rfl
    · rw [Nat.mul_comm, stride, show (W + 31) / 32 * 4 = (W + 7) / 8 by omega]
    · rw [Nat.sub_self, Nat.zero_sub, Nat.mul_zero, Nat.zero_mul]
  have hin : stride W * (H - 1 - y) + x / 8 < stride W * H :=
    rowAddr_add_lt hy (by unfold stride; omega)
  have hlen := h.length
  rw [Nat.mul_comm] at hin
  obtain ⟨b, hb⟩ : ∃ b, file[bmfh.bfOffBits.toNat + ((H - 1 - y) * stride W + x / 8)]? = some b :=
    ⟨_, List.getElem?_eq_getElem (by omega)⟩
  have hbits : min 8 (W - 8 * (x / 8)) - 1 - x % 8 = 7 - x % 8 := by omega
  have hset : PixelSet file bmfh.bfOffBits.toNat W H x y ↔
      b.toNat >>> (7 - x % 8) % 2 = 1 := by
    unfold PixelSet
    rw [hb, Nat.shiftRight_eq_div_pow]
    simp [Nat.testBit_eq_decide_div_mod_eq]
  refine ⟨if b.toNat >>> (7 - x % 8) % 2 = 1 then 0xff else 0x0, ?_, ?_⟩
  · show (file[bmfh.bfOffBits.toNat + _]?.map _) = _
    rw [hrow, hb, hbits]
    rfl
  · rw [hset]
    split
    · next hbit => exact iff_of_true rfl hbit
    · next hbit => exact iff_of_false (by decide) hbit

/-- A pixel that is set, and that the decoder does not see. -/
theorem not_decodesMono (h : Shaped file W H 1 bmfh bmih) (hW : 1 ≤ W) (hH : 1 ≤ H)
    (hint : W + 7 < 2147483648) (hdom : W * H < 2147483648) {offBits x y : ℕ} (hx : x < W)
    (hy : y < H) (hset : PixelSet file offBits W H x y)
    (hcell : monoCell (imgdata file bmfh (getLineBytes W (1 : ℕ)) H) W H y (x / 8) (x % 8) =
      some 0x0) : ¬ DecodesMono file offBits W H := by
  rw [decodesMono_iff h hW hH hint hdom]
  intro hpixels
  obtain ⟨b, hb, hiff⟩ := hpixels x y hx hy
  rw [hcell] at hb
  have hff := hiff.mpr hset
  rw [← Option.some.inj hb] at hff
  exact absurd hff (by decide)

end Decode

/-! ### An overflow -/

section Overflow

variable {file : List BYTE} {W H : ℕ} {bmfh : BITMAPFILEHEADER} {bmih : BITMAPINFOHEADER}

/-- Where the loops get to the end they have written all pixels of all bytes of all rows. -/
theorem expandPixels_length {img : ImgData} {L : DWORD} {width height : ℤ} {size : ℕ}
    {raw : List (Option BYTE)} (h : expandPixels img L width height size = .ok raw) :
    raw.length = height.toNat * ((List.range L.toNat).map (shiftbits L width)).sum := by
  have hpush : ∀ (n : ℕ) (cell : ℕ → Option BYTE) raw raw',
      (List.range n).foldlM (fun raw i => pushRaw size raw (cell i)) raw = .ok raw' →
      raw'.length = raw.length + n := by
    intro n cell raw raw' hn
    have hlen := foldlM_length (n := fun _ => 1)
      (fun raw i raw' hi => by rw [pushRaw_ok hi, List.length_append]; rfl) hn
    simpa using hlen
  have hrow : ∀ raw h raw', (List.range L.toNat).foldlM (fun raw (w : ℕ) => do
      let pixel ← img.read (rowAddr L height h + w)
      let bits := shiftbits L width w
      (List.range bits).foldlM (fun raw i => pushRaw size raw (pixel.map fun p : BYTE =>
        if p.toNat >>> (bits - 1 - i) % 2 = 1 then 0xff else 0x0)) raw) raw = .ok raw' →
      raw'.length = raw.length + ((List.range L.toNat).map (shiftbits L width)).sum := by
    intro raw h raw' hh
    refine foldlM_length (fun raw w raw' hw => ?_) hh
    cases hr : img.read (rowAddr L height h + w) with
    | error e =>
        rw [hr] at hw
        cases hw
    | ok pixel =>
        rw [hr] at hw
        exact hpush _ _ raw raw' hw
  have hlen := foldlM_length hrow h
  simpa using hlen

/-- Every byte but the last has eight pixels. -/
theorem sum_shiftbits_ge {L : DWORD} (hL : 1 ≤ L.toNat) (width : ℤ) :
    8 * (L.toNat - 1) ≤ ((List.range L.toNat).map (shiftbits L width)).sum := by
  have hone : (1 : DWORD).toNat = 1 := rfl
  have hlast : (L - 1).toNat = L.toNat - 1 := by
    rw [BitVec.toNat_sub, hone]
    omega
  have hfull : ∀ w < L.toNat - 1, shiftbits L width w = 8 := by
    intro w hw
    unfold shiftbits
    rw [if_neg]
    rintro ⟨-, hw'⟩
    have := congrArg BitVec.toNat hw'
    rw [hlast, BitVec.toNat_ofNat] at this
    omega
  obtain ⟨n, hn⟩ : ∃ n, L.toNat = n + 1 := ⟨L.toNat - 1, by omega⟩
  have hpre : (List.range n).map (shiftbits L width) = (List.range n).map fun _ => 8 :=
    List.map_congr_left fun w hw => hfull w (by have := List.mem_range.mp hw; omega)
  have hsum : ((List.range n).map fun _ => 8).sum = n * 8 := by simp
  rw [hn, List.range_succ, List.map_append, List.sum_append, hpre, hsum]
  omega

/-- Where `width+7` is not an `int` there is no end of the bytes of a row. -/
theorem not_decodesMono_overflow (h : Shaped file W H 1 bmfh bmih) (hW : W < 2147483648)
    (hH : 1 ≤ H) (hover : 2147483648 ≤ W + 7) (hdom : W * H < 2147483648) (offBits : ℕ) :
    ¬ DecodesMono file offBits W H := by
  rintro ⟨d, hd, hlen, -⟩
  have hL := getLineBytes_of_overflow (b := 1) (by decide) hW hover
  rw [readPixelData_shaped h (by omega) hH hdom, if_pos rfl] at hd
  cases hr : expandPixels (imgdata file bmfh (getLineBytes W (1 : ℕ)) H)
      (getLineBytes W (1 : ℕ)) W H (W * H) with
  | error e =>
      rw [hr] at hd
      cases hd
  | ok raw =>
      rw [hr] at hd
      obtain rfl := Except.ok.inj hd
      have hexp := expandPixels_length hr
      have hge := sum_shiftbits_ge (L := getLineBytes W (1 : ℕ)) (by omega) W
      have hle := Nat.le_mul_of_pos_left
        ((List.range (getLineBytes W (1 : ℕ)).toNat).map (shiftbits (getLineBytes W (1 : ℕ)) W)).sum
        hH
      rw [Int.toNat_natCast] at hexp
      dsimp only at hlen
      omega

end Overflow

/-! ### A file with one pixel -/

def monoFileHeader (W H : ℕ) : BITMAPFILEHEADER where
  bfType := 0x4D42
  bfSize := BitVec.ofNat 32 (62 + stride W * H)
  bfReserved1 := 0
  bfReserved2 := 0
  bfOffBits := 62

def monoInfoHeader (W H : ℕ) : BITMAPINFOHEADER := { writeInfoHeader W H with biBitCount := 1 }

/-- All bits are zero but the highest one of the byte `p`. -/
def monoFile (W H p : ℕ) : List BYTE :=
  (monoFileHeader W H).bytes ++ ((monoInfoHeader W H).bytes ++
    ([0, 0, 0, 0, 0xff, 0xff, 0xff, 0] ++ (List.replicate (stride W * H) 0).set p 0x80))

section MonoFile

variable {W H p k : ℕ}

theorem monoFile_getElem? (hk : k < stride W * H) :
    (monoFile W H p)[62 + k]? = some (if k = p then 0x80 else 0) := by
  have h14 := (monoFileHeader W H).bytes_length
  have h40 := (monoInfoHeader W H).bytes_length
  unfold monoFile
  rw [List.getElem?_append_right (by omega), List.getElem?_append_right (by omega),
    List.getElem?_append_right (by rw [h14, h40]; show 8 ≤ _; omega), h14, h40]
  show ((List.replicate (stride W * H) (0 : BYTE)).set p 0x80)[62 + k - 14 - 40 - 8]? = _
  rw [show 62 + k - 14 - 40 - 8 = k by omega, List.getElem?_set]
  split
  · next hp =>
    subst hp
    rw [if_pos (by rw [List.length_replicate]; exact hk), if_pos rfl]
  · next hp => rw [List.getElem?_replicate, if_pos hk, if_neg (Ne.symm hp)]

theorem monoBmp_monoFile (hW : W < 2147483648) (hH : H < 2147483648) :
    MonoBmp (monoFile W H p) W H (monoFileHeader W H) (monoInfoHeader W H) where
  toShaped := by
    have h := shaped_append (monoFileHeader W H) (monoInfoHeader W H)
      ([0, 0, 0, 0, 0xff, 0xff, 0xff, 0] ++ (List.replicate (stride W * H) 0).set p 0x80)
    have hw : (monoInfoHeader W H).biWidth.toNat = W := toNat_ofInt_natCast (by omega)
    have hh : (monoInfoHeader W H).biHeight.toNat = H := toNat_ofInt_natCast (by omega)
    rwa [hw, hh] at h
  bfType := rfl
  biPlanes := rfl
  biCompression := rfl
  bfOffBits := Nat.le_refl 62
  length := by
    have h14 := (monoFileHeader W H).bytes_length
    have h40 := (monoInfoHeader W H).bytes_length
    show 62 + stride W * H ≤ _
    unfold monoFile
    simp only [List.length_append, h14, h40, List.length_cons, List.length_nil, List.length_set,
      List.length_replicate]
    omega

/-- The cell that the decoder makes of a byte of the file. -/
theorem monoCell_monoFile {L : DWORD} {h w i : ℕ}
    (hk : (W + 7) / 8 * (H - 1 - h) + w < stride W * H) :
    monoCell (imgdata (monoFile W H p) (monoFileHeader W H) L H) W H h w i =
      some (if (if (W + 7) / 8 * (H - 1 - h) + w = p then (0x80 : BYTE) else 0).toNat >>>
        (min 8 (W - 8 * w) - 1 - i) % 2 = 1 then 0xff else 0x0) := by
  unfold monoCell
  show ((monoFile W H p)[62 + _]?.map _) = _
  rw [monoFile_getElem? hk]
  rfl

/-- The last columns are read from the lowest bits of their byte. -/
theorem not_decodesMono_partial (hW : 1 ≤ W) (hH : 1 ≤ H) (hint : W + 7 < 2147483648)
    (hdom : W * H < 2147483648) (h8 : ¬ 8 ∣ W) :
    ¬ DecodesMono (monoFile W H ((W - 1) / 8)) 62 W H := by
  have hHle : H ≤ W * H := Nat.le_mul_of_pos_left H hW
  have hfile := monoBmp_monoFile (p := (W - 1) / 8) (W := W) (H := H) (by omega) (by omega)
  have hstride : stride W ≤ stride W * H := Nat.le_mul_of_pos_right _ hH
  have hp : (W - 1) / 8 < stride W := by
    unfold stride
    omega
  have hx : 8 * ((W - 1) / 8) / 8 = (W - 1) / 8 := by omega
  refine not_decodesMono hfile.toShaped hW hH hint hdom (x := 8 * ((W - 1) / 8)) (y := H - 1)
    (by omega) (by omega) ⟨0x80, ?_, ?_⟩ ?_
  · rw [Nat.sub_self, Nat.zero_mul, Nat.zero_add, hx, monoFile_getElem? (by omega), if_pos rfl]
  · rw [Nat.mul_mod_right]
    decide
  · rw [hx, Nat.mul_mod_right, monoCell_monoFile (by rw [Nat.sub_self]; omega), Nat.sub_self,
      Nat.mul_zero, Nat.zero_add, if_pos rfl, if_neg]
    have hbit : min 8 (W - 8 * ((W - 1) / 8)) - 1 - 0 < 7 := by omega
    generalize min 8 (W - 8 * ((W - 1) / 8)) - 1 - 0 = n at hbit
    revert n
    decide

/-- The second stored row is looked for in the padding of the first one. -/
theorem not_decodesMono_padded (hW : 1 ≤ W) (hH : 2 ≤ H) (hdom : W * H < 2147483648)
    (h8 : 8 ∣ W) (h32 : ¬ 32 ∣ W) : ¬ DecodesMono (monoFile W H (stride W)) 62 W H := by
  have hWle : W ≤ W * H := Nat.le_mul_of_pos_right W (by omega)
  have hHle : H ≤ W * H := Nat.le_mul_of_pos_left H hW
  have hfile := monoBmp_monoFile (p := stride W) (W := W) (H := H) (by omega) (by omega)
  have hstride : stride W * 2 ≤ stride W * H := Nat.mul_le_mul_left _ hH
  have hlt : (W + 7) / 8 < stride W := by
    unfold stride
    omega
  have hrow : H - 1 - (H - 2) = 1 := by omega
  refine not_decodesMono hfile.toShaped hW (by omega) (by omega) hdom (x := 0) (y := H - 2) hW
    (by omega) ⟨0x80, ?_, by decide⟩ ?_
  · rw [hrow, Nat.one_mul, Nat.zero_div, Nat.add_zero, monoFile_getElem? (by omega), if_pos rfl]
  · rw [monoCell_monoFile (by rw [hrow]; omega), hrow, Nat.mul_one, Nat.zero_div, Nat.add_zero,
      if_neg (Nat.ne_of_lt hlt), if_neg]
    show ¬ 0 >>> _ % 2 = 1
    rw [Nat.zero_shiftRight]
    decide

end MonoFile

/-- **Which shapes are decoded**: the pixels of every 1-bit file of a shape are found exactly where
the width is a multiple of eight, and of 32 unless there is only one row. -/
theorem monoDecode_iff {width height : ℕ} (hw : 1 ≤ width) (hh : 1 ≤ height)
    (hdom : width * height < 2147483648) :
    (∀ file bmfh bmih, MonoBmp file width height bmfh bmih →
        DecodesMono file bmfh.bfOffBits.toNat width height) ↔
      8 ∣ width ∧ (32 ∣ width ∨ height = 1) := by
  have hWle : width ≤ width * height := Nat.le_mul_of_pos_right width hh
  have hHle : height ≤ width * height := Nat.le_mul_of_pos_left height hw
  constructor
  · intro hall
    by_contra hne
    have hone : ∀ p, DecodesMono (monoFile width height p) 62 width height :=
      fun p => hall _ _ _ (monoBmp_monoFile (by omega) (by omega))
    rcases Nat.lt_or_ge (width + 7) 2147483648 with hint | hover
    · by_cases h8 : 8 ∣ width
      · rw [not_and, not_or] at hne
        obtain ⟨h32, h1⟩ := hne h8
        exact not_decodesMono_padded hw (by omega) hdom h8 h32 (hone _)
      · exact not_decodesMono_partial hw hh hint hdom h8 (hone _)
    · have hfile := monoBmp_monoFile (p := 0) (W := width) (H := height) (by omega) (by omega)
      exact not_decodesMono_overflow hfile.toShaped (by omega) hh hover hdom 62 (hone 0)
  · rintro ⟨h8, h32⟩ file bmfh bmih h
    exact decodesMono_of_dvd h hw hh hdom h8 h32

/-- Two rows of 32 pixels. -/
theorem monoDecode_iff_example : DecodesMono (monoFile 32 2 4) 62 32 2 :=
  (@monoDecode_iff 32 2 (by decide) (by decide) (by decide)).mpr (by decide)
    _ _ _ (monoBmp_monoFile (by decide) (by decide))

/-- A file of one pixel, which is set. -/
theorem not_monoDecode : MonoBmp (monoFile 1 1 0) 1 1 (monoFileHeader 1 1) (monoInfoHeader 1 1) ∧
    PixelSet (monoFile 1 1 0) 62 1 1 0 0 ∧
    readPixelData (monoFile 1 1 0) = .ok {
      img_width := 1
      img_height := 1
      bitc := 1
      raw := [some 0x0] } ∧
    ¬ DecodesMono (monoFile 1 1 0) 62 1 1 :=
  ⟨monoBmp_monoFile (by decide) (by decide), ⟨0x80, by decide +kernel, by decide⟩,
    by decide +kernel, not_decodesMono_partial (by decide) (by decide) (by decide) (by decide)
      (by decide)⟩

end NetworkStructure
