import NetworkStructure.BmpRoundTrip

/-! # The loops of the decoder

`ReadPixelData` has two loop nests: for files of one bit a pixel it expands the bytes of each row,
and for every other depth it takes the byte at `w << 2` for the column `w`.  The size of `imgdata`
comes from the depth in the file in both cases.

Where every access of a round is inside of its buffer, a loop appends what its rounds give
(`foldlM_rounds`).  So a file of one bit a pixel is expanded to the end (`expandPixels_eq`), and
for another depth the accesses stay inside exactly where a row has a byte for every fourth index
(`decodeBounds_iff`). -/

namespace NetworkStructure

/-! ### Loops that append -/

section Rounds

variable {ι α ε : Type} {round : List α → ι → Except ε (List α)}

/-- Where there is room for what the rounds append, a loop appends all of it. -/
theorem foldlM_rounds (size : ℕ) (cells : ι → List α) {is : List ι}
    (hround : ∀ raw, ∀ i ∈ is, raw.length + (cells i).length ≤ size →
      round raw i = .ok (raw ++ cells i))
    {raw : List α} (hroom : raw.length + (is.flatMap cells).length ≤ size) :
    is.foldlM round raw = .ok (raw ++ is.flatMap cells) := by
  induction is generalizing raw with
  | nil =>
      rw [List.flatMap_nil, List.append_nil]
      rfl
  | cons i is ih =>
      rw [List.flatMap_cons, List.length_append] at hroom
      have hi := hround raw i List.mem_cons_self (by omega)
      have hrest : is.foldlM round (raw ++ cells i) = .ok ((raw ++ cells i) ++ is.flatMap cells) :=
        ih (fun raw j hj => hround raw j (List.mem_cons_of_mem _ hj))
          (by rw [List.length_append]; omega)
      rw [List.foldlM_cons, hi, List.flatMap_cons, ← List.append_assoc]
      exact hrest

/-- A loop that goes well has appended what its rounds append. -/
theorem foldlM_length {n : ι → ℕ} {is : List ι}
    (hround : ∀ raw i raw', round raw i = .ok raw' → raw'.length = raw.length + n i)
    {raw raw' : List α} (h : is.foldlM round raw = .ok raw') :
    raw'.length = raw.length + (is.map n).sum := by
  induction is generalizing raw with
  | nil =>
      cases h
      rfl
  | cons i is ih =>
      rw [List.foldlM_cons] at h
      cases hi : round raw i with
      | error e =>
          rw [hi] at h
          cases h
      | ok raw₁ =>
          rw [hi] at h
          rw [ih h, hround raw i raw₁ hi, List.map_cons, List.sum_cons, Nat.add_assoc]

end Rounds

theorem pushRaw_eq {size : ℕ} {raw : List (Option BYTE)} (h : raw.length + 1 ≤ size)
    (pixel : Option BYTE) : pushRaw size raw pixel = .ok (raw ++ [pixel]) := if_pos h

/-- A row pushes one cell after another. -/
theorem foldlM_pushRaw {size n : ℕ} {raw : List (Option BYTE)} {cell : ℕ → Option BYTE}
    (hroom : raw.length + n ≤ size) :
    (List.range n).foldlM (fun raw i => pushRaw size raw (cell i)) raw =
      .ok (raw ++ (List.range n).map cell) := by
  rw [List.map_eq_flatMap]
  refine foldlM_rounds size _ (fun raw i _ hr => pushRaw_eq hr (cell i)) ?_
  rw [← List.map_eq_flatMap, List.length_map, List.length_range]
  exact hroom

theorem ImgData.read_eq {img : ImgData} {k : ℕ} (h : k < img.size) :
    img.read k = .ok img.file[img.bfOffBits + k]? := by
  unfold read
  rw [if_pos (by omega), Int.toNat_natCast]

/-! ### The headers -/

/-- The file has a header for an image of this shape. -/
structure Shaped (file : List BYTE) (width height bitCount : ℕ) (bmfh : BITMAPFILEHEADER)
    (bmih : BITMAPINFOHEADER) : Prop where
  fileHeader : readFileHeader file = some bmfh
  infoHeader : readInfoHeader file = some bmih
  biWidth : bmih.biWidth.toNat = width
  biHeight : bmih.biHeight.toNat = height
  biBitCount : bmih.biBitCount.toNat = bitCount

/-- `imgdata` of a file with these headers. -/
def imgdata (file : List BYTE) (bmfh : BITMAPFILEHEADER) (dwLineBytes : DWORD) (height : ℕ) :
    ImgData where
  file := file
  bfOffBits := bmfh.bfOffBits.toNat
  size := (dwLineBytes * BitVec.ofInt 32 height).toNat

section Shape

variable {file : List BYTE} {W H b : ℕ} {bmfh : BITMAPFILEHEADER} {bmih : BITMAPINFOHEADER}

theorem shaped_append (bmfh : BITMAPFILEHEADER) (bmih : BITMAPINFOHEADER) (rest : List BYTE) :
    Shaped (bmfh.bytes ++ (bmih.bytes ++ rest)) bmih.biWidth.toNat bmih.biHeight.toNat
      bmih.biBitCount.toNat bmfh bmih where
  fileHeader := readFileHeader_append bmfh (bmih.bytes ++ rest)
  infoHeader := readInfoHeader_append bmfh bmih rest
  biWidth := rfl
  biHeight := rfl
  biBitCount := rfl

theorem readPixelData_shaped (h : Shaped file W H b bmfh bmih) (hW : 1 ≤ W) (hH : 1 ≤ H)
    (hdom : W * H < 2147483648) : readPixelData file =
      (if b = 1 then expandPixels (imgdata file bmfh (getLineBytes W b) H) (getLineBytes W b) W H
          (W * H)
        else copyPixels (imgdata file bmfh (getLineBytes W b) H) (getLineBytes W b) W H
          (W * H)).map fun raw => { img_width := W, img_height := H, bitc := b, raw } := by
  have hWle : W ≤ W * H := Nat.le_mul_of_pos_right W hH
  have hHle : H ≤ W * H := Nat.le_mul_of_pos_left H hW
  unfold readPixelData
  rw [h.fileHeader, h.infoHeader]
  simp only [h.biWidth, h.biHeight, h.biBitCount]
  rw [int32_of_lt (x := (W : ℤ)) (by omega) (by omega),
    int32_of_lt (x := (H : ℤ)) (by omega) (by omega), ← Int.natCast_mul,
    int32_of_lt (x := ((W * H : ℕ) : ℤ)) (by omega) (by omega), Int.toNat_natCast]
  have hbit : (b : ℤ) = 1 ↔ b = 1 := by omega
  simp only [hbit]
  by_cases hb : b = 1
  · rw [if_pos hb, if_pos hb]
    show (expandPixels (imgdata file bmfh (getLineBytes W b) H) _ _ _ _ >>= _) = _
    cases expandPixels (imgdata file bmfh (getLineBytes W b) H) (getLineBytes W b) W H (W * H) with
    | error f => rfl
    | ok raw => rfl
  · rw [if_neg hb, if_neg hb]
    show (copyPixels (imgdata file bmfh (getLineBytes W b) H) _ _ _ _ >>= _) = _
    cases copyPixels (imgdata file bmfh (getLineBytes W b) H) (getLineBytes W b) W H (W * H) with
    | error f => rfl
    | ok raw => rfl

end Shape

/-! ### One bit a pixel -/

/-- The cell for the bit `i` of the byte `w` in the row `h` that the decoder writes: it counts the
bits from the end of what the byte is said to have. -/
def monoCell (img : ImgData) (W H h w i : ℕ) : Option BYTE :=
  img.file[img.bfOffBits + ((W + 7) / 8 * (H - 1 - h) + w)]?.map fun p =>
    if p.toNat >>> (min 8 (W - 8 * w) - 1 - i) % 2 = 1 then 0xff else 0x0

/-- The row `h` that the decoder writes. -/
def monoRow (img : ImgData) (W H h : ℕ) : List (Option BYTE) :=
  (List.range W).map fun x => monoCell img W H h (x / 8) (x % 8)

section Mono

variable {W H : ℕ}

theorem toNat_ofInt_natCast {n : ℕ} (h : n < 4294967296) : (BitVec.ofInt 32 (n : ℤ)).toNat = n := by
  have := toNat_ofInt32 (x := (n : ℤ)) (by omega) (by omega)
  omega

/-- The rows are not padded. -/
theorem getLineBytes_of_lt_eight {b : ℕ} (hb : b < 8) (h : W + 7 < 2147483648) :
    (getLineBytes W b).toNat = (W + 7) / 8 := by
  unfold getLineBytes
  rw [if_pos (by omega), int32_of_lt (by omega) (by omega),
    Int.tdiv_eq_ediv_of_nonneg (by omega)]
  have := toNat_ofInt32 (x := ((W : ℤ) + 7) / 8) (by omega) (by omega)
  omega

/-- The last byte of a row has what is left of the width. -/
theorem shiftbits_eq (hW : 1 ≤ W) (hint : W + 7 < 2147483648) {L : DWORD}
    (hL : L.toNat = (W + 7) / 8) {w : ℕ} (hw : w < (W + 7) / 8) :
    shiftbits L W w = min 8 (W - 8 * w) := by
  have hwidth : (BitVec.ofInt 32 (W : ℤ)).toNat = W := toNat_ofInt_natCast (by omega)
  have hone : (1 : DWORD).toNat = 1 := rfl
  have hlast : (L - 1).toNat = (W + 7) / 8 - 1 := by
    rw [BitVec.toNat_sub, hL, hone]
    omega
  have hshift : (L <<< 3 : DWORD).toNat = (W + 7) / 8 * 8 := by
    rw [BitVec.toNat_shiftLeft, hL, Nat.shiftLeft_eq]
    omega
  have hshift' : ((L - 1) <<< 3 : DWORD).toNat = ((W + 7) / 8 - 1) * 8 := by
    rw [BitVec.toNat_shiftLeft, hlast, Nat.shiftLeft_eq]
    omega
  have hfull : L <<< 3 ≠ BitVec.ofInt 32 (W : ℤ) ↔ (W + 7) / 8 * 8 ≠ W := by
    rw [ne_eq, ← BitVec.toNat_inj, hshift, hwidth]
  have hindex : BitVec.ofNat 32 w = L - 1 ↔ w = (W + 7) / 8 - 1 := by
    rw [← BitVec.toNat_inj, hlast, BitVec.toNat_ofNat]
    omega
  unfold shiftbits
  split
  · next h =>
    rw [hfull, hindex] at h
    rw [BitVec.toNat_sub, hshift', hwidth]
    omega
  · next h =>
    rw [hfull, hindex] at h
    omega

/-- Eight columns for each byte, and what is left for the last one. -/
theorem flatMap_rowBits {α : Type} (W : ℕ) (cell : ℕ → ℕ → α) :
    ((List.range ((W + 7) / 8)).flatMap fun w =>
      (List.range (min 8 (W - 8 * w))).map (cell w)) =
    (List.range W).map fun x => cell (x / 8) (x % 8) := by
  have hpre : ∀ n ≤ (W + 7) / 8, ((List.range n).flatMap fun w =>
      (List.range (min 8 (W - 8 * w))).map (cell w)) =
      (List.range (min (8 * n) W)).map fun x => cell (x / 8) (x % 8) := by
    intro n hn
    induction n with
    | zero => rw [Nat.mul_zero, Nat.zero_min, List.range_zero, List.flatMap_nil, List.map_nil]
    | succ n ih =>
        have hsum : min (8 * (n + 1)) W = 8 * n + min 8 (W - 8 * n) := by omega
        rw [List.range_succ, List.flatMap_append, ih (by omega), List.flatMap_singleton, hsum,
          Nat.min_eq_left (by omega), List.range_add, List.map_append, List.map_map]
        congr 1
        apply List.map_congr_left
        intro i hi
        rw [List.mem_range] at hi
        show cell n i = cell ((8 * n + i) / 8) ((8 * n + i) % 8)
        congr 1 <;> omega
  rw [hpre _ (Nat.le_refl _), Nat.min_eq_right (by omega)]

/-- A place in a row of `imgdata`. -/
theorem rowAddr_add_lt {L h k : ℕ} (hh : h < H) (hk : k < L) : L * (H - 1 - h) + k < L * H := by
  have hle : L * (H - 1 - h + 1) ≤ L * H := Nat.mul_le_mul_left L (by omega)
  rw [Nat.mul_succ] at hle
  omega

theorem monoRow_length (img : ImgData) (h : ℕ) : (monoRow img W H h).length = W := by
  rw [monoRow, List.length_map, List.length_range]

/-- **Every file of one bit a pixel is expanded to the end.** -/
theorem expandPixels_eq (hW : 1 ≤ W) (hint : W + 7 < 2147483648) (hdom : W * H < 2147483648)
    {L : DWORD} (hL : L.toNat = (W + 7) / 8) {img : ImgData}
    (hsize : img.size = (W + 7) / 8 * H) :
    expandPixels img L W H (W * H) = .ok ((List.range H).flatMap (monoRow img W H)) := by
  have hHle : H ≤ W * H := Nat.le_mul_of_pos_left H hW
  have hLle : (W + 7) / 8 * H ≤ W * H := Nat.mul_le_mul_right H (by omega)
  have hread : ∀ h < H, ∀ w < (W + 7) / 8, img.read (rowAddr L H h + w) =
      .ok img.file[img.bfOffBits + ((W + 7) / 8 * (H - 1 - h) + w)]? := by
    intro h hh w hw
    have hlt := rowAddr_add_lt hh hw
    rw [rowAddr_eq L hh (by omega), hL, Nat.mod_eq_of_lt (by omega), ← Int.natCast_add]
    exact img.read_eq (by omega)
  unfold expandPixels
  rw [Int.toNat_natCast, hL]
  refine foldlM_rounds (W * H) _ (fun raw h hh hroom => ?_) ?_
  · -- a row
    rw [List.mem_range] at hh
    have hrow : monoRow img W H h = _ := (flatMap_rowBits W (monoCell img W H h)).symm
    rw [hrow]
    refine foldlM_rounds (W * H) _ (fun raw w hw hroom => ?_) (hrow ▸ hroom)
    -- a byte
    rw [List.mem_range] at hw
    rw [List.length_map, List.length_range] at hroom
    rw [hread h hh w hw, shiftbits_eq hW hint hL hw]
    exact foldlM_pushRaw hroom
  · simp [List.length_flatMap, monoRow_length, Nat.mul_comm]

end Mono

/-! ### Every other depth -/

section Bounds

variable {W H b : ℕ}

/-- The length of a row where nothing overflows. -/
theorem getLineBytes_of_ge_eight (hb : 8 ≤ b) (h : W * b + 31 < 2147483648) :
    (getLineBytes W b).toNat = (W * b + 31) / 32 * 4 := by
  unfold getLineBytes
  rw [if_neg (by omega), ← Int.natCast_mul, int32_of_lt (x := ((W * b : ℕ) : ℤ)) (by omega)
    (by omega), int32_of_lt (x := ((W * b : ℕ) : ℤ) + 31) (by omega) (by omega),
    Int.tdiv_eq_ediv_of_nonneg (by omega), int32_of_lt (by omega) (by omega)]
  have := toNat_ofInt32 (x := (((W * b : ℕ) : ℤ) + 31) / 32 * 4) (by omega) (by omega)
  omega

/-- Where the sum overflows, the length of a row is a negative number taken for a large one. -/
theorem getLineBytes_of_overflow (hb : b < 8) (hint : W < 2147483648) (h : 2147483648 ≤ W + 7) :
    4026531840 ≤ (getLineBytes W b).toNat := by
  have hx : int32 ((W : ℤ) + 7) = -((4294967289 - W : ℕ) : ℤ) := by
    unfold int32
    omega
  obtain ⟨n, hn⟩ : ∃ n : ℕ, n = 4294967289 - W := ⟨_, rfl⟩
  rw [← hn] at hx
  have hdiv : (-(n : ℤ)).tdiv 8 = -((n / 8 : ℕ) : ℤ) := by
    rw [Int.neg_tdiv, Int.tdiv_eq_ediv_of_nonneg (Int.natCast_nonneg _)]
    omega
  unfold getLineBytes
  rw [if_pos (by omega), hx, hdiv, BitVec.toNat_ofInt]
  omega

/-- The columns of a row are four bytes apart, whatever the depth: the accesses stay inside exactly
if the last one is in the row. -/
theorem copyPixels_ok_iff (hW : 1 ≤ W) (hH : 1 ≤ H) (hdom : W * H < 2147483648) {L : DWORD}
    (hL : L.toNat * H < 2147483648) {img : ImgData} (hsize : img.size = L.toNat * H) :
    (∃ raw, copyPixels img L W H (W * H) = .ok raw) ↔ 4 * (W - 1) < L.toNat := by
  have hHle : H ≤ W * H := Nat.le_mul_of_pos_left H hW
  have hLle : L.toNat ≤ L.toNat * H := Nat.le_mul_of_pos_right L.toNat hH
  have haddr : ∀ h < H, rowAddr L H h = L.toNat * (H - 1 - h) := by
    intro h hh
    have hle : L.toNat * (H - 1 - h) ≤ L.toNat * H := Nat.mul_le_mul_left _ (by omega)
    rw [rowAddr_eq L hh (by omega), Nat.mod_eq_of_lt (by omega)]
  constructor
  · rintro ⟨raw, hraw⟩
    by_contra hge
    -- the first column behind the row that is stored last
    obtain ⟨cell, -, hread⟩ := read_of_copyPixels hraw (y := 0) (x := (L.toNat + 3) / 4)
      (by omega) (by omega)
    have hend : L.toNat * (H - 1) + L.toNat = L.toNat * H := by
      rw [← Nat.mul_succ, Nat.succ_eq_add_one, Nat.sub_add_cancel hH]
    unfold pixelAddr ImgData.read at hread
    rw [haddr 0 hH, hsize, Nat.sub_zero, if_neg (by unfold int32; omega)] at hread
    cases hread
  · intro hlt
    have hread : ∀ h < H, ∀ w < W, img.read (rowAddr L H h + int32 (w * 4)) =
        .ok img.file[img.bfOffBits + (L.toNat * (H - 1 - h) + w * 4)]? := by
      intro h hh w hw
      have hin := rowAddr_add_lt (k := w * 4) (L := L.toNat) hh (by omega)
      rw [haddr h hh, int32_of_lt (by omega) (by omega),
        show ((L.toNat * (H - 1 - h) : ℕ) : ℤ) + (w : ℤ) * 4 =
          ((L.toNat * (H - 1 - h) + w * 4 : ℕ) : ℤ) by omega]
      exact img.read_eq (by omega)
    refine ⟨_, foldlM_rounds (W * H) (fun h => (List.range W).map fun w =>
      img.file[img.bfOffBits + (L.toNat * (H - 1 - h) + w * 4)]?) (fun raw h hh hroom => ?_) ?_⟩
    · rw [Int.toNat_natCast, List.mem_range] at hh
      rw [Int.toNat_natCast]
      rw [List.map_eq_flatMap] at hroom ⊢
      refine foldlM_rounds (W * H) _ (fun raw w hw hroom => ?_) hroom
      rw [hread h hh w (List.mem_range.mp hw)]
      exact pushRaw_eq hroom _
    · simp [List.length_flatMap, Nat.mul_comm]

end Bounds

/-- Every access through `pRowAddr` and to `raw` is inside of its buffer: the decoder gets to the
end. -/
def AccessesInside (file : List BYTE) : Prop := ∃ d, readPixelData file = .ok d

section Files

variable {file : List BYTE} {W H b : ℕ} {bmfh : BITMAPFILEHEADER} {bmih : BITMAPINFOHEADER}

theorem accessesInside_iff (h : Shaped file W H b bmfh bmih) (hW : 1 ≤ W) (hH : 1 ≤ H)
    (hdom : W * H < 2147483648) : AccessesInside file ↔ ∃ raw,
      (if b = 1 then expandPixels (imgdata file bmfh (getLineBytes W b) H) (getLineBytes W b) W H
          (W * H)
        else copyPixels (imgdata file bmfh (getLineBytes W b) H) (getLineBytes W b) W H
          (W * H)) = .ok raw := by
  unfold AccessesInside
  rw [readPixelData_shaped h hW hH hdom]
  constructor
  · rintro ⟨d, hd⟩
    generalize (if b = 1 then _ else _ : Except ReadFault (List (Option BYTE))) = r at hd ⊢
    cases r with
    | error e => cases hd
    | ok raw => exact ⟨raw, rfl⟩
  · rintro ⟨raw, hraw⟩
    rw [hraw]
    exact ⟨_, rfl⟩

variable (file bmfh) in
theorem imgdata_size {L : DWORD} (hL : L.toNat * H < 2147483648) (hH : H < 2147483648) :
    (imgdata file bmfh L H).size = L.toNat * H := by
  show (L * BitVec.ofInt 32 (H : ℤ)).toNat = _
  rw [BitVec.toNat_mul, toNat_ofInt_natCast (by omega), Nat.mod_eq_of_lt (by omega)]

/-- A row has a byte for every fourth index exactly if it has 32 bits for each column. -/
theorem last_column_lt_iff (hW : 1 ≤ W) (hbits : W * b + 31 < 2147483648)
    (hline : (getLineBytes W b).toNat < 2147483648) (hW' : W < 2147483648) :
    4 * (W - 1) < (getLineBytes W b).toNat ↔ W = 1 ∨ 32 * W ≤ W * b + 31 := by
  rcases Nat.lt_or_ge b 8 with hb | hb
  · have hint : W + 7 < 2147483648 := by
      by_contra hge
      have := getLineBytes_of_overflow hb hW' (by omega)
      omega
    have hprod : W * b ≤ W * 7 := Nat.mul_le_mul_left W (by omega)
    rw [getLineBytes_of_lt_eight hb hint]
    omega
  · have hprod : W * 8 ≤ W * b := Nat.mul_le_mul_left W hb
    rw [getLineBytes_of_ge_eight hb hbits]
    omega

/-- **The decoder stays inside of its buffers exactly where the file has one bit a pixel, or one
column, or 32 bits for each column** in its rows. -/
theorem decodeBounds_iff {width height bitCount : ℕ}
    (h : Shaped file width height bitCount bmfh bmih) (hw : 1 ≤ width) (hh : 1 ≤ height)
    (hbits : width * bitCount + 31 < 2147483648)
    (hdata : (getLineBytes width bitCount).toNat * height < 2147483648)
    (hraw : width * height < 2147483648) :
    AccessesInside file ↔
      bitCount = 1 ∨ width = 1 ∨ 32 * width ≤ width * bitCount + 31 := by
  have hWle : width ≤ width * height := Nat.le_mul_of_pos_right width hh
  have hHle : height ≤ width * height := Nat.le_mul_of_pos_left height hw
  have hline : (getLineBytes width bitCount).toNat < 2147483648 :=
    Nat.lt_of_le_of_lt (Nat.le_mul_of_pos_right _ hh) hdata
  have hsize := imgdata_size file bmfh hdata (by omega)
  rw [accessesInside_iff h hw hh hraw]
  by_cases hb : bitCount = 1
  · subst hb
    have hL := getLineBytes_of_lt_eight (W := width) (b := 1) (by decide) (by omega)
    rw [hL] at hsize
    rw [if_pos rfl]
    exact iff_of_true ⟨_, expandPixels_eq hw (by omega) hraw hL hsize⟩ (.inl rfl)
  · rw [if_neg hb, copyPixels_ok_iff hw hh hraw hdata hsize, or_iff_right hb]
    exact last_column_lt_iff hw hbits hline (by omega)

end Files

/-- The headers of an image of `width` columns and one row. -/
def oneRow (width : DWORD) (bitCount : WORD) : List BYTE :=
  BITMAPFILEHEADER.bytes
      { bfType := 0x4D42, bfSize := 54, bfReserved1 := 0, bfReserved2 := 0, bfOffBits := 54 } ++
    (BITMAPINFOHEADER.bytes
      { writeInfoHeader 0 0 with biWidth := width, biHeight := 1, biBitCount := bitCount } ++ [])

/-- Two columns of 32 bits. -/
theorem decodeBounds_iff_example : AccessesInside (oneRow 2 32) :=
  (@decodeBounds_iff _ _ _ 2 1 32 (shaped_append _ _ _) (by decide) (by decide)
    (by decide) (by decide) (by decide)).mpr (by decide)

/-- Four columns of 24 bits: the fourth one is looked for behind the twelve bytes of the row. -/
theorem not_decodeBounds : (getLineBytes 4 24).toNat = 12 ∧
    readPixelData (oneRow 4 24) = .error .outOfBounds ∧ ¬ AccessesInside (oneRow 4 24) := by
  have h : readPixelData (oneRow 4 24) = .error .outOfBounds := by decide +kernel
  refine ⟨by decide, h, ?_⟩
  rintro ⟨d, hd⟩
  rw [h] at hd
  cases hd

end NetworkStructure
