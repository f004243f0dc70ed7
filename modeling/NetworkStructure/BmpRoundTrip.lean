import Mathlib.Data.List.Forall2
import NetworkStructure.Bmp

/-! # Decoding what has been encoded

`encode_bmp` stores one byte for a pixel and the rows without padding; `ReadPixelData` takes the
byte at `w << 2` of rows that are padded to multiples of four, as it would from a file of 32
bits for a pixel.  The two agree on the image of one pixel.  In every other image some pixel is
looked for behind the end of the file (`exists_behind`), where the decoder finds memory that has
never been written, or the end of its allocation. -/

namespace NetworkStructure

/-! ### The headers -/

theorem int32_of_lt {x : ℤ} (h₀ : -2147483648 ≤ x) (h : x < 2147483648) : int32 x = x := by
  unfold int32
  omega

theorem toNat_ofInt32 {x : ℤ} (h₀ : 0 ≤ x) (h : x < 4294967296) :
    ((BitVec.ofInt 32 x).toNat : ℤ) = x := by
  rw [BitVec.toNat_ofInt]
  omega

@[simp] theorem freadWORD_append (x : WORD) (rest : List BYTE) :
    freadWORD.run (x.bytes ++ rest) = some (x, rest) := by
  have h := leRead_append (n := 2) x.isLt rest
  unfold freadWORD WORD.bytes
  rw [StateT.run_map, h]
  simp

@[simp] theorem freadDWORD_append (x : DWORD) (rest : List BYTE) :
    freadDWORD.run (x.bytes ++ rest) = some (x, rest) := by
  have h := leRead_append (n := 4) x.isLt rest
  unfold freadDWORD DWORD.bytes
  rw [StateT.run_map, h]
  simp

@[simp] theorem WORD.bytes_length (x : WORD) : x.bytes.length = 2 := leBytes_length ..

@[simp] theorem DWORD.bytes_length (x : DWORD) : x.bytes.length = 4 := leBytes_length ..

theorem BITMAPFILEHEADER.bytes_length (bmfh : BITMAPFILEHEADER) : bmfh.bytes.length = 14 := by
  simp [BITMAPFILEHEADER.bytes]

theorem BITMAPINFOHEADER.bytes_length (bmih : BITMAPINFOHEADER) : bmih.bytes.length = 40 := by
  simp [BITMAPINFOHEADER.bytes]

theorem clr_table_length : clr_table.length = 1024 := by decide +kernel

theorem headers_length (bmfh : BITMAPFILEHEADER) (bmih : BITMAPINFOHEADER) :
    (bmfh.bytes ++ bmih.bytes ++ clr_table).length = 1078 := by
  rw [List.length_append, List.length_append, bmfh.bytes_length, bmih.bytes_length,
    clr_table_length]

theorem readFileHeader_append (bmfh : BITMAPFILEHEADER) (rest : List BYTE) :
    readFileHeader (bmfh.bytes ++ rest) = some bmfh := by
  simp [readFileHeader, BITMAPFILEHEADER.bytes, StateT.run'_eq, StateT.run_bind]

theorem readInfoHeader_append (bmfh : BITMAPFILEHEADER) (bmih : BITMAPINFOHEADER)
    (rest : List BYTE) : readInfoHeader (bmfh.bytes ++ (bmih.bytes ++ rest)) = some bmih := by
  unfold readInfoHeader
  rw [List.drop_left' bmfh.bytes_length]
  simp [BITMAPINFOHEADER.bytes, StateT.run'_eq, StateT.run_bind]

/-! ### The copy loops -/

/-- The cells that the reads at the indices give. -/
abbrev Cells (img : ImgData) (ks : List ℤ) (cells : List (Option BYTE)) : Prop :=
  List.Forall₂ (fun k cell => img.read k = .ok cell) ks cells

/-- The index that `copyPixels` reads for the column `w` of the row `h`. -/
def pixelAddr (dwLineBytes : DWORD) (height : ℤ) (h w : ℕ) : ℤ :=
  rowAddr dwLineBytes height h + int32 (w * 4)

/-- The indices of all reads, from row to row. -/
def pixelAddrs (dwLineBytes : DWORD) (width height : ℤ) : List ℤ :=
  (List.range height.toNat).flatMap fun y =>
    (List.range width.toNat).flatMap fun x => [pixelAddr dwLineBytes height y x]

/-- A loop appends what the rounds of it append. -/
theorem foldlM_cells {ι : Type} {img : ImgData}
    {round : List (Option BYTE) → ι → Except ReadFault (List (Option BYTE))} {ks : ι → List ℤ}
    (hround : ∀ raw i raw', round raw i = .ok raw' →
      ∃ cells, raw' = raw ++ cells ∧ Cells img (ks i) cells)
    {is : List ι} {raw raw' : List (Option BYTE)} (h : is.foldlM round raw = .ok raw') :
    ∃ cells, raw' = raw ++ cells ∧ Cells img (is.flatMap ks) cells := by
  induction is generalizing raw with
  | nil =>
      cases h
      exact ⟨[], (List.append_nil _).symm, .nil⟩
  | cons i is ih =>
      rw [List.foldlM_cons] at h
      cases hi : round raw i with
      | error e =>
          rw [hi] at h
          cases h
      | ok raw₁ =>
          rw [hi] at h
          obtain ⟨cells, rfl, hc⟩ := hround _ _ _ hi
          obtain ⟨cells', rfl, hc'⟩ := ih h
          exact ⟨cells ++ cells', List.append_assoc .., List.rel_append hc hc'⟩

theorem pushRaw_ok {size : ℕ} {raw raw' : List (Option BYTE)} {pixel : Option BYTE}
    (h : pushRaw size raw pixel = .ok raw') : raw' = raw ++ [pixel] := by
  unfold pushRaw at h
  split at h
  · exact (Except.ok.inj h).symm
  · cases h

/-- Where `copyPixels` succeeds, each of its reads has succeeded and given a byte of `raw`. -/
theorem copyPixels_ok {img : ImgData} {dwLineBytes : DWORD} {width height : ℤ} {size : ℕ}
    {raw : List (Option BYTE)} (h : copyPixels img dwLineBytes width height size = .ok raw) :
    Cells img (pixelAddrs dwLineBytes width height) raw := by
  have hread : ∀ y raw (x : ℕ) raw', (img.read (pixelAddr dwLineBytes height y x) >>= fun pixel =>
      pushRaw size raw pixel) = .ok raw' →
      ∃ cells, raw' = raw ++ cells ∧ Cells img [pixelAddr dwLineBytes height y x] cells := by
    intro y raw x raw' h
    cases hr : img.read (pixelAddr dwLineBytes height y x) with
    | error e =>
        rw [hr] at h
        cases h
    | ok pixel =>
        rw [hr] at h
        exact ⟨[pixel], pushRaw_ok h, .cons hr .nil⟩
  obtain ⟨cells, rfl, hc⟩ := foldlM_cells (fun _ y _ hrow => foldlM_cells (hread y) hrow) h
  exact hc

/-- A pixel of the result comes from where it is read. -/
theorem read_of_copyPixels {img : ImgData} {dwLineBytes : DWORD} {width height : ℤ} {size : ℕ}
    {raw : List (Option BYTE)} (h : copyPixels img dwLineBytes width height size = .ok raw)
    {y x : ℕ} (hy : y < height.toNat) (hx : x < width.toNat) :
    ∃ cell ∈ raw, img.read (pixelAddr dwLineBytes height y x) = .ok cell := by
  have hm : pixelAddr dwLineBytes height y x ∈ pixelAddrs dwLineBytes width height := by
    apply List.mem_flatMap.mpr
    refine ⟨y, List.mem_range.mpr hy, List.mem_flatMap.mpr ?_⟩
    exact ⟨x, List.mem_range.mpr hx, List.mem_singleton_self _⟩
  obtain ⟨n, hn, he⟩ := List.getElem_of_mem hm
  have hc := copyPixels_ok h
  have hl := hc.length_eq
  refine ⟨raw[n], List.getElem_mem (hl ▸ hn), ?_⟩
  have := hc.get hn (hl ▸ hn)
  rwa [List.get_eq_getElem, he] at this

/-! ### Behind the end of the file -/

section Behind

variable {W H : ℕ}

/-- The padded length of a row. -/
theorem getLineBytes_of_lt (h : 8 * W + 31 < 2147483648) :
    (getLineBytes W 8).toNat = (8 * W + 31) / 32 * 4 := by
  unfold getLineBytes
  rw [if_neg (by decide), int32_of_lt (x := (W : ℤ) * 8) (by omega) (by omega),
    int32_of_lt (x := (W : ℤ) * 8 + 31) (by omega) (by omega),
    Int.tdiv_eq_ediv_of_nonneg (by omega), int32_of_lt (by omega) (by omega)]
  have := toNat_ofInt32 (x := ((W : ℤ) * 8 + 31) / 32 * 4) (by omega) (by omega)
  omega

/-- Where the product overflows, the length of a row is a negative number taken for a large
one. -/
theorem getLineBytes_of_ge (h : 2147483648 ≤ 8 * W + 31) (h' : 8 * W + 63 ≤ 4294967296) :
    4026531840 ≤ (getLineBytes W 8).toNat := by
  have hx : int32 (int32 ((W : ℤ) * 8) + 31) = -((4294967265 - 8 * W : ℕ) : ℤ) := by
    unfold int32
    omega
  obtain ⟨n, hn⟩ : ∃ n : ℕ, n = 4294967265 - 8 * W := ⟨_, rfl⟩
  rw [← hn] at hx
  have hdiv : (-(n : ℤ)).tdiv 32 = -((n / 32 : ℕ) : ℤ) := by
    rw [Int.neg_tdiv, Int.tdiv_eq_ediv_of_nonneg (Int.natCast_nonneg _)]
    omega
  unfold getLineBytes
  rw [if_neg (by decide), hx, hdiv, int32_of_lt (by omega) (by omega), BitVec.toNat_ofInt]
  omega

theorem rowAddr_eq (dwLineBytes : DWORD) {y : ℕ} (hy : y < H) (hH : H < 2147483648) :
    rowAddr dwLineBytes H y = dwLineBytes.toNat * (H - 1 - y) % 4294967296 := by
  unfold rowAddr
  have := toNat_ofInt32 (x := (H : ℤ) - 1 - y) (by omega) (by omega)
  rw [BitVec.toNat_mul]
  have he : (BitVec.ofInt 32 ((H : ℤ) - 1 - y)).toNat = H - 1 - y := by omega
  rw [he]

/-- Some pixel is read behind the end of the file, whatever the arithmetic of the row length
does. -/
theorem exists_behind (hW : 1 ≤ W) (hH : 1 ≤ H) (hdom : W * H + 1078 < 2147483648)
    (hne : ¬ (W = 1 ∧ H = 1)) : ∃ y < H, ∃ x < W,
      ((W * H : ℕ) : ℤ) ≤ pixelAddr (getLineBytes W 8) H y x := by
  have hWle : W ≤ W * H := Nat.le_mul_of_pos_right W hH
  have hHle : H ≤ W * H := Nat.le_mul_of_pos_left H hW
  have haddr : ∀ y x : ℕ, y < H → x < 536870912 → pixelAddr (getLineBytes W 8) H y x =
      (((getLineBytes W 8).toNat * (H - 1 - y) % 4294967296 + x * 4 : ℕ) : ℤ) := by
    intro y x hy hx
    unfold pixelAddr
    rw [rowAddr_eq _ hy (by omega), int32_of_lt (by omega) (by omega)]
    omega
  rcases Nat.lt_or_ge (8 * W + 31) 2147483648 with hsmall | hlarge
  · have hline := getLineBytes_of_lt hsmall
    rcases Nat.eq_or_lt_of_le hW with rfl | hW2
    · -- one column: the rows are four bytes apart
      refine ⟨H - 1 - min (H - 1) 1073741823, by omega, 0, Nat.one_pos, ?_⟩
      rw [haddr _ _ (by omega) (by decide), hline]
      omega
    · -- the last pixel of the row that is stored last
      refine ⟨0, hH, W - 1, by omega, ?_⟩
      rw [haddr _ _ hH (by omega), Nat.sub_zero]
      have hP : W * (H - 1) + W = W * H := by
        rw [← Nat.mul_succ, Nat.succ_eq_add_one, Nat.sub_add_cancel hH]
      have hlow : W * (H - 1) ≤ (getLineBytes W 8).toNat * (H - 1) :=
        Nat.mul_le_mul_right _ (by omega)
      have hhigh : (getLineBytes W 8).toNat * (H - 1) ≤ 2 * W * (H - 1) :=
        Nat.mul_le_mul_right _ (by omega)
      rw [Nat.mul_assoc] at hhigh
      omega
  · rcases Nat.lt_or_ge H 4 with hH4 | hH4
    · -- the row that is stored first
      have hx : (W * H + 3) / 4 < W := by
        have : W * H ≤ W * 3 := Nat.mul_le_mul_left W (by omega)
        omega
      refine ⟨H - 1, by omega, (W * H + 3) / 4, hx, ?_⟩
      rw [haddr _ _ (by omega) (by omega), Nat.sub_self, Nat.mul_zero]
      omega
    · -- the next row is far away
      have hW4 : W * 4 ≤ W * H := Nat.mul_le_mul_left W hH4
      have hline := getLineBytes_of_ge hlarge (by omega)
      refine ⟨H - 2, by omega, 0, by omega, ?_⟩
      have h1 : H - 1 - (H - 2) = 1 := by omega
      rw [haddr _ _ (by omega) (by decide), h1, Nat.mul_one,
        Nat.mod_eq_of_lt (getLineBytes W 8).isLt]
      omega

end Behind

/-! ### The encoded file -/

/-- `imgdata` in a file whose pixels follow the headers and the colour table. -/
def encodedImg (W H : ℕ) (pixels : List BYTE) : ImgData where
  file := (writeFileHeader W H).bytes ++ (writeInfoHeader W H).bytes ++ clr_table ++ pixels
  bfOffBits := 1078
  size := (getLineBytes W 8 * BitVec.ofInt 32 H).toNat

section File

variable {W H : ℕ} (hdom : W * H + 1078 < 2147483648)
include hdom

theorem bfSize_eq : (writeFileHeader W H).bfSize.toNat = 1078 + W * H := by
  have hp : ((W : ℤ) * H) = (W * H : ℕ) := (Int.natCast_mul W H).symm
  have := toNat_ofInt32 (x := ((1078 + W * H : ℕ) : ℤ)) (by omega) (by omega)
  have he : FILEHEADSIZE + INFOHEADSIZE + clr_table_size + ((W * H : ℕ) : ℤ) =
      ((1078 + W * H : ℕ) : ℤ) := by
    unfold FILEHEADSIZE INFOHEADSIZE clr_table_size
    omega
  show (BitVec.ofInt 32 (FILEHEADSIZE + INFOHEADSIZE + clr_table_size + int32 _)).toNat = _
  rw [hp, int32_of_lt (by omega) (by omega), he]
  omega

theorem bfSize_ne_zero : (writeFileHeader W H).bfSize ≠ 0 := by
  intro h
  have hb := bfSize_eq hdom
  have h0 : (0 : DWORD).toNat = 0 := rfl
  rw [h, h0] at hb
  omega

theorem encode_bmp_eq (buff : ℤ → BYTE) : encode_bmp buff W H = some {
    size := ((1078 + W * H : ℕ) : ℤ)
    bytes := (writeFileHeader W H).bytes ++ (writeInfoHeader W H).bytes ++ clr_table ++
      (pixelIndices W H).map buff } := by
  unfold encode_bmp
  rw [if_neg (bfSize_ne_zero hdom), bfSize_eq hdom, int32_of_lt (by omega) (by omega)]

/-- What the decoder makes of the file: the dimensions are read back, and the rest depends on the
copy loops. -/
theorem readPixelData_encoded (hW : 1 ≤ W) (hH : 1 ≤ H) (pixels : List BYTE) :
    readPixelData ((writeFileHeader W H).bytes ++ (writeInfoHeader W H).bytes ++ clr_table ++
      pixels) = (copyPixels (encodedImg W H pixels) (getLineBytes W 8) W H (W * H)).map
        fun raw => { img_width := W, img_height := H, bitc := 8, raw } := by
  have hWle : W ≤ W * H := Nat.le_mul_of_pos_right W hH
  have hHle : H ≤ W * H := Nat.le_mul_of_pos_left H hW
  have hw := toNat_ofInt32 (x := (W : ℤ)) (by omega) (by omega)
  have hh := toNat_ofInt32 (x := (H : ℤ)) (by omega) (by omega)
  have hp : ((W : ℤ) * H) = (W * H : ℕ) := (Int.natCast_mul W H).symm
  have hbw : int32 (writeInfoHeader W H).biWidth.toNat = W := by
    show int32 (BitVec.ofInt 32 (W : ℤ)).toNat = W
    rw [hw, int32_of_lt (by omega) (by omega)]
  have hbh : int32 (writeInfoHeader W H).biHeight.toNat = H := by
    show int32 (BitVec.ofInt 32 (H : ℤ)).toNat = H
    rw [hh, int32_of_lt (by omega) (by omega)]
  have hbc : ((writeInfoHeader W H).biBitCount.toNat : ℤ) = 8 := rfl
  have hoff : (writeFileHeader W H).bfOffBits.toNat = 1078 := by
    show (BitVec.ofInt 32 (FILEHEADSIZE + INFOHEADSIZE + clr_table_size)).toNat = 1078
    decide
  have hfile : (writeFileHeader W H).bytes ++ (writeInfoHeader W H).bytes ++ clr_table ++ pixels =
      (writeFileHeader W H).bytes ++ ((writeInfoHeader W H).bytes ++ (clr_table ++ pixels)) := by
    simp only [List.append_assoc]
  unfold readPixelData
  rw [hfile, readFileHeader_append, readInfoHeader_append]
  simp only [hbw, hbh, hbc, hoff]
  rw [if_neg (by decide), hp, int32_of_lt (x := ((W * H : ℕ) : ℤ)) (by omega) (by omega),
    Int.toNat_natCast, ← hfile]
  show (copyPixels (encodedImg W H pixels) (getLineBytes W 8) W H (W * H) >>= _) = _
  cases copyPixels (encodedImg W H pixels) (getLineBytes W 8) W H (W * H) with
  | error f => rfl
  | ok raw => rfl

end File

theorem pixelIndices_length (W H : ℕ) : (pixelIndices W H).length = W * H := by
  simp [pixelIndices, List.length_flatMap, Nat.mul_comm]

theorem encodedImg_file (W H k : ℕ) (pixels : List BYTE) :
    (encodedImg W H pixels).file[1078 + k]? = pixels[k]? := by
  have hl := headers_length (writeFileHeader W H) (writeInfoHeader W H)
  show (_ ++ pixels)[1078 + k]? = _
  rw [List.getElem?_append_right (by rw [hl]; exact Nat.le_add_right ..), hl,
    Nat.add_sub_cancel_left]

/-- Behind the pixels there is nothing in the file. -/
theorem read_encodedImg {W H : ℕ} {pixels : List BYTE} {k : ℤ} {cell : Option BYTE}
    (h : (encodedImg W H pixels).read k = .ok cell) (hk : pixels.length ≤ k) : cell = none := by
  unfold ImgData.read at h
  split at h
  · cases h
    show (encodedImg W H pixels).file[1078 + k.toNat]? = none
    rw [encodedImg_file, List.getElem?_eq_none (by omega)]
  · cases h

/-- The image comes back as it was. -/
def RoundTrip (buff : ℤ → BYTE) (width height : ℤ) : Prop :=
  ∃ e, encode_bmp buff width height = some e ∧ readPixelData e.bytes = .ok {
    img_width := width
    img_height := height
    bitc := 8
    raw := (List.range (width * height).toNat).map fun i : ℕ => some (buff i) }

/-- The pixel is the first byte of its row, and the file has it. -/
theorem copyPixels_one (buff : ℤ → BYTE) :
    copyPixels (encodedImg 1 1 ((pixelIndices (1 : ℕ) (1 : ℕ)).map buff)) (getLineBytes (1 : ℕ) 8)
      (1 : ℕ) (1 : ℕ) (1 * 1) = .ok [some (buff 0)] := by
  have hpixels : (pixelIndices (1 : ℕ) (1 : ℕ)).map buff = [buff 0] := rfl
  have hidx : (rowAddr (getLineBytes (1 : ℕ) 8) (1 : ℕ) 0 : ℤ) + int32 0 = 0 := by decide
  have hsize : (encodedImg 1 1 [buff 0]).size = 4 := by
    show (getLineBytes (1 : ℕ) 8 * BitVec.ofInt 32 (1 : ℕ)).toNat = 4
    decide
  have hread : (encodedImg 1 1 [buff 0]).read 0 = .ok (some (buff 0)) := by
    unfold ImgData.read
    rw [if_pos (by rw [hsize]; decide)]
    show Except.ok ((encodedImg 1 1 [buff 0]).file[1078 + 0]?) = _
    rw [encodedImg_file]
    rfl
  simp only [hpixels, copyPixels, Int.toNat_natCast, List.range_one, List.foldlM_cons,
    List.foldlM_nil, Int.ofNat_zero, Int.zero_mul, hidx, hread, pushRaw]
  rfl

theorem roundTrip_one (buff : ℤ → BYTE) : RoundTrip buff (1 : ℕ) (1 : ℕ) := by
  refine ⟨_, encode_bmp_eq (by decide) buff, ?_⟩
  show readPixelData (_ ++ _ ++ _ ++ _) = _
  rw [readPixelData_encoded (by decide) (Nat.le_refl 1) (Nat.le_refl 1), copyPixels_one]
  rfl

/-- **The round trip.**  What `encode_bmp` makes of an image decodes to the image exactly where
the image has one pixel. -/
theorem bmpRoundTrip_iff (buff : ℤ → BYTE) {width height : ℤ} (hw : 1 ≤ width) (hh : 1 ≤ height)
    (hdom : width * height + 1078 < 2147483648) :
    RoundTrip buff width height ↔ width = 1 ∧ height = 1 := by
  obtain ⟨W, rfl⟩ := Int.eq_ofNat_of_zero_le (by omega : 0 ≤ width)
  obtain ⟨H, rfl⟩ := Int.eq_ofNat_of_zero_le (by omega : 0 ≤ height)
  have hp : ((W : ℤ) * H) = (W * H : ℕ) := (Int.natCast_mul W H).symm
  have hdom' : W * H + 1078 < 2147483648 := by omega
  have hW : 1 ≤ W := by omega
  have hH : 1 ≤ H := by omega
  constructor
  · rintro ⟨e, he, hd⟩
    by_contra hne
    obtain ⟨y, hy, x, hx, hk⟩ := exists_behind hW hH hdom' (by omega)
    rw [encode_bmp_eq hdom'] at he
    cases he
    rw [readPixelData_encoded hdom' hW hH] at hd
    cases hc : copyPixels (encodedImg W H ((pixelIndices W H).map buff)) (getLineBytes W 8) W H
        (W * H) with
    | error f =>
        rw [hc] at hd
        cases hd
    | ok raw =>
        rw [hc] at hd
        obtain ⟨cell, hcell, hr⟩ := read_of_copyPixels hc (y := y) (x := x) (by simpa) (by simpa)
        have hnone : cell = none := read_encodedImg hr (by simpa [pixelIndices_length] using hk)
        have hraw : raw = (List.range ((W : ℤ) * H).toNat).map fun i : ℕ => some (buff i) :=
          congrArg Decoded.raw (Except.ok.inj hd)
        rw [hraw, hnone, List.mem_map] at hcell
        obtain ⟨i, -, hi⟩ := hcell
        cases hi
  · rintro ⟨h1, h2⟩
    obtain rfl : W = 1 := by omega
    obtain rfl : H = 1 := by omega
    exact roundTrip_one buff

/-- Of an image whose pixels differ the first one comes back, and not the first two. -/
theorem bmpRoundTrip_iff_example :
    RoundTrip (fun i => UInt8.ofInt (i + 1)) 1 1 ∧ ¬ RoundTrip (fun i => UInt8.ofInt (i + 1)) 2 1 :=
  ⟨(bmpRoundTrip_iff _ (by decide) (by decide) (by decide)).mpr (by decide),
    fun h => absurd ((bmpRoundTrip_iff _ (by decide) (by decide) (by decide)).mp h) (by decide)⟩

/-- A row of two pixels: the second one is looked for in the fifth byte of four. -/
theorem not_bmpRoundTrip : ¬ ∀ (buff : ℤ → BYTE) (width height : ℤ), 1 ≤ width → 1 ≤ height →
    width * height + 1078 < 2147483648 → RoundTrip buff width height := by
  intro h
  obtain ⟨e, he, hd⟩ := h (fun _ => 7) 2 1 (by decide) (by decide) (by decide)
  have hfault : (encode_bmp (fun _ => 7) 2 1).map (fun e => readPixelData e.bytes) =
      some (.error .outOfBounds) := by decide +kernel
  rw [he, Option.map_some, hd] at hfault
  cases hfault

end NetworkStructure
