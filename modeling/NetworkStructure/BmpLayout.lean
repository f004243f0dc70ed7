import NetworkStructure.BmpRoundTrip

/-! # Where the encoders put the pixels

A BMP file stores its rows from the last one to the first, each padded to a multiple of four
bytes; `GetLineBytes` computes that length for the decoder.  The encoders `encode_bmp` and
`RawToBmp` write the rows in this order, but one directly after another, and compute `bfSize`
from `width * height`.  So the file has the layout that the decoder looks for exactly when there
is nothing to pad (`bmpLayout_iff`). -/

namespace NetworkStructure

/-! ### Lists in rows -/

section Rows

variable {α β : Type*} {f : α → List β} {n : ℕ}

/-- The entry in column `j` of row `i`, where all rows have the same length. -/
theorem getElem?_flatMap_of_length (hf : ∀ a, (f a).length = n) {j : ℕ} (hj : j < n) (l : List α)
    (i : ℕ) : (l.flatMap f)[i * n + j]? = l[i]?.bind fun a => (f a)[j]? := by
  induction l generalizing i with
  | nil => rfl
  | cons a l ih =>
      rw [List.flatMap_cons]
      cases i with
      | zero =>
          rw [Nat.zero_mul, Nat.zero_add, List.getElem?_append_left (by rw [hf]; exact hj)]
          rfl
      | succ i =>
          have hge : (f a).length ≤ (i + 1) * n + j := by
            rw [hf, Nat.succ_mul]
            omega
          have hsub : (i + 1) * n + j - (f a).length = i * n + j := by
            rw [hf, Nat.succ_mul]
            omega
          rw [List.getElem?_append_right hge, hsub, ih]
          rfl

end Rows

/-! ### What the encoders write -/

section Pixels

variable {W H : ℕ}

/-- The pixel `(x, y)` is written as the byte `x` of the row `H - 1 - y`. -/
theorem pixelIndices_getElem? {x y : ℕ} (hx : x < W) (hy : y < H) (hdom : W * H < 2147483648) :
    (pixelIndices W H)[(H - 1 - y) * W + x]? = some ((y * W + x : ℕ) : ℤ) := by
  have hlt : y * W + x < W * H := by
    have h : (y + 1) * W ≤ H * W := Nat.mul_le_mul_right W hy
    rw [Nat.succ_mul] at h
    rw [Nat.mul_comm W H]
    omega
  have hrow : int32 (int32 ((y : ℤ) * W) + x) = ((y * W + x : ℕ) : ℤ) := by
    rw [← Int.natCast_mul, int32_of_lt (x := ((y * W : ℕ) : ℤ)) (by omega) (by omega),
      int32_of_lt (by omega) (by omega), Int.natCast_add]
  unfold pixelIndices
  rw [Int.toNat_natCast, Int.toNat_natCast, getElem?_flatMap_of_length (by simp) hx,
    List.getElem?_reverse (by rw [List.length_range]; omega), List.length_range,
    List.getElem?_range (by omega), show H - 1 - (H - 1 - y) = y by omega, Option.bind_some,
    List.getElem?_map, List.getElem?_range hx, Option.map_some, hrow]

theorem rawToBmp_some (buff : ℤ → BYTE) (hdom : W * H + 1078 < 2147483648) :
    rawToBmp (some buff) true W H = encode_bmp buff W H := by
  have hmap : (pixelIndices W H).mapM (fun k => (some buff).map (· k)) =
      some ((pixelIndices W H).map buff) := List.mapM_pure
  unfold rawToBmp encode_bmp
  simp only [hmap, if_neg (bfSize_ne_zero hdom)]
  rfl

/-- With nothing to pad the length of a row is the width. -/
theorem getLineBytes_eq_iff (hW : 1 ≤ W) (hW' : W < 2147483648) :
    (getLineBytes W 8).toNat = W ↔ 4 ∣ W ∧ 8 * W + 31 < 2147483648 := by
  rcases Nat.lt_or_ge (8 * W + 31) 2147483648 with hlt | hge
  · rw [getLineBytes_of_lt hlt]
    omega
  · refine iff_of_false (fun h => ?_) fun h => absurd h.2 (Nat.not_lt.mpr hge)
    have hb : -2147483648 ≤ int32 (int32 ((W : ℤ) * 8) + 31) ∧
        int32 (int32 ((W : ℤ) * 8) + 31) < 2147483648 := by
      unfold int32
      omega
    unfold getLineBytes at h
    rw [if_neg (by decide), BitVec.toNat_ofInt] at h
    generalize int32 (int32 ((W : ℤ) * 8) + 31) = v at h hb
    have hd : -67108864 ≤ v.tdiv 32 ∧ v.tdiv 32 < 67108864 := by
      have hq := Int.mul_tdiv_add_tmod v 32
      have hlow := Int.lt_tmod_of_pos v (show (0 : ℤ) < 32 by decide)
      have hhigh := Int.tmod_lt_of_pos v (show (0 : ℤ) < 32 by decide)
      have hnonneg := fun h0 : 0 ≤ v => Int.tmod_nonneg 32 h0
      omega
    rw [int32_of_lt (by omega) (by omega)] at h
    omega

end Pixels

/-! ### The layout -/

/-- The file has its sizes in the header, and the pixel in the column `x` of the row `y` of the
image where the decoder's stride puts it. -/
structure BmpLayout (buff : ℤ → BYTE) (width height : ℕ) (e : Encoded)
    (bmfh : BITMAPFILEHEADER) : Prop where
  header : readFileHeader e.bytes = some bmfh
  bfSize : bmfh.bfSize.toNat = bmfh.bfOffBits.toNat + (getLineBytes width 8).toNat * height
  length : e.bytes.length = bmfh.bfOffBits.toNat + (getLineBytes width 8).toNat * height
  size : e.size = e.bytes.length
  pixel : ∀ x y : ℕ, x < width → y < height →
    e.bytes[bmfh.bfOffBits.toNat + (height - 1 - y) * (getLineBytes width 8).toNat + x]? =
      some (buff ((y * width + x : ℕ) : ℤ))

/-- What `encode_bmp` and `RawToBmp` write has the layout. -/
def LaidOut (buff : ℤ → BYTE) (width height : ℕ) : Prop :=
  (∃ e bmfh, encode_bmp buff width height = some e ∧ BmpLayout buff width height e bmfh) ∧
    ∃ e bmfh, rawToBmp (some buff) true width height = some e ∧
      BmpLayout buff width height e bmfh

section Layout

variable {buff : ℤ → BYTE} {W H : ℕ}

theorem bfOffBits_eq : (writeFileHeader W H).bfOffBits.toNat = 1078 := by
  show (BitVec.ofInt 32 (FILEHEADSIZE + INFOHEADSIZE + clr_table_size)).toNat = 1078
  decide

theorem encode_bmp_bytes {e : Encoded} (h : encode_bmp buff W H = some e) :
    e.bytes = (writeFileHeader W H).bytes ++ (writeInfoHeader W H).bytes ++ clr_table ++
      (pixelIndices W H).map buff := by
  unfold encode_bmp at h
  dsimp only at h
  split at h
  · exact absurd h.symm (Option.some_ne_none e)
  · exact (congrArg Encoded.bytes (Option.some.inj h)).symm

/-- The file is as long as the headers and one byte for each pixel. -/
theorem BmpLayout.getLineBytes_mul {e : Encoded} {bmfh : BITMAPFILEHEADER}
    (h : BmpLayout buff W H e bmfh) (he : encode_bmp buff W H = some e) :
    (getLineBytes W 8).toNat * H = W * H := by
  have hb := encode_bmp_bytes he
  have hheader := h.header
  rw [hb, List.append_assoc, List.append_assoc, readFileHeader_append] at hheader
  have hlen := h.length
  rw [hb, List.length_append, headers_length, List.length_map, pixelIndices_length,
    ← Option.some.inj hheader, bfOffBits_eq] at hlen
  omega

/-- With nothing to pad the file has the layout. -/
theorem bmpLayout_of_getLineBytes (hline : (getLineBytes W 8).toNat = W)
    (hdom : W * H + 1078 < 2147483648) :
    ∃ e bmfh, encode_bmp buff W H = some e ∧ BmpLayout buff W H e bmfh := by
  refine ⟨_, writeFileHeader W H, encode_bmp_eq hdom buff, ?_⟩
  have hoff : (writeFileHeader W H).bfOffBits.toNat = 1078 := bfOffBits_eq
  have hlen : ((writeFileHeader W H).bytes ++ (writeInfoHeader W H).bytes ++ clr_table ++
      (pixelIndices W H).map buff).length = 1078 + W * H := by
    rw [List.length_append, headers_length, List.length_map, pixelIndices_length]
  constructor
  case header => rw [List.append_assoc, List.append_assoc, readFileHeader_append]
  case bfSize => rw [hoff, hline, bfSize_eq hdom]
  case length => rw [hoff, hline, hlen]
  case size => rw [hlen]
  case pixel =>
      intro x y hx hy
      rw [hoff, hline, Nat.add_assoc]
      apply (encodedImg_file W H ((H - 1 - y) * W + x) ((pixelIndices W H).map buff)).trans
      rw [List.getElem?_map, pixelIndices_getElem? hx hy (by omega), Option.map_some]

/-- **Both encoders lay the image out as the decoder reads it exactly when the width is a multiple
of four**, and the bits of a row can be counted in an `int`. -/
theorem bmpLayout_iff (buff : ℤ → BYTE) {width height : ℕ} (hw : 1 ≤ width)
    (hwInt : width < 2147483648) (hh : 1 ≤ height)
    (hdom : (getLineBytes width 8).toNat * height + 1078 < 2147483648) :
    LaidOut buff width height ↔ 4 ∣ width ∧ 8 * width + 31 < 2147483648 := by
  rw [← getLineBytes_eq_iff hw hwInt]
  constructor
  · rintro ⟨⟨e, bmfh, he, hl⟩, -⟩
    exact Nat.eq_of_mul_eq_mul_right hh (hl.getLineBytes_mul he)
  · intro hline
    rw [hline] at hdom
    have h : ∃ e bmfh, encode_bmp buff width height = some e ∧
        BmpLayout buff width height e bmfh := bmpLayout_of_getLineBytes hline hdom
    refine ⟨h, ?_⟩
    rw [rawToBmp_some buff hdom]
    exact h

/-- Two rows of four pixels, of which no two are the same. -/
theorem bmpLayout_iff_example : LaidOut (fun i => UInt8.ofInt (i + 1)) 4 2 :=
  (bmpLayout_iff _ (by decide) (by decide) (by decide) (by decide)).mpr (by decide)

/-- Two rows of two pixels: the file ends after four bytes of them, and not after eight. -/
theorem not_bmpLayout : (getLineBytes (2 : ℕ) 8).toNat * 2 + 1078 < 2147483648 ∧
    ¬ LaidOut (fun _ => 7) 2 2 := by
  refine ⟨by decide, ?_⟩
  rintro ⟨⟨e, bmfh, he, hl⟩, -⟩
  exact absurd (hl.getLineBytes_mul he) (by decide)

end Layout
end NetworkStructure
