import NetworkStructure.BmpLayout
import NetworkStructure.OutBuffer

/-! # The encoders in memory

`encode_bmp` allocates `bfSize` bytes and returns them; `RawToBmp` writes to memory that the
caller gives it.  Both copy the headers and the colour table, and then the pixels one by one,
through a pointer that moves on.  Here these writes, and the reads of the image, are modelled one
by one.  Both encoders write what `encode_bmp` and `rawToBmp` of the model say
(`encode_bmp_eq_putAll`, `RawToBmp_eq_putAll`).

So there is room for what `encode_bmp` writes, and `*size` tells how much it is, exactly as long as
the number of bytes is an `int` (`bmpAllocation_iff`): `bfSize` is computed modulo 2^32.  And then
the two encoders agree (`encodersAgree`). -/

namespace NetworkStructure
namespace BmpWriter

/-! ### The writers -/

/-- The two loops; `pixel` reads from the image. -/
def putPixels (pixel : ℤ → Option BYTE) (width height : ℤ) (bmp_ptr : OutBuffer BYTE) :
    Option (OutBuffer BYTE) :=
  (List.range height.toNat).reverse.foldlM (fun bmp_ptr (i : ℕ) =>
    let curr_line_addr := int32 (i * width)
    (List.range width.toNat).foldlM (fun bmp_ptr (j : ℕ) =>
      pixel (int32 (curr_line_addr + j)) >>= bmp_ptr.put) bmp_ptr) bmp_ptr

/-- `*size` or the value returned, and the memory with the pointer at the end. -/
structure Written where
  size : ℤ
  bmp_ptr : OutBuffer BYTE

/-- `none` where the pointer is used and was never set, or memory is accessed that is not there. -/
def encode_bmp (buff : ℤ → Option Int8) (width height : ℤ) : Option Written :=
  let bmfh := writeFileHeader width height
  let bmih := writeInfoHeader width height
  if bmfh.bfSize = 0 then none
  else do
    let bmp_ptr : OutBuffer BYTE := { cells := List.replicate bmfh.bfSize.toNat none }
    let bmp_ptr ← bmp_ptr.putAll bmfh.bytes
    let bmp_ptr ← bmp_ptr.putAll bmih.bytes
    let bmp_ptr ← bmp_ptr.putAll clr_table
    let bmp_ptr ← putPixels (fun k => (buff k).map Int8.toUInt8) width height bmp_ptr
    some { size := int32 bmfh.bfSize.toNat, bmp_ptr }

/-- A null pointer is `none`; only where both are is this noticed. -/
def RawToBmp (pIn : Option (ℤ → Option BYTE)) (pOut : Option (List (Option BYTE)))
    (width height : ℤ) : Option Written :=
  match pIn, pOut with
  | none, none => some { size := -1, bmp_ptr := { cells := [] } }
  | some _, none => none
  | pIn, some cells => do
      let bmfh := writeFileHeader width height
      let bmih := writeInfoHeader width height
      let bmp_ptr : OutBuffer BYTE := { cells }
      let bmp_ptr ← bmp_ptr.putAll bmfh.bytes
      let bmp_ptr ← bmp_ptr.putAll bmih.bytes
      let bmp_ptr ← bmp_ptr.putAll clr_table
      let bmp_ptr ← putPixels (fun k => pIn.bind (· k)) width height bmp_ptr
      some { size := if bmfh.bfSize = 0 then 0 else int32 bmfh.bfSize.toNat, bmp_ptr }

/-! ### What they write -/

section Writers

variable (width height : ℤ) {pixel : ℤ → Option BYTE} {buff : ℤ → BYTE}

theorem putPixels_eq (pixel : ℤ → Option BYTE) (bmp_ptr : OutBuffer BYTE) :
    putPixels pixel width height bmp_ptr =
      (pixelIndices width height).mapM pixel >>= bmp_ptr.putAll := by
  rw [← OutBuffer.foldlM_read]
  unfold pixelIndices putPixels
  rw [← OutBuffer.foldlM_rows]
  simp only [List.foldlM_map]

theorem mapM_eq_some {ι α : Type} {f : ι → Option α} {g : ι → α} {ks : List ι}
    (h : ∀ k ∈ ks, f k = some (g k)) : ks.mapM f = some (ks.map g) := by
  induction ks with
  | nil => rfl
  | cons k ks ih =>
      rw [List.forall_mem_cons] at h
      rw [List.mapM_cons, h.1, ih h.2]
      rfl

/-- Where the image can be read, a writer puts the headers, the table and the pixels. -/
theorem putHeaders (h : ∀ k ∈ pixelIndices width height, pixel k = some (buff k))
    (bmp_ptr : OutBuffer BYTE) (bmfh bmih table : List BYTE) (size : ℤ) :
    (do
      let bmp_ptr ← bmp_ptr.putAll bmfh
      let bmp_ptr ← bmp_ptr.putAll bmih
      let bmp_ptr ← bmp_ptr.putAll table
      let bmp_ptr ← putPixels pixel width height bmp_ptr
      some { size, bmp_ptr : Written }) =
    (bmp_ptr.putAll (bmfh ++ bmih ++ table ++ (pixelIndices width height).map buff)).map
      fun bmp_ptr => { size, bmp_ptr : Written } := by
  simp only [putPixels_eq, mapM_eq_some h, OutBuffer.putAll_append, Option.bind_eq_bind,
    Option.bind_some, Option.bind_assoc, Option.map_eq_bind]
  rfl

theorem encode_bmp_eq_putAll {chars : ℤ → Option Int8}
    (h : ∀ k ∈ pixelIndices width height, (chars k).map Int8.toUInt8 = some (buff k)) :
    encode_bmp chars width height =
      (NetworkStructure.encode_bmp buff width height).bind fun e =>
        (OutBuffer.putAll
          { cells := List.replicate (writeFileHeader width height).bfSize.toNat none } e.bytes).map
            fun bmp_ptr => { size := e.size, bmp_ptr } := by
  unfold encode_bmp NetworkStructure.encode_bmp
  dsimp only
  split
  · rfl
  · exact putHeaders width height h _ _ _ _ _

theorem RawToBmp_eq_putAll (h : ∀ k ∈ pixelIndices width height, pixel k = some (buff k))
    (cells : List (Option BYTE)) :
    RawToBmp (some pixel) (some cells) width height =
      (rawToBmp (some buff) true width height).bind fun e =>
        (OutBuffer.putAll { cells } e.bytes).map fun bmp_ptr => { size := e.size, bmp_ptr } := by
  have hmap : (pixelIndices width height).mapM (fun k => (some buff).map (· k)) =
      some ((pixelIndices width height).map buff) := mapM_eq_some fun _ _ => rfl
  unfold RawToBmp rawToBmp
  simp only [hmap, Option.bind_eq_bind, Option.bind_some]
  exact putHeaders width height h _ _ _ _ _

end Writers
end BmpWriter

/-! ### The allocation -/

section Allocation

variable {W H : ℕ}

/-- `bfSize` without a bound on the image. -/
theorem bfSize_toNat (W H : ℕ) :
    (writeFileHeader W H).bfSize.toNat = (1078 + W * H) % 4294967296 := by
  show (BitVec.ofInt 32 (FILEHEADSIZE + INFOHEADSIZE + clr_table_size + int32 (W * H))).toNat = _
  unfold FILEHEADSIZE INFOHEADSIZE clr_table_size int32
  rw [BitVec.toNat_ofInt, ← Int.natCast_mul]
  omega

/-- One byte for each pixel, behind the headers and the table. -/
theorem encode_bmp_bytes_length {buff : ℤ → BYTE} {e : Encoded}
    (h : encode_bmp buff W H = some e) : e.bytes.length = 1078 + W * H := by
  rw [encode_bmp_bytes h, List.length_append, headers_length, List.length_map,
    pixelIndices_length]

theorem encode_bmp_of_bfSize (h : (writeFileHeader W H).bfSize ≠ 0) (buff : ℤ → BYTE) :
    ∃ e, encode_bmp buff W H = some e ∧ e.size = int32 (writeFileHeader W H).bfSize.toNat := by
  unfold encode_bmp
  rw [if_neg h]
  exact ⟨_, rfl, rfl⟩

/-- `encode_bmp` writes inside of what it has allocated, and `*size` is the number of bytes that it
has written. -/
def Allocated (buff : ℤ → Int8) (width height : ℕ) : Prop :=
  ∃ w, BmpWriter.encode_bmp (fun k => some (buff k)) width height = some w ∧
    w.size = w.bmp_ptr.pos

/-- All of the writes go well if they fit into the allocation. -/
theorem encode_bmp_written (buff : ℤ → Int8) (hret : (writeFileHeader W H).bfSize ≠ 0) :
    ∃ bytes : List BYTE, bytes.length = 1078 + W * H ∧
      BmpWriter.encode_bmp (fun k => some (buff k)) W H =
        if 0 + bytes.length ≤ (writeFileHeader W H).bfSize.toNat then
          some {
            size := int32 (writeFileHeader W H).bfSize.toNat
            bmp_ptr := OutBuffer.filled
              { cells := List.replicate (writeFileHeader W H).bfSize.toNat none } bytes }
        else none := by
  obtain ⟨e, he, hsize⟩ := encode_bmp_of_bfSize hret fun k => (buff k).toUInt8
  refine ⟨e.bytes, encode_bmp_bytes_length he, ?_⟩
  have hchars : ∀ k ∈ pixelIndices W H,
      (some (buff k)).map Int8.toUInt8 = some (buff k).toUInt8 := fun k _ => rfl
  have hputs := BmpWriter.encode_bmp_eq_putAll (W : ℤ) H hchars
  rw [hputs, he, Option.bind_some, OutBuffer.putAll_eq (Nat.zero_le _), List.length_replicate,
    hsize]
  split <;> rfl

theorem Allocated.lt {buff : ℤ → Int8} (h : Allocated buff W H)
    (hret : (writeFileHeader W H).bfSize ≠ 0) : W * H + 1078 < 2147483648 := by
  obtain ⟨bytes, hlen, hwritten⟩ := encode_bmp_written buff hret
  obtain ⟨w, hw, hpos⟩ := h
  have hb := bfSize_toNat W H
  rw [hwritten] at hw
  generalize (writeFileHeader W H).bfSize.toNat = n at hw hb
  split at hw
  · next hfits =>
    obtain rfl := Option.some.inj hw
    have hend : int32 n = ((0 + bytes.length : ℕ) : ℤ) := hpos
    unfold int32 at hend
    omega
  · cases hw

/-- **The allocation suffices exactly where the number of bytes is an `int`.** -/
theorem bmpAllocation_iff (buff : ℤ → Int8) {width height : ℕ}
    (hret : (writeFileHeader width height).bfSize ≠ 0) :
    Allocated buff width height ↔ width * height + 1078 < 2147483648 := by
  constructor
  · intro h
    exact h.lt hret
  · intro hdom
    obtain ⟨bytes, hlen, hwritten⟩ := encode_bmp_written buff hret
    have hb : (writeFileHeader width height).bfSize.toNat = 0 + bytes.length := by
      rw [bfSize_toNat]
      omega
    unfold Allocated
    rw [hwritten, hb, if_pos (Nat.le_refl _)]
    refine ⟨_, rfl, ?_⟩
    apply int32_of_lt
    · omega
    · omega

/-- Two pixels. -/
theorem bmpAllocation_iff_example : Allocated (fun _ => 7) 2 1 :=
  (bmpAllocation_iff (fun _ => 7) (by decide)).mpr (by decide)

/-- With 65536 rows of 65536 pixels `bfSize` is that of a file without any. -/
theorem not_bmpAllocation : (writeFileHeader (65536 : ℕ) (65536 : ℕ)).bfSize = 1078 ∧
    ¬ Allocated (fun _ => 7) 65536 65536 := by
  refine ⟨by decide, fun h => ?_⟩
  exact absurd (h.lt (by decide)) (by decide)

end Allocation

/-! ### Two encoders -/

/-- `image[k]`. -/
def readAt (image : List BYTE) (k : ℤ) : Option BYTE :=
  if 0 ≤ k then image[k.toNat]? else none

/-- What `encode_bmp` has left, `e`, and what `RawToBmp` has left in the memory `pOut`, `r`, are
the same. -/
structure SameFile (pOut : List (Option BYTE)) (e r : BmpWriter.Written) : Prop where
  size : r.size = e.size
  count : (r.bmp_ptr.pos : ℤ) = r.size
  bytes : r.bmp_ptr.cells.take r.bmp_ptr.pos = e.bmp_ptr.cells
  written : none ∉ e.bmp_ptr.cells
  rest : r.bmp_ptr.cells.drop r.bmp_ptr.pos = pOut.drop r.bmp_ptr.pos

section Encoders

variable {W H : ℕ}

/-- Every index that is read is in the image. -/
theorem pixelIndices_mem (hdom : W * H < 2147483648) {k : ℤ} (h : k ∈ pixelIndices W H) :
    0 ≤ k ∧ k < (W * H : ℕ) := by
  obtain ⟨i, hi, hk⟩ := List.mem_flatMap.mp h
  obtain ⟨j, hj, rfl⟩ := List.mem_map.mp hk
  rw [List.mem_reverse, List.mem_range, Int.toNat_natCast] at hi
  rw [List.mem_range, Int.toNat_natCast] at hj
  have hrow : (i + 1) * W ≤ H * W := Nat.mul_le_mul_right W hi
  rw [Nat.succ_mul, Nat.mul_comm H W] at hrow
  rw [← Int.natCast_mul, int32_of_lt (x := ((i * W : ℕ) : ℤ)) (by omega) (by omega),
    int32_of_lt (by omega) (by omega)]
  omega

theorem readAt_of_mem {image : List BYTE} (hlen : image.length = W * H)
    (hdom : W * H < 2147483648) {k : ℤ} (h : k ∈ pixelIndices W H) :
    readAt image k = some (image.getD k.toNat 0) := by
  obtain ⟨h0, hlt⟩ := pixelIndices_mem hdom h
  unfold readAt
  rw [if_pos h0, List.getD_eq_getElem?_getD, List.getElem?_eq_getElem (by omega)]
  rfl

/-- **The encoders agree**: on every image with room for its file in an `int`, and for every memory
that has the room. -/
theorem encodersAgree {width height : ℕ} {image : List BYTE} {pOut : List (Option BYTE)}
    (himage : image.length = width * height) (hdom : width * height + 1078 < 2147483648)
    (hout : width * height + 1078 ≤ pOut.length) :
    (∃ e r,
        BmpWriter.encode_bmp (fun k => (readAt image k).map UInt8.toInt8) width height = some e ∧
        BmpWriter.RawToBmp (some (readAt image)) (some pOut) width height = some r ∧
        SameFile pOut e r) ∧
      ∀ k ∈ pixelIndices width height, 0 ≤ k ∧ k < (width * height : ℕ) := by
  refine ⟨?_, fun k hk => pixelIndices_mem (by omega) hk⟩
  have hread : ∀ k ∈ pixelIndices width height, readAt image k = some (image.getD k.toNat 0) :=
    fun k hk => readAt_of_mem himage (by omega) hk
  have hchars : ∀ k ∈ pixelIndices width height,
      ((readAt image k).map UInt8.toInt8).map Int8.toUInt8 = some (image.getD k.toNat 0) := by
    intro k hk
    rw [hread k hk]
    rfl
  obtain ⟨e, he, hsize⟩ : ∃ e, encode_bmp (fun k => image.getD k.toNat 0) width height = some e ∧
      e.size = ((1078 + width * height : ℕ) : ℤ) := ⟨_, encode_bmp_eq hdom _, rfl⟩
  have hlen := encode_bmp_bytes_length he
  have hencode := BmpWriter.encode_bmp_eq_putAll (width : ℤ) height hchars
  have hraw := BmpWriter.RawToBmp_eq_putAll (width : ℤ) height hread pOut
  rw [he, Option.bind_some, bfSize_eq hdom,
    OutBuffer.putAll_start (by rw [hlen, List.length_replicate])] at hencode
  rw [rawToBmp_some _ hdom, he, Option.bind_some, OutBuffer.putAll_start (by omega)] at hraw
  have hnil : (List.replicate (1078 + width * height) (none : Option BYTE)).drop e.bytes.length =
      [] := List.drop_of_length_le (by rw [List.length_replicate, hlen])
  refine ⟨_, _, hencode, hraw, ?_⟩
  constructor
  case size => rfl
  case count =>
      dsimp only
      rw [hlen, hsize]
  case bytes =>
      dsimp only
      rw [hnil, List.append_nil, List.take_left' (by rw [List.length_map])]
  case written =>
      dsimp only
      rw [hnil, List.append_nil]
      simp
  case rest =>
      dsimp only
      rw [List.drop_left' (by rw [List.length_map])]

/-- Two pixels, and memory for one byte more than the file has. -/
theorem encodersAgree_example : ∃ e r,
    BmpWriter.encode_bmp (fun k => (readAt [7, 200] k).map UInt8.toInt8) (2 : ℕ) (1 : ℕ) = some e ∧
      BmpWriter.RawToBmp (some (readAt [7, 200])) (some (List.replicate 1081 none)) (2 : ℕ)
        (1 : ℕ) = some r ∧ SameFile (List.replicate 1081 none) e r :=
  (@encodersAgree 2 1 [7, 200] (List.replicate 1081 none) rfl (by decide)
    (by rw [List.length_replicate]; decide)).1

end Encoders
end NetworkStructure
