import Mathlib.Data.List.TakeWhile
import Mathlib.Tactic.Common
import NetworkStructure.ByteText

/-! # The frame of an image

`SendPgmImage` sends a header and an image.  The header is printed into a buffer with four dots
where the length of the frame belongs, and the length is put there afterwards, from the length of
the printed string.  This works because the length is taken before the patch, which may put a
zero byte into the string, and because the seven bytes in front of the text are taken off again.

A receiver that reads the length finds exactly one frame, whatever follows it on the stream, and
reads the coordinates and the comment back (`pgmFrame`). -/

namespace NetworkStructure

/-- The characters of a C string. -/
def cString (s : List UInt8) : List UInt8 := s.takeWhile (· ≠ 0)

def strlen (s : List UInt8) : ℕ := (cString s).length

/-- `LittleEndien4bytes(x, ptr)`: the bytes from `ptr` on. -/
def littleEndien4bytes (x : BitVec 32) (ptr : List UInt8) : List UInt8 :=
  UInt8.ofBitVec (x.setWidth 8) :: UInt8.ofBitVec ((x >>> 8).setWidth 8) ::
    UInt8.ofBitVec ((x >>> 8 >>> 8).setWidth 8) ::
    UInt8.ofBitVec ((x >>> 8 >>> 8 >>> 8).setWidth 8) :: ptr.drop 4

/-- `IMGSHP2P0L%dR%dB0T0M8D10S6F\\x1F%s\\x1d`. -/
def pgmText (X Y : ℤ) (comment : List UInt8) : List UInt8 :=
  ascii "IMGSHP2P0L".toList ++ decimal X ++ ascii "R".toList ++ decimal Y ++
    ascii "B0T0M8D10S6F".toList ++ [0x1F] ++ cString comment ++ [0x1D]

/-- What is printed, with dots in the place of the length. -/
def hdrText (X Y : ℤ) (comment : List UInt8) : List UInt8 :=
  [0x16, 0xFE] ++ ascii "....".toList ++ [0x0D] ++ pgmText X Y comment

/-- `sprintf` into `buf`; `none` where the buffer is too short. -/
def sprintf (buf text : List UInt8) : Option (List UInt8) :=
  if text.length < buf.length then some (text ++ 0 :: buf.drop (text.length + 1)) else none

/-- What `SendPgmHeader` passes to `SocketWrite`. -/
def sendPgmHeader (X Y size : ℤ) (comment : List UInt8) : Option (List UInt8) := do
  let hdr ← sprintf (List.replicate 2048 0) (hdrText X Y comment)
  let Size := BitVec.ofNat 32 (strlen hdr)
  let hdr := hdr.take 2 ++ littleEndien4bytes (Size - 7 + BitVec.ofInt 32 size) (hdr.drop 2)
  some (hdr.take Size.toNat)

/-- What `SendPgmImage` passes to `SocketWrite`, call by call. -/
def sendPgmImage (X Y size : ℤ) (img comment : List UInt8) : Option (List (List UInt8)) := do
  let hdr ← sendPgmHeader X Y size comment
  some [hdr, img.take size.toNat]

/-! ### The receiver -/

/-- The bytes of a frame, after its length has been read. -/
def readFrame : StateT (List UInt8) Option (List UInt8) := do
  readText [0x16, 0xFE]
  let n ← leRead 4
  readText [0x0D]
  readBytes n

/-- The coordinates and the comment; the image is what is left. -/
def readPgm : StateT (List UInt8) Option (ℤ × ℤ × List UInt8) := do
  readText (ascii "IMGSHP2P0L".toList)
  let X ← readDecimal
  readText (ascii "R".toList)
  let Y ← readDecimal
  readText (ascii "B0T0M8D10S6F".toList ++ [0x1F])
  let comment ← readUntil 0x1D
  return (X, Y, comment)

/-! ### The patch -/

theorem littleEndien4bytes_eq (x : BitVec 32) (ptr : List UInt8) :
    littleEndien4bytes x ptr = leBytes 4 x.toNat ++ ptr.drop 4 := by
  have hbyte : ∀ y : BitVec 32, UInt8.ofBitVec (y.setWidth 8) = UInt8.ofNat y.toNat := by
    intro y
    apply UInt8.toNat_inj.mp
    rw [UInt8.toNat_ofBitVec, BitVec.toNat_setWidth, UInt8.toNat_ofNat']
  have hshift : ∀ y : BitVec 32, (y >>> 8).toNat = y.toNat / 256 := by
    intro y
    rw [BitVec.toNat_ushiftRight, Nat.shiftRight_eq_div_pow]
  unfold littleEndien4bytes
  simp only [hbyte, hshift]
  rfl

theorem cString_of_not_mem {s : List UInt8} (h : 0 ∉ s) : cString s = s := by
  apply List.takeWhile_eq_self_iff.mpr
  intro b hb
  exact decide_eq_true fun he => h (he ▸ hb)

/-- No byte of the printed header is zero. -/
theorem zero_notMem_hdrText (X Y : ℤ) (comment : List UInt8) : 0 ∉ hdrText X Y comment := by
  have hc : 0 ∉ cString comment := by
    intro h
    have := List.mem_takeWhile_imp h
    exact absurd rfl (of_decide_eq_true this)
  have hX : 0 ∉ decimal X := fun h => ne_zero_of_mem_decimal h rfl
  have hY : 0 ∉ decimal Y := fun h => ne_zero_of_mem_decimal h rfl
  have ha : ∀ cs ∈ ["IMGSHP2P0L", "R", "B0T0M8D10S6F", "...."], 0 ∉ ascii cs.toList := by decide
  simp only [List.forall_mem_cons] at ha
  unfold hdrText pgmText
  simp only [List.mem_append, not_or]
  refine ⟨⟨⟨by decide, ha.2.2.2.1⟩, by decide⟩, ?_⟩
  exact ⟨⟨⟨⟨⟨⟨⟨ha.1, hX⟩, ha.2.1⟩, hY⟩, ha.2.2.1⟩, by decide⟩, hc⟩, by decide⟩

/-- The string ends where the printing ended. -/
theorem strlen_sprintf {buf text hdr : List UInt8} (h0 : 0 ∉ text)
    (h : sprintf buf text = some hdr) : strlen hdr = text.length := by
  unfold sprintf at h
  split at h
  · cases h
    have hall : ∀ b ∈ text, decide (b ≠ 0) = true :=
      fun b hb => decide_eq_true fun he => h0 (he ▸ hb)
    unfold strlen cString
    rw [List.takeWhile_append_of_pos hall, List.takeWhile_cons_of_neg (by simp), List.append_nil]
  · cases h

/-- A frame: its length, and as many bytes. -/
def pgmFrameBytes (payload : List UInt8) : List UInt8 :=
  [0x16, 0xFE] ++ leBytes 4 payload.length ++ [0x0D] ++ payload

section Frame

variable {X Y : ℤ} {img comment : List UInt8}

theorem hdrText_length : (hdrText X Y comment).length = 7 + (pgmText X Y comment).length := by
  unfold hdrText
  rw [List.length_append]
  rfl

/-- The length that is patched in. -/
theorem frameLength_eq {text size : ℕ} (h : text + size < 4294967296) :
    (BitVec.ofNat 32 (7 + text) - 7 + BitVec.ofInt 32 size).toNat = text + size := by
  have h7 : (7 : BitVec 32).toNat = 7 := rfl
  rw [BitVec.toNat_add, BitVec.toNat_sub, BitVec.toNat_ofNat, BitVec.toNat_ofInt, h7]
  omega

/-- The length takes the place of the dots. -/
theorem patch_hdrText (x : BitVec 32) (rest : List UInt8) :
    (hdrText X Y comment ++ rest).take 2 ++
        littleEndien4bytes x ((hdrText X Y comment ++ rest).drop 2) =
      [0x16, 0xFE] ++ leBytes 4 x.toNat ++ [0x0D] ++ pgmText X Y comment ++ rest := by
  have htake : (hdrText X Y comment ++ rest).take 2 = [0x16, 0xFE] := rfl
  have hdrop : ((hdrText X Y comment ++ rest).drop 2).drop 4 =
      [0x0D] ++ (pgmText X Y comment ++ rest) := by
    unfold hdrText
    rw [List.append_assoc]
    rfl
  rw [littleEndien4bytes_eq, htake, hdrop]
  simp only [List.append_assoc]

theorem sendPgmImage_of_header {size : ℤ} {hdr : List UInt8}
    (h : sendPgmHeader X Y size comment = some hdr) :
    sendPgmImage X Y size img comment = some [hdr, img.take size.toNat] := by
  unfold sendPgmImage
  rw [h]
  rfl

theorem sendPgmHeader_eq (size : ℤ) {hdr : List UInt8}
    (h : sprintf (List.replicate 2048 0) (hdrText X Y comment) = some hdr) :
    sendPgmHeader X Y size comment =
      some ((hdr.take 2 ++ littleEndien4bytes
        (BitVec.ofNat 32 (strlen hdr) - 7 + BitVec.ofInt 32 size) (hdr.drop 2)).take
          (BitVec.ofNat 32 (strlen hdr)).toNat) := by
  unfold sendPgmHeader
  rw [h]
  rfl

/-- **What is passed to the socket** is the frame of the text and the image. -/
theorem sendPgmImage_eq (hfit : (hdrText X Y comment).length < 2048)
    (htotal : (pgmText X Y comment).length + img.length < 4294967296) :
    ∃ calls, sendPgmImage X Y img.length img comment = some calls ∧
      calls.flatten = pgmFrameBytes (pgmText X Y comment ++ img) := by
  obtain ⟨hdr, hhdr⟩ : ∃ hdr, sprintf (List.replicate 2048 0) (hdrText X Y comment) = some hdr :=
    ⟨_, if_pos (by rwa [List.length_replicate])⟩
  have hstrlen := strlen_sprintf (zero_notMem_hdrText X Y comment) hhdr
  have hSize : (BitVec.ofNat 32 (strlen hdr)).toNat = 7 + (pgmText X Y comment).length := by
    rw [hstrlen, BitVec.toNat_ofNat, Nat.mod_eq_of_lt (by omega), hdrText_length]
  have hlen : (BitVec.ofNat 32 (strlen hdr) - 7 + BitVec.ofInt 32 img.length).toNat =
      (pgmText X Y comment ++ img).length := by
    rw [hstrlen, hdrText_length, frameLength_eq htotal, List.length_append]
  obtain ⟨rest, rfl⟩ : ∃ rest, hdr = hdrText X Y comment ++ rest := by
    unfold sprintf at hhdr
    split at hhdr
    · exact ⟨_, (Option.some.inj hhdr).symm⟩
    · cases hhdr
  refine ⟨[([0x16, 0xFE] ++ leBytes 4 (pgmText X Y comment ++ img).length ++ [0x0D] ++
    pgmText X Y comment), img], ?_, ?_⟩
  · have hheader := sendPgmHeader_eq img.length hhdr
    rw [patch_hdrText, hlen, hSize, List.take_left' ?_] at hheader
    · rw [sendPgmImage_of_header hheader, Int.toNat_natCast, List.take_length]
    · simp only [List.length_append, leBytes_length, List.length_cons, List.length_nil]
  · simp [pgmFrameBytes]

/-! ### What the receiver gets -/

/-- The length that is read ends the frame, whatever follows. -/
theorem readFrame_append {payload : List UInt8} (h : payload.length < 4294967296)
    (rest : List UInt8) :
    readFrame.run (pgmFrameBytes payload ++ rest) = some (payload, rest) := by
  have hlen := leRead_append (n := 4) h
  unfold readFrame pgmFrameBytes
  simp only [List.append_assoc, StateT.run_bind, readText_append, hlen, Option.bind_eq_bind,
    Option.bind_some, readBytes_append rfl]

/-- The coordinates and the comment, as far as it goes before the first 0x1D. -/
theorem readPgm_append {shown tail : List UInt8} (h : 0x1D ∉ shown)
    (hc : cString comment ++ [0x1D] = shown ++ 0x1D :: tail) :
    readPgm.run (pgmText X Y comment ++ img) = some ((X, Y, shown), tail ++ img) := by
  have hX : ∀ rest, readDecimal.run (decimal X ++ (ascii "R".toList ++ rest)) =
      some (X, ascii "R".toList ++ rest) :=
    fun rest => readDecimal_append X (b := 0x52) (by decide)
  have hY : ∀ rest, readDecimal.run (decimal Y ++ (ascii "B0T0M8D10S6F".toList ++ rest)) =
      some (Y, ascii "B0T0M8D10S6F".toList ++ rest) :=
    fun rest => readDecimal_append Y (b := 0x42) (by decide)
  have htext : pgmText X Y comment ++ img = ascii "IMGSHP2P0L".toList ++ (decimal X ++
      (ascii "R".toList ++ (decimal Y ++ (ascii "B0T0M8D10S6F".toList ++ ([0x1F] ++
        (shown ++ 0x1D :: (tail ++ img))))))) := by
    have hc' : cString comment ++ ([0x1D] ++ img) = shown ++ 0x1D :: (tail ++ img) := by
      rw [← List.append_assoc, hc, List.append_assoc, List.cons_append]
    unfold pgmText
    simp only [List.append_assoc]
    rw [hc']
  have hfixed : ∀ rest, (readText (ascii "B0T0M8D10S6F".toList ++ [0x1F])).run
      (ascii "B0T0M8D10S6F".toList ++ ([0x1F] ++ rest)) = some ((), rest) := by
    intro rest
    rw [← List.append_assoc]
    exact readText_append
  unfold readPgm
  simp only [htext, StateT.run_bind, readText_append, hX, hY, hfixed, readUntil_append h,
    Option.bind_eq_bind, Option.bind_some]
  rfl

end Frame

/-- **The frame of an image**: what is passed to the socket is 0x16, 0xFE, the length `n` in four
bytes, 0x0D and `n` bytes, the text and the image.  A receiver that reads the length consumes
exactly that, whatever follows, and gets the coordinates, and the comment if it has no 0x1D. -/
theorem pgmFrame (X Y : ℤ) (img comment : List UInt8) (hcomment : 0 ∉ comment)
    (hfit : (hdrText X Y comment).length < 2048)
    (htotal : (pgmText X Y comment).length + img.length < 2147483648) :
    ∃ calls, sendPgmImage X Y img.length img comment = some calls ∧
      calls.flatten = [0x16, 0xFE] ++ leBytes 4 ((pgmText X Y comment).length + img.length) ++
        [0x0D] ++ (pgmText X Y comment ++ img) ∧
      pgmText X Y comment = ascii "IMGSHP2P0L".toList ++ decimal X ++ ascii "R".toList ++
        decimal Y ++ ascii "B0T0M8D10S6F".toList ++ [0x1F] ++ comment ++ [0x1D] ∧
      (∀ rest, readFrame.run (calls.flatten ++ rest) =
        some (pgmText X Y comment ++ img, rest)) ∧
      ∃ shown image, readPgm.run (pgmText X Y comment ++ img) = some ((X, Y, shown), image) ∧
        (0x1D ∉ comment → shown = comment ∧ image = img) := by
  have htotal' : (pgmText X Y comment).length + img.length < 4294967296 := by omega
  obtain ⟨calls, hcalls, hbytes⟩ := sendPgmImage_eq hfit htotal'
  have hlen : (pgmText X Y comment ++ img).length < 4294967296 := by
    rw [List.length_append]
    omega
  refine ⟨calls, hcalls, ?_, ?_, ?_, ?_⟩
  · rw [hbytes, pgmFrameBytes, List.length_append]
  · rw [pgmText, cString_of_not_mem hcomment]
  · intro rest
    rw [hbytes, readFrame_append hlen]
  · by_cases hd : 0x1D ∈ comment
    · obtain ⟨shown, tail, hsplit, hshown⟩ := List.eq_append_cons_of_mem hd
      have hcut : cString comment ++ [0x1D] = shown ++ 0x1D :: (tail ++ [0x1D]) := by
        rw [cString_of_not_mem hcomment, hsplit, List.append_assoc, List.cons_append]
      exact ⟨shown, _, readPgm_append hshown hcut, fun h => absurd hd h⟩
    · refine ⟨comment, img, ?_, fun _ => ⟨rfl, rfl⟩⟩
      have hcut : cString comment ++ [0x1D] = comment ++ 0x1D :: [] := by
        rw [cString_of_not_mem hcomment]
      exact readPgm_append hd hcut

/-- An image of two bytes at `(-3, 7)`. -/
theorem pgmFrame_example : ∃ calls, sendPgmImage (-3) 7 2 [0, 0x1D] [0x23] = some calls ∧
    calls.flatten.length = 38 ∧
    readFrame.run (calls.flatten ++ [0x16]) =
      some (pgmText (-3) 7 [0x23] ++ [0, 0x1D], [0x16]) := by
  obtain ⟨calls, hcalls, hbytes, -, hread, -⟩ := pgmFrame (-3) 7 [0, 0x1D] [0x23] (by decide)
    (by decide) (by decide)
  refine ⟨calls, hcalls, ?_, hread [0x16]⟩
  rw [hbytes]
  decide

end NetworkStructure
