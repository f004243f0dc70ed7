import NetworkStructure.Framing
import NetworkStructure.PgmFrame

/-! # A stream of images

`SendPgmImage` is called for one image after another, and TCP does not keep the calls of `send(2)`
apart.  The frames are found again on the stream by their lengths, however it is cut when it is
received (`pgmStream`). -/

namespace NetworkStructure

/-- A reader of the front of a stream that does not look at what it leaves. -/
structure Steady {α : Type} (p : StateT (List UInt8) Option α) : Prop where
  append : ∀ {s a rest} (more : List UInt8), p.run s = some (a, rest) →
    p.run (s ++ more) = some (a, rest ++ more)
  length_le : ∀ {s a rest}, p.run s = some (a, rest) → rest.length ≤ s.length

section Steady

variable {α γ : Type} {p : StateT (List UInt8) Option α}

theorem Steady.bind {f : α → StateT (List UInt8) Option γ} (hp : Steady p)
    (hf : ∀ a, Steady (f a)) : Steady (p >>= f) where
  append more h := by
    obtain ⟨⟨a, mid⟩, ha, hb⟩ := Option.bind_eq_some_iff.mp h
    exact Option.bind_eq_some_iff.mpr ⟨_, hp.append more ha, (hf a).append more hb⟩
  length_le h := by
    obtain ⟨⟨a, mid⟩, ha, hb⟩ := Option.bind_eq_some_iff.mp h
    exact ((hf a).length_le hb).trans (hp.length_le ha)

/-- Fields of a fixed length. -/
theorem steady_take {n : ℕ} (g : List UInt8 → Option α)
    (hp : ∀ s, p.run s = if n ≤ s.length then (g (s.take n)).map fun a => (a, s.drop n) else none) :
    Steady p where
  append {s a rest} more h := by
    rw [hp] at h
    split at h
    · next hn =>
      obtain ⟨b, hb, he⟩ := Option.map_eq_some_iff.mp h
      cases he
      rw [hp, if_pos (by rw [List.length_append]; omega), List.take_append_of_le_length hn,
        List.drop_append_of_le_length hn, hb]
      rfl
    · cases h
  length_le {s a rest} h := by
    rw [hp] at h
    split at h
    · obtain ⟨b, hb, he⟩ := Option.map_eq_some_iff.mp h
      cases he
      rw [List.length_drop]
      omega
    · cases h

theorem steady_leRead (n : ℕ) : Steady (leRead n) :=
  steady_take (fun bs => some (leValue bs)) fun _ => rfl

theorem steady_readBytes (n : ℕ) : Steady (readBytes n) :=
  steady_take some fun _ => rfl

theorem readText_run (bs s : List UInt8) : (readText bs).run s =
    if s.take bs.length = bs then some ((), s.drop bs.length) else none := rfl

theorem steady_readText (bs : List UInt8) : Steady (readText bs) :=
  steady_take (n := bs.length) (fun cs => if cs = bs then some () else none) fun s => by
    rw [readText_run]
    by_cases hs : s.take bs.length = bs
    · have hlen := congrArg List.length hs
      rw [List.length_take] at hlen
      rw [if_pos hs, if_pos (by omega), if_pos hs]
      rfl
    · rw [if_neg hs, if_neg hs]
      split <;> rfl

theorem steady_readFrame : Steady readFrame :=
  (steady_readText _).bind fun _ => (steady_leRead 4).bind fun _ =>
    (steady_readText _).bind fun _ => steady_readBytes _

/-- A frame begins with two bytes at least. -/
theorem stable_readFrame : Stable readFrame.run where
  append := steady_readFrame.append
  shorter {s a rest} h := by
    obtain ⟨⟨_, mid⟩, hmid, hrest⟩ := Option.bind_eq_some_iff.mp h
    have hle : rest.length ≤ mid.length :=
      ((steady_leRead 4).bind fun n => (steady_readText [0x0D]).bind fun _ =>
        steady_readBytes n).length_le hrest
    have hmid : (readText [0x16, 0xFE]).run s = some ((), mid) := hmid
    rw [readText_run] at hmid
    split at hmid
    · next hs =>
      have hlen := congrArg List.length hs
      cases hmid
      rw [List.length_drop] at hle
      simp only [List.length_take, List.length_cons, List.length_nil] at hlen hle
      omega
    · cases hmid

end Steady

/-! ### The stream -/

/-- The arguments of a call of `SendPgmImage`, with as many bytes as `size` says. -/
structure PgmImage where
  X : ℤ
  Y : ℤ
  img : List UInt8
  comment : List UInt8
deriving DecidableEq, Repr

namespace PgmImage

variable (i : PgmImage)

def send : Option (List (List UInt8)) := sendPgmImage i.X i.Y i.img.length i.img i.comment

/-- The text and the image. -/
def payload : List UInt8 := pgmText i.X i.Y i.comment ++ i.img

/-- The header fits into its buffer, and the length into an `int`; the comment is a string and has
no delimiter in it. -/
structure Fits : Prop where
  header : (hdrText i.X i.Y i.comment).length < 2048
  length : i.payload.length < 2147483648
  string : 0 ∉ i.comment
  delimiter : 0x1D ∉ i.comment

variable {i}

theorem Fits.send (h : i.Fits) :
    ∃ calls, i.send = some calls ∧ calls.flatten = pgmFrameBytes i.payload := by
  have hlen := h.length
  rw [payload, List.length_append] at hlen
  exact sendPgmImage_eq h.header (by omega)

theorem Fits.readPgm (h : i.Fits) :
    NetworkStructure.readPgm.run i.payload = some ((i.X, i.Y, i.comment), i.img) := by
  have hcut : cString i.comment ++ [0x1D] = i.comment ++ 0x1D :: [] := by
    rw [cString_of_not_mem h.string]
  exact readPgm_append h.delimiter hcut

end PgmImage

/-- The calls for images that fit, one after another: their bytes are those of the frames. -/
theorem sendImages {images : List PgmImage} (h : ∀ i ∈ images, i.Fits) :
    ∃ calls, images.mapM PgmImage.send = some calls ∧
      calls.flatten.flatten = (images.map PgmImage.payload).flatMap pgmFrameBytes := by
  induction images with
  | nil => exact ⟨[], rfl, rfl⟩
  | cons i images ih =>
      rw [List.forall_mem_cons] at h
      obtain ⟨calls, hcalls, hbytes⟩ := ih h.2
      obtain ⟨call, hcall, hframe⟩ := h.1.send
      refine ⟨call :: calls, ?_, ?_⟩
      · rw [List.mapM_cons, hcall, hcalls]
        rfl
      · rw [List.flatten_cons, List.flatten_append, hframe, hbytes, List.map_cons,
          List.flatMap_cons]

/-- **A stream of images**: what is sent for any images that fit is received as these images,
however the stream is cut into pieces, with nothing left; and of the images a receiver has, after
some of the pieces, those that came first. -/
theorem pgmStream (images : List PgmImage) (h : ∀ i ∈ images, i.Fits) :
    ∃ calls, images.mapM PgmImage.send = some calls ∧
      ∀ pieces : List (List UInt8), pieces.flatten = calls.flatten.flatten →
        (receive readFrame.run pieces).2 = [] ∧
        (receive readFrame.run pieces).1.map readPgm.run =
          images.map (fun i => some ((i.X, i.Y, i.comment), i.img)) ∧
        ∀ n, (receive readFrame.run (pieces.take n)).1 <+: images.map PgmImage.payload := by
  obtain ⟨calls, hcalls, hbytes⟩ := sendImages h
  refine ⟨calls, hcalls, fun pieces hp => ?_⟩
  have hread : ∀ b ∈ images.map PgmImage.payload, ∀ rest,
      readFrame.run (pgmFrameBytes b ++ rest) = some (b, rest) := by
    intro b hb rest
    obtain ⟨i, hi, rfl⟩ := List.mem_map.mp hb
    exact readFrame_append (Nat.lt_trans (h i hi).length (by decide)) rest
  have hall : receive readFrame.run pieces = (images.map PgmImage.payload, []) := by
    rw [stable_readFrame.receive_eq, hp, hbytes]
    simpa using stable_readFrame.readFrames_flatMap hread [] rfl
  refine ⟨by rw [hall], ?_, fun n => ?_⟩
  · rw [hall, List.map_map]
    exact List.map_congr_left fun i hi => (h i hi).readPgm
  · have hpre := stable_readFrame.receive_prefix (pieces.take n) (pieces.drop n)
    rwa [List.take_append_drop, hall] at hpre

def twoImages : List PgmImage := [⟨-3, 7, [0, 0x16, 0xFE], [0x23]⟩, ⟨0, 0, [], []⟩]

/-- Two images, of which the second one is empty; the pieces are the calls, then single bytes. -/
theorem pgmStream_two : ∃ calls, twoImages.mapM PgmImage.send = some calls ∧
    (receive readFrame.run calls.flatten).2 = [] ∧
    (receive readFrame.run (calls.flatten.flatten.map ([·]))).1.map readPgm.run =
      [some ((-3, 7, [0x23]), [0, 0x16, 0xFE]), some ((0, 0, []), [])] := by
  obtain ⟨calls, hcalls, h⟩ := pgmStream twoImages (by
    unfold twoImages
    rw [List.forall_mem_cons, List.forall_mem_singleton]
    exact ⟨⟨by decide, by decide, by decide, by decide⟩,
      ⟨by decide, by decide, by decide, by decide⟩⟩)
  refine ⟨calls, hcalls, (h calls.flatten rfl).1,
    (h (calls.flatten.flatten.map ([·])) ?_).2.1⟩
  rw [← List.flatMap_def, List.flatMap_singleton']

end NetworkStructure
