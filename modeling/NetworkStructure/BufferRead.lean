import NetworkStructure.BufferCalls

/-! # Reading from a socket into a Buffer

`readFd` reads with one call into two pieces of memory: the writable bytes of the buffer and, where
these are fewer, 65536 bytes on the stack, from which what did not fit is appended.  The kernel
fills the pieces in their order with the first bytes that wait on the socket; how many it hands
over is its answer, an input here.

No byte is lost, changed or moved in front of another, wherever a read ends and whatever is taken
out of the buffer in between (`incoming`), and a read always finds room for 65536 bytes, so that so
many calls as the waiting bytes have pieces of this size empty the socket (`reads_drain`). -/

namespace NetworkStructure

/-- `sizeof extrabuf`. -/
def sizeofExtrabuf : ℕ := 65536

namespace Buffer

variable {b : Buffer}

/-- What the pieces of memory hold together that are passed to `readv`. -/
def readRoom (b : Buffer) : ℕ :=
  if b.writableBytes < sizeofExtrabuf then b.writableBytes + sizeofExtrabuf else b.writableBytes

/-- `writerIndex_ = writerIndex`. -/
def setWriterIndex (b : Buffer) (writerIndex : ℕ) (h : b.writerIndex_ ≤ writerIndex)
    (hs : writerIndex ≤ b.buffer_.length) : Buffer :=
  { b with
    writerIndex_ := writerIndex
    reader_le_writer := Nat.le_trans b.reader_le_writer h
    writer_le_size := hs }

/-- The first piece of memory is filled, and the writer index moved behind what is new. -/
def fill (b : Buffer) (data : List UInt8) : Buffer :=
  (Asserted.copy b b.writerIndex_ data).setWriterIndex (b.writerIndex_ + data.length)
    (Nat.le_add_right ..) (add_length_le_copyTo b.writer_le_size)

/-- `readFd`, where `readv` hands over `data`; an assertion of `append` can fail. -/
def readFd (b : Buffer) (data : List UInt8) : Option Buffer :=
  if data.length ≤ b.writableBytes then some (b.fill data)
  else
    -- `writerIndex_ = buffer_.size()`: the first piece is full
    Asserted.append (b.fill (data.take b.writableBytes)) (data.drop b.writableBytes)

theorem readable_fill (b : Buffer) (data : List UInt8) :
    (b.fill data).readable = b.readable ++ data :=
  span_copyTo b.reader_le_writer b.writer_le_size

/-- **No assertion fails in `readFd`**, and what is read is added at the end. -/
theorem readFd_spec (b : Buffer) (data : List UInt8) :
    ∃ m, b.readFd data = some m ∧ m.readable = b.readable ++ data := by
  unfold readFd
  split
  · exact ⟨_, rfl, readable_fill b data⟩
  · refine ⟨_, Asserted.append_eq _ _, ?_⟩
    rw [readable_append, readable_fill, List.append_assoc, List.take_append_drop]

/-- At least `sizeofExtrabuf` bytes can be read, and where the stack is used not twice as many. -/
theorem readRoom_bounds (b : Buffer) : sizeofExtrabuf ≤ b.readRoom ∧
    (b.writableBytes < sizeofExtrabuf → b.readRoom < 2 * sizeofExtrabuf) := by
  unfold readRoom
  split
  · next h =>
    refine ⟨Nat.le_add_left .., fun _ => ?_⟩
    omega
  · next h => exact ⟨Nat.le_of_not_lt h, fun hlt => absurd hlt h⟩

end Buffer

/-! ### A reader -/

/-- A buffer that is filled from a socket. -/
structure SocketReader where
  inputBuffer : Buffer
  /-- The bytes that wait on the socket. -/
  waiting : List UInt8 := []
  /-- All that has come in on the socket. -/
  arrived : List UInt8 := []
  /-- All that has been taken out of the buffer. -/
  taken : List UInt8 := []

inductive ReaderStep where
  /-- Bytes come in from the peer. -/
  | arrive (data : List UInt8)
  /-- `readFd`, where the kernel would hand over `n` bytes if there are so many and they fit;
  `none` is `-1`. -/
  | readFd (n : Option ℕ)
  | retrieveAsString (len : ℕ)
  | retrieveAllAsString
deriving DecidableEq

namespace SocketReader

variable {s t : SocketReader}

def new (initialSize : ℕ) : SocketReader where
  inputBuffer := .new initialSize

/-- What `readv` hands over. -/
def readv (s : SocketReader) (n : ℕ) : List UInt8 :=
  s.waiting.take (min n s.inputBuffer.readRoom)

def readFd (s : SocketReader) (n : ℕ) : Option SocketReader :=
  (s.inputBuffer.readFd (s.readv n)).map fun b =>
    { s with inputBuffer := b, waiting := s.waiting.drop (s.readv n).length }

/-- What has been retrieved is taken out. -/
def take (s : SocketReader) (r : List UInt8 × Buffer) : SocketReader :=
  { s with inputBuffer := r.2, taken := s.taken ++ r.1 }

def step (s : SocketReader) : ReaderStep → Option SocketReader
  | .arrive data => some { s with waiting := s.waiting ++ data, arrived := s.arrived ++ data }
  | .readFd none => some s
  | .readFd (some n) => s.readFd n
  | .retrieveAsString len => (s.inputBuffer.retrieveAsString len).map s.take
  | .retrieveAllAsString => s.inputBuffer.retrieveAllAsString.map s.take

def run (s : SocketReader) : List ReaderStep → Option SocketReader
  | [] => some s
  | e :: es => (s.step e).bind fun t => t.run es

/-- What has been taken out, what is in the buffer and what waits are what has come in. -/
def InOrder (s : SocketReader) : Prop :=
  s.taken ++ s.inputBuffer.readable ++ s.waiting = s.arrived

theorem readFd_spec (s : SocketReader) (n : ℕ) :
    ∃ b, s.readFd n = some { s with
        inputBuffer := b, waiting := s.waiting.drop (s.readv n).length } ∧
      b.readable = s.inputBuffer.readable ++ s.readv n := by
  obtain ⟨b, hb, hr⟩ := s.inputBuffer.readFd_spec (s.readv n)
  exact ⟨b, by rw [readFd, hb, Option.map_some], hr⟩

/-- What is handed over and what still waits are what has waited. -/
theorem readv_append (s : SocketReader) (n : ℕ) :
    s.readv n ++ s.waiting.drop (s.readv n).length = s.waiting := by
  have h : s.readv n <+: s.waiting := List.take_prefix ..
  obtain ⟨rest, hrest⟩ := h
  conv_lhs => rw [← hrest]
  conv_rhs => rw [← hrest]
  rw [List.drop_left]

theorem InOrder.readFd {n : ℕ} (hs : s.InOrder) : ∃ t, s.readFd n = some t ∧ t.InOrder := by
  obtain ⟨b, hb, hr⟩ := s.readFd_spec n
  refine ⟨_, hb, ?_⟩
  show s.taken ++ b.readable ++ s.waiting.drop (s.readv n).length = s.arrived
  rw [hr, ← hs, List.append_assoc s.taken, List.append_assoc (s.inputBuffer.readable),
    readv_append, List.append_assoc]

/-- The bytes retrieved were the first in the buffer. -/
theorem retrieveAsString_readable {b m : Buffer} {len : ℕ} {str : List UInt8}
    (h : b.retrieveAsString len = some (str, m)) : str ++ m.readable = b.readable := by
  have hf := (Buffer.retrieveAsString_follows b len).answer
  rw [h, ByteQueue.takeOff] at hf
  split at hf
  · obtain ⟨hstr, hm⟩ := Prod.mk.inj (Option.some.inj hf)
    have hs : str = b.readable.take len := BufferAnswer.string.inj hstr
    have hd : m.readable = b.readable.drop len := hm
    rw [hs, hd, List.take_append_drop]
  · cases hf

theorem InOrder.take {r : List UInt8 × Buffer} (hs : s.InOrder)
    (hr : r.1 ++ r.2.readable = s.inputBuffer.readable) : (s.take r).InOrder := by
  show s.taken ++ r.1 ++ r.2.readable ++ s.waiting = s.arrived
  rw [List.append_assoc s.taken, hr]
  exact hs

theorem InOrder.step {e : ReaderStep} (hs : s.InOrder) (h : s.step e = some t) : t.InOrder := by
  cases e with
  | arrive data =>
      cases h
      show s.taken ++ s.inputBuffer.readable ++ (s.waiting ++ data) = s.arrived ++ data
      rw [← List.append_assoc, hs]
  | readFd n =>
      cases n with
      | none => exact Option.some.inj h ▸ hs
      | some n =>
          obtain ⟨t', ht', hin⟩ := hs.readFd (n := n)
          exact Option.some.inj (ht'.symm.trans h) ▸ hin
  | retrieveAsString len | retrieveAllAsString =>
      obtain ⟨r, hr, rfl⟩ := Option.map_eq_some_iff.mp h
      exact hs.take (retrieveAsString_readable hr)

theorem InOrder.run {es : List ReaderStep} (hs : s.InOrder) (h : s.run es = some t) :
    t.InOrder := by
  induction es generalizing s with
  | nil => exact Option.some.inj h ▸ hs
  | cons e es ih =>
      obtain ⟨u, hu, hrest⟩ := Option.bind_eq_some_iff.mp h
      exact ih (hs.step hu) hrest

/-- A read for which the kernel has as much as it is asked for. -/
theorem waiting_readFd {n : ℕ} (hn : s.waiting.length ≤ n) (h : s.readFd n = some t) :
    t.waiting.length ≤ s.waiting.length - sizeofExtrabuf ∧ t.arrived = s.arrived := by
  obtain ⟨b, hb, -⟩ := s.readFd_spec n
  rw [hb] at h
  cases h
  refine ⟨?_, rfl⟩
  have hroom := s.inputBuffer.readRoom_bounds.1
  rw [List.length_drop, readv, List.length_take]
  omega

/-- Each of the reads takes its piece off the socket. -/
theorem waiting_reads {ns : List ℕ} (hn : ∀ n ∈ ns, s.waiting.length ≤ n) (hs : s.InOrder) :
    ∃ t, s.run (ns.map fun n => .readFd (some n)) = some t ∧ t.InOrder ∧
      t.arrived = s.arrived ∧ t.waiting.length ≤ s.waiting.length - ns.length * sizeofExtrabuf := by
  induction ns generalizing s with
  | nil => exact ⟨s, rfl, hs, rfl, by simp⟩
  | cons n ns ih =>
      obtain ⟨u, hu, hin⟩ := hs.readFd (n := n)
      obtain ⟨hlen, harr⟩ := waiting_readFd (hn n List.mem_cons_self) hu
      have hrest : ∀ k ∈ ns, u.waiting.length ≤ k := fun k hk =>
        Nat.le_trans (Nat.le_trans hlen (Nat.sub_le ..)) (hn k (List.mem_cons_of_mem n hk))
      obtain ⟨t, ht, htin, htarr, htlen⟩ := ih hrest hin
      have hrun : s.run ((n :: ns).map fun n => .readFd (some n)) = some t := by
        rw [List.map_cons, run, step, hu, Option.bind_some, ht]
      refine ⟨t, hrun, htin, htarr.trans harr, ?_⟩
      rw [List.length_cons, Nat.succ_mul]
      omega

end SocketReader

/-- **The incoming stream**: at any time all that has come in on the socket is, in its order, what
has been taken out of the buffer, what is in the buffer and what waits on the socket; and as many
reads as the waiting bytes have pieces of `sizeofExtrabuf` empty the socket, where the kernel hands
over all it can. -/
theorem incoming {initialSize : ℕ} {es : List ReaderStep} {s : SocketReader}
    (h : (SocketReader.new initialSize).run es = some s) :
    s.taken ++ s.inputBuffer.readable ++ s.waiting = s.arrived ∧
      ∀ ns : List ℕ, (∀ n ∈ ns, s.waiting.length ≤ n) →
        s.waiting.length ≤ ns.length * sizeofExtrabuf →
        ∃ t, s.run (ns.map fun n => .readFd (some n)) = some t ∧
          t.taken ++ t.inputBuffer.readable = s.arrived := by
  have hnew : (SocketReader.new initialSize).InOrder := by
    show [] ++ (Buffer.new initialSize).readable ++ [] = []
    rw [Buffer.readable_new]
    rfl
  have hs : s.InOrder := hnew.run h
  refine ⟨hs, fun ns hn hlen => ?_⟩
  obtain ⟨t, ht, htin, htarr, htlen⟩ := SocketReader.waiting_reads hn hs
  refine ⟨t, ht, ?_⟩
  have hnil : t.waiting = [] := List.eq_nil_of_length_eq_zero (by omega)
  have hall : t.taken ++ t.inputBuffer.readable ++ t.waiting = t.arrived := htin
  rwa [hnil, List.append_nil, htarr] at hall

/-- One byte of three has been read and taken out. -/
theorem incoming_one :
    ∃ s, (SocketReader.new 0).run
        [.arrive [1, 2, 3], .readFd (some 1), .retrieveAllAsString, .arrive [4]] = some s ∧
      s.taken ++ s.inputBuffer.readable ++ s.waiting = [1, 2, 3, 4] ∧
      ∃ t, s.run ([3].map fun n => .readFd (some n)) = some t ∧
        t.taken ++ t.inputBuffer.readable = [1, 2, 3, 4] := by
  refine ⟨_, rfl, ?_⟩
  have h := incoming (s := _) (rfl : (SocketReader.new 0).run
    [.arrive [1, 2, 3], .readFd (some 1), .retrieveAllAsString, .arrive [4]] = some _)
  exact ⟨h.1, h.2 [3] (by decide) (by decide)⟩

end NetworkStructure
