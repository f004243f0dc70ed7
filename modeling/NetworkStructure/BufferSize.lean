import NetworkStructure.BufferCalls

/-! # The memory of a Buffer

`makeSpace` grows the vector only when moving the content to the front would not make the room that
is asked for, and then by as much as is asked for.  So the vector never gets larger than twice what
the buffer has been asked to hold at a time, whatever has passed through it (`bufferSize`): a
buffer that is read as fast as it is written keeps its size. -/

namespace NetworkStructure

/-- The bytes for which a call makes room. -/
def BufferCall.requested : BufferCall → ℕ
  | append data => data.length
  | appendInt x => x.width.bytes
  | ensureWritableBytes len => len
  | _ => 0

/-- The most that a queue of bytes is asked to hold at a time. -/
def ByteQueue.peak : List UInt8 → List BufferCall → ℕ
  | q, [] => q.length
  | q, c :: cs =>
      max (q.length + c.requested) (((ByteQueue.call q c).map fun r => peak r.2 cs).getD 0)

namespace Buffer

variable {b : Buffer}

theorem size_ensureWritableBytes (b : Buffer) (len : ℕ) :
    (b.ensureWritableBytes len).buffer_.length ≤
      max b.buffer_.length (kCheapPrepend + 2 * (b.readableBytes + len)) := by
  have hr := b.reader_le_writer
  have hs := b.writer_le_size
  unfold Buffer.ensureWritableBytes
  split
  · next hw =>
    unfold Buffer.makeSpace
    split
    · next h =>
      -- less than `len + kCheapPrepend` bytes lie before the content
      unfold writableBytes prependableBytes at h
      rw [length_resize]
      unfold readableBytes
      omega
    · next h =>
      have hp := prepend_lt_reader hw h
      rw [length_copyTo]
      · exact Nat.le_max_left ..
      · rw [length_readable]
        unfold readableBytes
        omega
  · exact Nat.le_max_left ..

theorem size_append (b : Buffer) (data : List UInt8) : (b.append data).buffer_.length ≤
    max b.buffer_.length (kCheapPrepend + 2 * (b.readableBytes + data.length)) := by
  obtain ⟨-, hroom⟩ := b.ensureWritableBytes_spec data.length
  have hs := (b.ensureWritableBytes data.length).writer_le_size
  have hfit : (b.ensureWritableBytes data.length).writerIndex_ + data.length ≤
      (b.ensureWritableBytes data.length).buffer_.length := by
    unfold writableBytes at hroom
    omega
  have hlen : (b.append data).buffer_.length = (b.ensureWritableBytes data.length).buffer_.length :=
    length_copyTo hfit
  rw [hlen]
  exact b.size_ensureWritableBytes data.length

theorem size_retrieve (b : Buffer) (len : ℕ) : (b.retrieve len).buffer_ = b.buffer_ := by
  unfold Buffer.retrieve
  split <;> rfl

theorem size_prepend {data : List UInt8} {m : Buffer} (h : b.prepend data = some m) :
    m.buffer_.length = b.buffer_.length := by
  unfold prepend at h
  split at h
  · next hp =>
    cases h
    have hr := b.reader_le_writer
    have hs := b.writer_le_size
    unfold prependableBytes at hp
    exact length_copyTo (by omega)
  · cases h

theorem size_unwrite {len : ℕ} {m : Buffer} (h : b.unwrite len = some m) :
    m.buffer_ = b.buffer_ := by
  unfold unwrite at h
  split at h <;> cases h
  rfl

theorem size_retrieved {len : ℕ} {m : Buffer} (h : Asserted.retrieve b len = some m) :
    m.buffer_ = b.buffer_ := by
  unfold Asserted.retrieve at h
  split at h <;> cases h
  exact b.size_retrieve len

theorem size_retrieveAsString {len : ℕ} {r : List UInt8 × Buffer}
    (h : b.retrieveAsString len = some r) : r.2.buffer_ = b.buffer_ := by
  unfold retrieveAsString at h
  split at h
  · obtain ⟨m, hm, rfl⟩ := Option.map_eq_some_iff.mp h
    exact size_retrieved hm
  · cases h

/-- **Step lemma**: only a call that makes room can grow the vector. -/
theorem size_call {c : BufferCall} {r : BufferAnswer × Buffer} (h : b.call c = some r) :
    r.2.buffer_.length ≤
      max b.buffer_.length (kCheapPrepend + 2 * (b.readableBytes + c.requested)) := by
  have hsame : ∀ {m : Buffer}, m.buffer_ = b.buffer_ → m.buffer_.length ≤
      max b.buffer_.length (kCheapPrepend + 2 * (b.readableBytes + c.requested)) := by
    intro m hm
    rw [hm]
    exact Nat.le_max_left ..
  cases c with
  | append data =>
      rw [call, Asserted.append_eq] at h
      cases h
      exact b.size_append data
  | appendInt x =>
      rw [call, appendNetInt_eq] at h
      cases h
      rw [BufferCall.requested, ← x.wire_length]
      exact b.size_append x.wire
  | ensureWritableBytes len =>
      rw [call, Asserted.ensureWritableBytes_eq] at h
      cases h
      exact b.size_ensureWritableBytes len
  | unwrite len =>
      obtain ⟨m, hm, rfl⟩ := Option.map_eq_some_iff.mp h
      exact hsame (size_unwrite hm)
  | prepend data =>
      obtain ⟨m, hm, rfl⟩ := Option.map_eq_some_iff.mp h
      exact Nat.le_trans (Nat.le_of_eq (size_prepend hm)) (Nat.le_max_left ..)
  | prependInt x =>
      obtain ⟨m, hm, rfl⟩ := Option.map_eq_some_iff.mp h
      rw [prependNetInt_eq] at hm
      exact Nat.le_trans (Nat.le_of_eq (size_prepend hm)) (Nat.le_max_left ..)
  | readInt w =>
      obtain ⟨m, hm, rfl⟩ := Option.map_eq_some_iff.mp h
      obtain ⟨x, -, hx⟩ := Option.bind_eq_some_iff.mp hm
      obtain ⟨n, hn, rfl⟩ := Option.map_eq_some_iff.mp hx
      exact hsame (size_retrieved hn)
  | retrieve len | retrieveInt w =>
      obtain ⟨m, hm, rfl⟩ := Option.map_eq_some_iff.mp h
      exact hsame (size_retrieved hm)
  | retrieveUntil len =>
      obtain ⟨m, hm, rfl⟩ := Option.map_eq_some_iff.mp h
      unfold retrieveUntil at hm
      split at hm
      · exact hsame (size_retrieved hm)
      · cases hm
  | retrieveAll =>
      cases h
      exact hsame rfl
  | retrieveAsString len | retrieveAllAsString =>
      obtain ⟨m, hm, rfl⟩ := Option.map_eq_some_iff.mp h
      exact hsame (size_retrieveAsString hm)
  | peekInt w | findCRLFFrom start | findEOLFrom start =>
      obtain ⟨m, -, rfl⟩ := Option.map_eq_some_iff.mp h
      exact hsame rfl
  | findCRLF | findEOL | readableBytes =>
      cases h
      exact hsame rfl

/-- The vector is at most `n` bytes long, and the calls to come ask for no more. -/
structure Bounded (n : ℕ) (b : Buffer) (cs : List BufferCall) : Prop where
  room : b.Room cs
  size : b.buffer_.length ≤ n
  peak : kCheapPrepend + 2 * ByteQueue.peak b.readable cs ≤ n

theorem Bounded.call {n : ℕ} {c : BufferCall} {cs : List BufferCall}
    {r : BufferAnswer × Buffer} (h : b.Bounded n (c :: cs)) (hr : b.call c = some r) :
    r.2.Bounded n cs := by
  obtain ⟨hc, hnext⟩ := room_call h.room
  have hq : ByteQueue.call b.readable c = some (r.1, r.2.readable) := by
    rw [← (call_follows b c hc).answer, hr]
    rfl
  have hp : kCheapPrepend + 2 * max (b.readableBytes + c.requested)
      (ByteQueue.peak r.2.readable cs) ≤ n := by
    have hpeak := h.peak
    rwa [ByteQueue.peak, hq, length_readable] at hpeak
  have hs := size_call hr
  have hb := h.size
  exact ⟨hnext r hr, by omega, by omega⟩

end Buffer

/-- **The memory of a buffer**: after any calls on a new buffer the vector has the size it was made
with, or at most twice what the buffer was asked to hold at a time, and `kCheapPrepend`. -/
theorem bufferSize (initialSize : ℕ) {cs : List BufferCall}
    (h : (cs.map BufferCall.prepended).sum ≤ kCheapPrepend) {r : List BufferAnswer × Buffer}
    (hr : calls Buffer.call (Buffer.new initialSize) cs = some r) :
    r.2.buffer_.length ≤ kCheapPrepend + max initialSize (2 * ByteQueue.peak [] cs) := by
  have hnew : Buffer.Bounded (kCheapPrepend + max initialSize (2 * ByteQueue.peak [] cs))
      (Buffer.new initialSize) cs := by
    refine ⟨Nat.le_min.mpr ⟨h, h⟩, ?_, ?_⟩
    · rw [Buffer.new, List.length_replicate]
      exact Nat.add_le_add_left (Nat.le_max_left ..) _
    · rw [Buffer.readable_new]
      exact Nat.add_le_add_left (Nat.le_max_right ..) _
  have hend : Buffer.Bounded (kCheapPrepend + max initialSize (2 * ByteQueue.peak [] cs)) r.2 [] :=
    calls_invariant (fun _ _ _ _ hI hc => hI.call hc) hr hnew
  exact hend.size

/-- More bytes than the vector has room for, but never more than four at a time. -/
theorem bufferSize_stream : ∃ r, calls Buffer.call (Buffer.new 4)
    [.append [1, 2, 3, 4], .retrieve 3, .append [5, 6, 7], .retrieve 2, .append [8, 9]] = some r ∧
      r.2.buffer_.length ≤ 16 := by
  have hsome : (calls Buffer.call (Buffer.new 4) [.append [1, 2, 3, 4], .retrieve 3,
      .append [5, 6, 7], .retrieve 2, .append [8, 9]]).isSome = true := by decide
  obtain ⟨r, hr⟩ := Option.isSome_iff_exists.mp hsome
  exact ⟨r, hr, bufferSize 4 (by decide) hr⟩

end NetworkStructure
