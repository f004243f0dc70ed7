import NetworkStructure.Buffer
import NetworkStructure.ByteOrder
import NetworkStructure.Calls
import NetworkStructure.Search

/-! # The calls on a Buffer

All that a `Buffer` offers: bytes and numbers in network byte order can be appended, read,
retrieved from the front and put before it, and lines are found.  The source asserts what a call
asks for and what its helpers rely on; here a call is `none` where an assertion fails.

A buffer is a queue of bytes (`bufferCalls`): the answers of any calls are those of a list of
bytes, and an assertion fails exactly where the list cannot do what is asked.  In particular the
assertions inside of `append` never fail, whichever way `makeSpace` makes space
(`Asserted.append_eq`).  Putting bytes before the content needs room there, and there are always
`kCheapPrepend` bytes less those that have been put there before (`room_call`). -/

namespace NetworkStructure

namespace Buffer

/-! ### Space, with the assertions -/

namespace Asserted

/-- Both assertions are about moving the content to the front. -/
def makeSpace (b : Buffer) (len : ℕ) (hw : b.writableBytes < len) : Option Buffer :=
  let m := b.makeSpace len hw
  if b.writableBytes + b.prependableBytes < len + kCheapPrepend then some m
  else if kCheapPrepend < b.readerIndex_ ∧ b.readableBytes = m.readableBytes then some m
  else none

def ensureWritableBytes (b : Buffer) (len : ℕ) : Option Buffer :=
  (if hw : b.writableBytes < len then makeSpace b len hw else some b).filter
    fun e => len ≤ e.writableBytes

def hasWritten (b : Buffer) (len : ℕ) : Option Buffer :=
  if h : len ≤ b.writableBytes then
    some { b with
      writerIndex_ := b.writerIndex_ + len
      reader_le_writer := Nat.le_trans b.reader_le_writer (Nat.le_add_right _ _)
      writer_le_size := by
        have := b.writer_le_size
        unfold writableBytes at h
        omega }
  else none

/-- `std::copy` to the index `i` of the vector. -/
def copy (b : Buffer) (i : ℕ) (data : List UInt8) : Buffer :=
  { b with
    buffer_ := copyTo b.buffer_ i data
    writer_le_size := Nat.le_trans b.writer_le_size (length_le_copyTo ..)
    prepend_le_size := Nat.le_trans b.prepend_le_size (length_le_copyTo ..) }

def append (b : Buffer) (data : List UInt8) : Option Buffer :=
  (ensureWritableBytes b data.length).bind fun b =>
    hasWritten (copy b b.writerIndex_ data) data.length

def retrieve (b : Buffer) (len : ℕ) : Option Buffer :=
  if len ≤ b.readableBytes then some (b.retrieve len) else none

theorem makeSpace_eq {b : Buffer} {len : ℕ} (hw : b.writableBytes < len) :
    makeSpace b len hw = some (b.makeSpace len hw) := by
  unfold makeSpace
  dsimp only
  split
  · rfl
  · next h =>
    obtain ⟨hr, -⟩ := makeSpace_spec hw
    have hlen : b.readableBytes = (b.makeSpace len hw).readableBytes := by
      rw [← length_readable, ← length_readable, hr]
    rw [if_pos ⟨prepend_lt_reader hw h, hlen⟩]

theorem ensureWritableBytes_eq (b : Buffer) (len : ℕ) :
    ensureWritableBytes b len = some (b.ensureWritableBytes len) := by
  obtain ⟨-, hroom⟩ := b.ensureWritableBytes_spec len
  have he : (if hw : b.writableBytes < len then makeSpace b len hw else some b) =
      some (b.ensureWritableBytes len) := by
    unfold Buffer.ensureWritableBytes
    split
    · next hw => exact makeSpace_eq hw
    · rfl
  rw [ensureWritableBytes, he]
  exact Option.filter_some_pos (decide_eq_true hroom)

/-- **No assertion in `append` fails.** -/
theorem append_eq (b : Buffer) (data : List UInt8) : append b data = some (b.append data) := by
  obtain ⟨-, hroom⟩ := b.ensureWritableBytes_spec data.length
  have hs := (b.ensureWritableBytes data.length).writer_le_size
  unfold append hasWritten
  rw [ensureWritableBytes_eq, Option.bind_some, dif_pos]
  · rfl
  · show _ ≤ (copyTo _ _ data).length - _
    unfold writableBytes at hroom
    rw [length_copyTo (by omega)]
    exact hroom

end Asserted

/-! ### Before the content, and its end -/

def prepend (b : Buffer) (data : List UInt8) : Option Buffer :=
  if data.length ≤ b.prependableBytes then
    some { b with
      buffer_ := copyTo b.buffer_ (b.readerIndex_ - data.length) data
      readerIndex_ := b.readerIndex_ - data.length
      reader_le_writer := Nat.le_trans (Nat.sub_le ..) b.reader_le_writer
      writer_le_size := Nat.le_trans b.writer_le_size (length_le_copyTo ..)
      prepend_le_size := Nat.le_trans b.prepend_le_size (length_le_copyTo ..) }
  else none

def unwrite (b : Buffer) (len : ℕ) : Option Buffer :=
  if h : len ≤ b.readableBytes then
    some { b with
      writerIndex_ := b.writerIndex_ - len
      reader_le_writer := by
        have := b.reader_le_writer
        unfold readableBytes at h
        omega
      writer_le_size := Nat.le_trans (Nat.sub_le ..) b.writer_le_size }
  else none

theorem prepend_spec {b : Buffer} {data : List UInt8} (h : data.length ≤ b.prependableBytes) :
    ∃ m, b.prepend data = some m ∧ m.readable = data ++ b.readable ∧
      m.prependableBytes = b.prependableBytes - data.length := by
  have hr := b.reader_le_writer
  unfold prependableBytes at h
  refine ⟨_, if_pos h, ?_, rfl⟩
  have hs : span (copyTo b.buffer_ (b.readerIndex_ - data.length) data)
      (b.readerIndex_ - data.length) b.writerIndex_ =
        data ++ span b.buffer_ (b.readerIndex_ - data.length + data.length) b.writerIndex_ :=
    span_copyTo_front (by omega) b.writer_le_size
  rwa [Nat.sub_add_cancel h] at hs

theorem unwrite_spec {b : Buffer} {len : ℕ} (h : len ≤ b.readableBytes) :
    ∃ m, b.unwrite len = some m ∧ m.readable = b.readable.take (b.readable.length - len) ∧
      m.prependableBytes = b.prependableBytes := by
  refine ⟨_, dif_pos h, ?_, rfl⟩
  unfold readableBytes at h
  have hr := b.reader_le_writer
  have hl : b.readable.length = b.writerIndex_ - b.readerIndex_ := b.length_readable
  have hend : min (b.readerIndex_ + (b.readable.length - len)) b.writerIndex_ =
      b.writerIndex_ - len := by
    rw [hl]
    omega
  exact (hend ▸ span_take b.buffer_ b.readerIndex_ b.writerIndex_ (b.readable.length - len)).symm

/-! ### Numbers in network byte order -/

/-- The common body of `appendInt64`, `appendInt32` and `appendInt16`. -/
def appendInt {n : ℕ} (b : Buffer) (x : BitVec (8 * n)) : Option Buffer :=
  Asserted.append b (hostBytes (swapBytes x))

def appendInt64 (b : Buffer) (x : Int64) : Option Buffer := b.appendInt (n := 8) x.toBitVec
def appendInt32 (b : Buffer) (x : Int32) : Option Buffer := b.appendInt (n := 4) x.toBitVec
def appendInt16 (b : Buffer) (x : Int16) : Option Buffer := b.appendInt (n := 2) x.toBitVec
def appendInt8 (b : Buffer) (x : Int8) : Option Buffer := Asserted.append b [x.toUInt8]

/-- The common body of `prependInt64`, `prependInt32` and `prependInt16`. -/
def prependInt {n : ℕ} (b : Buffer) (x : BitVec (8 * n)) : Option Buffer :=
  b.prepend (hostBytes (swapBytes x))

def prependInt64 (b : Buffer) (x : Int64) : Option Buffer := b.prependInt (n := 8) x.toBitVec
def prependInt32 (b : Buffer) (x : Int32) : Option Buffer := b.prependInt (n := 4) x.toBitVec
def prependInt16 (b : Buffer) (x : Int16) : Option Buffer := b.prependInt (n := 2) x.toBitVec
def prependInt8 (b : Buffer) (x : Int8) : Option Buffer := b.prepend [x.toUInt8]

/-- The common body of `peekInt64`, `peekInt32` and `peekInt16`: `memcpy` from `peek()`. -/
def peekInt (n : ℕ) (b : Buffer) : Option (BitVec (8 * n)) :=
  if n ≤ b.readableBytes then
    some (swapBytes (ofHostBytes n (span b.buffer_ b.readerIndex_ (b.readerIndex_ + n))))
  else none

def peekInt64 (b : Buffer) : Option Int64 := (b.peekInt 8).map .ofBitVec
def peekInt32 (b : Buffer) : Option Int32 := (b.peekInt 4).map .ofBitVec
def peekInt16 (b : Buffer) : Option Int16 := (b.peekInt 2).map .ofBitVec

/-- `*peek()`. -/
def peekInt8 (b : Buffer) : Option Int8 :=
  if 1 ≤ b.readableBytes then b.buffer_[b.readerIndex_]?.map UInt8.toInt8 else none

/-- `appendInt64` and its siblings. -/
def appendNetInt (b : Buffer) : NetInt → Option Buffer
  | .int8 x => b.appendInt8 x
  | .int16 x => b.appendInt16 x
  | .int32 x => b.appendInt32 x
  | .int64 x => b.appendInt64 x

def prependNetInt (b : Buffer) : NetInt → Option Buffer
  | .int8 x => b.prependInt8 x
  | .int16 x => b.prependInt16 x
  | .int32 x => b.prependInt32 x
  | .int64 x => b.prependInt64 x

def peekNetInt (b : Buffer) : IntWidth → Option NetInt
  | .int8 => b.peekInt8.map .int8
  | .int16 => b.peekInt16.map .int16
  | .int32 => b.peekInt32.map .int32
  | .int64 => b.peekInt64.map .int64

/-- `retrieveInt64` and its siblings. -/
def retrieveNetInt (b : Buffer) (w : IntWidth) : Option Buffer := Asserted.retrieve b w.bytes

/-- `readInt64` and its siblings. -/
def readNetInt (b : Buffer) (w : IntWidth) : Option (NetInt × Buffer) :=
  (b.peekNetInt w).bind fun x => (b.retrieveNetInt w).map fun b => (x, b)

theorem appendNetInt_eq (b : Buffer) (x : NetInt) :
    b.appendNetInt x = some (b.append x.wire) := by
  cases x with
  | int8 x => exact Asserted.append_eq b _
  | int16 x | int32 x | int64 x =>
      refine (Asserted.append_eq b _).trans ?_
      rw [hostBytes_swapBytes]
      rfl

theorem prependNetInt_eq (b : Buffer) (x : NetInt) : b.prependNetInt x = b.prepend x.wire := by
  cases x with
  | int8 x => rfl
  | int16 x | int32 x | int64 x =>
      refine Eq.trans (congrArg b.prepend (hostBytes_swapBytes _)) ?_
      rfl

theorem span_reader {b : Buffer} {n : ℕ} (h : n ≤ b.readableBytes) :
    span b.buffer_ b.readerIndex_ (b.readerIndex_ + n) = b.readable.take n := by
  unfold readableBytes at h
  rw [readable, span_take]
  congr 1
  have := b.reader_le_writer
  omega

theorem peekInt_eq {b : Buffer} {n : ℕ} (h : n ≤ b.readableBytes) :
    b.peekInt n = some (ofHostBytes n (b.readable.take n).reverse) := by
  have hl : (b.readable.take n).length = n := by
    rw [List.length_take, length_readable]
    omega
  rw [peekInt, if_pos h, span_reader h, swapBytes, hostBytes_ofHostBytes hl]

theorem peekNetInt_eq (b : Buffer) (w : IntWidth) : b.peekNetInt w =
    if w.bytes ≤ b.readableBytes then some (.ofWire w (b.readable.take w.bytes)) else none := by
  split
  · next h =>
    cases w with
    | int8 =>
        have hget : b.buffer_[b.readerIndex_]? = b.readable.head? := by
          rw [← List.head?_drop, readable, span, List.head?_take, if_neg]
          have : 1 ≤ b.writerIndex_ - b.readerIndex_ := h
          omega
        have hne : b.readable ≠ [] := by
          rw [← List.length_pos_iff, length_readable]
          exact h
        obtain ⟨y, ys, hy⟩ := List.exists_cons_of_ne_nil hne
        rw [peekNetInt, peekInt8, if_pos (show 1 ≤ b.readableBytes from h), hget, hy]
        rfl
    | int16 => rw [peekNetInt, peekInt16, peekInt_eq (n := 2) h]; rfl
    | int32 => rw [peekNetInt, peekInt32, peekInt_eq (n := 4) h]; rfl
    | int64 => rw [peekNetInt, peekInt64, peekInt_eq (n := 8) h]; rfl
  · next h =>
    cases w with
    | int8 => rw [peekNetInt, peekInt8, if_neg (show ¬ 1 ≤ b.readableBytes from h)]; rfl
    | int16 =>
        rw [peekNetInt, peekInt16, peekInt, if_neg (show ¬ 2 ≤ b.readableBytes from h)]; rfl
    | int32 =>
        rw [peekNetInt, peekInt32, peekInt, if_neg (show ¬ 4 ≤ b.readableBytes from h)]; rfl
    | int64 =>
        rw [peekNetInt, peekInt64, peekInt, if_neg (show ¬ 8 ≤ b.readableBytes from h)]; rfl


/-! ### Strings and lines -/

def retrieveAsString (b : Buffer) (len : ℕ) : Option (List UInt8 × Buffer) :=
  if len ≤ b.readableBytes then
    (Asserted.retrieve b len).map fun m =>
      (span b.buffer_ b.readerIndex_ (b.readerIndex_ + len), m)
  else none

def retrieveAllAsString (b : Buffer) : Option (List UInt8 × Buffer) :=
  b.retrieveAsString b.readableBytes

/-- `retrieveUntil(peek() + len)`. -/
def retrieveUntil (b : Buffer) (len : ℕ) : Option Buffer :=
  if len ≤ b.readableBytes then Asserted.retrieve b len else none

def kCRLF : List UInt8 := [13, 10]

/-- What `findCRLF` returns is counted from `peek()`. -/
def findCRLF (b : Buffer) : Option ℕ := search kCRLF b.readable

/-- `findCRLF(peek() + start)`. -/
def findCRLFFrom (b : Buffer) (start : ℕ) : Option (Option ℕ) :=
  if start ≤ b.readableBytes then
    some ((search kCRLF (span b.buffer_ (b.readerIndex_ + start) b.writerIndex_)).map (start + ·))
  else none

/-- The byte that `memchr` looks for. -/
def newline : UInt8 := 10

def findEOL (b : Buffer) : Option ℕ := b.readable.idxOf? newline

/-- `findEOL(peek() + start)`. -/
def findEOLFrom (b : Buffer) (start : ℕ) : Option (Option ℕ) :=
  if start ≤ b.readableBytes then
    some (((span b.buffer_ (b.readerIndex_ + start) b.writerIndex_).idxOf? newline).map (start + ·))
  else none

/-- **The search for the end of a line is resumed** one byte before what has been searched, however
much has been appended since: the `\r` may have been the last byte. -/
theorem findCRLF_resumed {b : Buffer} (h : b.findCRLF = none) (data : List UInt8) :
    (b.append data).findCRLFFrom (b.readableBytes - 1) = some (b.append data).findCRLF := by
  have hr := b.readable_append data
  have hlen : b.readableBytes ≤ (b.append data).readableBytes := by
    rw [← length_readable, ← length_readable, hr, List.length_append]
    exact Nat.le_add_right ..
  have hspan : span (b.append data).buffer_ ((b.append data).readerIndex_ + (b.readableBytes - 1))
      (b.append data).writerIndex_ = (b.append data).readable.drop (b.readableBytes - 1) :=
    span_drop ..
  rw [findCRLFFrom, if_pos (Nat.le_trans (Nat.sub_le ..) hlen), hspan, findCRLF, hr,
    search_append (k := 1) rfl h data, length_readable]

/-- The `\r` is there and the `\n` comes. -/
theorem findCRLF_resumed_split :
    (((new 8).append [104, 105, 13]).append [10, 46]).findCRLFFrom 2 =
      some (((new 8).append [104, 105, 13]).append [10, 46]).findCRLF :=
  findCRLF_resumed (b := (new 8).append [104, 105, 13]) (by decide) [10, 46]

end Buffer

/-! ### Calls -/

/-- A call; a position is counted from `peek()`. -/
inductive BufferCall where
  | append (data : List UInt8)
  | appendInt (x : NetInt)
  | ensureWritableBytes (len : ℕ)
  | unwrite (len : ℕ)
  | prepend (data : List UInt8)
  | prependInt (x : NetInt)
  | peekInt (w : IntWidth)
  | readInt (w : IntWidth)
  | retrieve (len : ℕ)
  | retrieveUntil (len : ℕ)
  | retrieveInt (w : IntWidth)
  | retrieveAll
  | retrieveAsString (len : ℕ)
  | retrieveAllAsString
  | findCRLF
  | findCRLFFrom (start : ℕ)
  | findEOL
  | findEOLFrom (start : ℕ)
  | readableBytes
deriving DecidableEq

inductive BufferAnswer where
  | done
  | number (x : NetInt)
  | string (s : List UInt8)
  | position (p : Option ℕ)
  | count (n : ℕ)
deriving DecidableEq

/-- The bytes that a call puts before the content. -/
def BufferCall.prepended : BufferCall → ℕ
  | prepend data => data.length
  | prependInt x => x.width.bytes
  | _ => 0

namespace Buffer

/-- The call is made; it is `none` where an assertion fails. -/
def call (b : Buffer) : BufferCall → Option (BufferAnswer × Buffer)
  | .append data => (Asserted.append b data).map (.done, ·)
  | .appendInt x => (b.appendNetInt x).map (.done, ·)
  | .ensureWritableBytes len => (Asserted.ensureWritableBytes b len).map (.done, ·)
  | .unwrite len => (b.unwrite len).map (.done, ·)
  | .prepend data => (b.prepend data).map (.done, ·)
  | .prependInt x => (b.prependNetInt x).map (.done, ·)
  | .peekInt w => (b.peekNetInt w).map (.number ·, b)
  | .readInt w => (b.readNetInt w).map fun r => (.number r.1, r.2)
  | .retrieve len => (Asserted.retrieve b len).map (.done, ·)
  | .retrieveUntil len => (b.retrieveUntil len).map (.done, ·)
  | .retrieveInt w => (b.retrieveNetInt w).map (.done, ·)
  | .retrieveAll => some (.done, b.retrieveAll)
  | .retrieveAsString len => (b.retrieveAsString len).map fun r => (.string r.1, r.2)
  | .retrieveAllAsString => b.retrieveAllAsString.map fun r => (.string r.1, r.2)
  | .findCRLF => some (.position b.findCRLF, b)
  | .findCRLFFrom start => (b.findCRLFFrom start).map (.position ·, b)
  | .findEOL => some (.position b.findEOL, b)
  | .findEOLFrom start => (b.findEOLFrom start).map (.position ·, b)
  | .readableBytes => some (.count b.readableBytes, b)

end Buffer

/-! ### The queue of bytes -/

namespace ByteQueue

variable (q : List UInt8)

/-- The first `len` bytes are taken off, where there are as many. -/
def takeOff (len : ℕ) (a : BufferAnswer) : Option (BufferAnswer × List UInt8) :=
  if len ≤ q.length then some (a, q.drop len) else none

/-- What the calls mean for a list of bytes. -/
def call : BufferCall → Option (BufferAnswer × List UInt8)
  | .append data => some (.done, q ++ data)
  | .appendInt x => some (.done, q ++ x.wire)
  | .ensureWritableBytes _ => some (.done, q)
  | .unwrite len => if len ≤ q.length then some (.done, q.take (q.length - len)) else none
  | .prepend data => some (.done, data ++ q)
  | .prependInt x => some (.done, x.wire ++ q)
  | .peekInt w =>
      if w.bytes ≤ q.length then some (.number (.ofWire w (q.take w.bytes)), q) else none
  | .readInt w => takeOff q w.bytes (.number (.ofWire w (q.take w.bytes)))
  | .retrieve len => takeOff q len .done
  | .retrieveUntil len => takeOff q len .done
  | .retrieveInt w => takeOff q w.bytes .done
  | .retrieveAll => some (.done, [])
  | .retrieveAsString len => takeOff q len (.string (q.take len))
  | .retrieveAllAsString => some (.string q, [])
  | .findCRLF => some (.position (search Buffer.kCRLF q), q)
  | .findCRLFFrom start =>
      if start ≤ q.length then
        some (.position ((search Buffer.kCRLF (q.drop start)).map (start + ·)), q)
      else none
  | .findEOL => some (.position (q.idxOf? Buffer.newline), q)
  | .findEOLFrom start =>
      if start ≤ q.length then
        some (.position (((q.drop start).idxOf? Buffer.newline).map (start + ·)), q)
      else none
  | .readableBytes => some (.count q.length, q)

end ByteQueue

namespace Buffer

variable {b : Buffer} {o : Option (BufferAnswer × Buffer)}
  {q : Option (BufferAnswer × List UInt8)}

/-- The outcome `o` of a call is `q` on the content, and `k` bytes of room are left before it. -/
structure Follows (o : Option (BufferAnswer × Buffer)) (q : Option (BufferAnswer × List UInt8))
    (k : ℕ) : Prop where
  answer : o.map (abstraction readable) = q
  room : ∀ r, o = some r → k ≤ r.2.prependableBytes

theorem Follows.mono {k k' : ℕ} (h : Follows o q k) (hk : k' ≤ k) : Follows o q k' :=
  ⟨h.answer, fun r hr => Nat.le_trans hk (h.room r hr)⟩

theorem follows_none (k : ℕ) : Follows none none k := ⟨rfl, fun _ h => nomatch h⟩

theorem follows_some (a : BufferAnswer) {m : Buffer} {q : List UInt8} {k : ℕ}
    (hq : m.readable = q) (hk : k ≤ m.prependableBytes) :
    Follows (some (a, m)) (some (a, q)) k :=
  ⟨by rw [Option.map_some, abstraction, hq], fun _ hr => Option.some.inj hr ▸ hk⟩

/-- The room that every call leaves which puts nothing there. -/
def kept (b : Buffer) : ℕ := min b.prependableBytes kCheapPrepend

theorem kept_le : b.kept ≤ b.prependableBytes := Nat.min_le_left ..

theorem kept_le_retrieve (len : ℕ) : b.kept ≤ (b.retrieve len).prependableBytes := by
  unfold Buffer.retrieve
  split
  · exact Nat.le_trans kept_le (Nat.le_add_right b.readerIndex_ len)
  · exact Nat.min_le_right b.prependableBytes kCheapPrepend

theorem kept_le_ensureWritableBytes (len : ℕ) :
    b.kept ≤ (b.ensureWritableBytes len).prependableBytes := by
  unfold Buffer.ensureWritableBytes
  split
  · unfold Buffer.makeSpace
    split
    · exact kept_le
    · exact Nat.min_le_right b.prependableBytes kCheapPrepend
  · exact kept_le

theorem kept_le_append (data : List UInt8) : b.kept ≤ (b.append data).prependableBytes :=
  kept_le_ensureWritableBytes (b := b) data.length

theorem retrieve_follows (b : Buffer) (len : ℕ) (a : BufferAnswer) :
    Follows ((Asserted.retrieve b len).map (a, ·)) (ByteQueue.takeOff b.readable len a) b.kept := by
  unfold Asserted.retrieve ByteQueue.takeOff
  rw [length_readable]
  split
  · exact follows_some a (b.readable_retrieve len) (kept_le_retrieve len)
  · exact follows_none _

theorem append_follows (b : Buffer) (data : List UInt8) :
    Follows ((Asserted.append b data).map (.done, ·)) (some (.done, b.readable ++ data))
      b.kept := by
  rw [Asserted.append_eq]
  exact follows_some _ (b.readable_append data) (kept_le_append data)

theorem prepend_follows {data : List UInt8} (h : data.length ≤ b.prependableBytes) :
    Follows ((b.prepend data).map (.done, ·)) (some (.done, data ++ b.readable))
      (b.prependableBytes - data.length) := by
  obtain ⟨m, hm, hr, hp⟩ := prepend_spec h
  rw [hm]
  exact follows_some _ hr (Nat.le_of_eq hp.symm)

theorem unwrite_follows (b : Buffer) (len : ℕ) :
    Follows ((b.unwrite len).map (.done, ·)) (ByteQueue.call b.readable (.unwrite len)) b.kept := by
  unfold ByteQueue.call
  dsimp only
  rw [length_readable]
  split
  · next h =>
    obtain ⟨m, hm, hr, hp⟩ := unwrite_spec h
    rw [hm]
    exact follows_some _ (length_readable b ▸ hr) (hp ▸ kept_le)
  · next h =>
    rw [unwrite, dif_neg h]
    exact follows_none _

theorem peekInt_follows (b : Buffer) (w : IntWidth) :
    Follows ((b.peekNetInt w).map (.number ·, b)) (ByteQueue.call b.readable (.peekInt w))
      b.kept := by
  unfold ByteQueue.call
  dsimp only
  rw [peekNetInt_eq, length_readable]
  split
  · exact follows_some _ rfl kept_le
  · exact follows_none _

theorem readInt_follows (b : Buffer) (w : IntWidth) :
    Follows ((b.readNetInt w).map fun r => (.number r.1, r.2))
      (ByteQueue.call b.readable (.readInt w)) b.kept := by
  rw [readNetInt, peekNetInt_eq]
  split
  · rw [Option.bind_some, Option.map_map]
    exact retrieve_follows b w.bytes (.number (.ofWire w (b.readable.take w.bytes)))
  · next h =>
    unfold ByteQueue.call ByteQueue.takeOff
    dsimp only
    rw [length_readable, if_neg h]
    exact follows_none _

theorem retrieveUntil_follows (b : Buffer) (len : ℕ) :
    Follows ((b.retrieveUntil len).map (.done, ·)) (ByteQueue.takeOff b.readable len .done)
      b.kept := by
  unfold retrieveUntil
  split
  · exact retrieve_follows b len .done
  · next h =>
    rw [ByteQueue.takeOff, length_readable, if_neg h]
    exact follows_none _

theorem retrieveAsString_follows (b : Buffer) (len : ℕ) :
    Follows ((b.retrieveAsString len).map fun r => (.string r.1, r.2))
      (ByteQueue.takeOff b.readable len (.string (b.readable.take len))) b.kept := by
  unfold retrieveAsString
  split
  · next h =>
    rw [Option.map_map, span_reader h]
    exact retrieve_follows b len (.string (b.readable.take len))
  · next h =>
    rw [ByteQueue.takeOff, length_readable, if_neg h]
    exact follows_none _

/-- A search behind `start` is one in what is left of the content there. -/
theorem search_follows (b : Buffer) (start : ℕ) (find : List UInt8 → Option ℕ) :
    Follows
      ((if start ≤ b.readableBytes then
        some ((find (span b.buffer_ (b.readerIndex_ + start) b.writerIndex_)).map (start + ·))
        else none).map (.position ·, b))
      (if start ≤ b.readable.length then
        some (.position ((find (b.readable.drop start)).map (start + ·)), b.readable) else none)
      b.kept := by
  rw [length_readable]
  split
  · rw [span_drop]
    exact follows_some _ rfl kept_le
  · exact follows_none _

/-- **Step lemma**: a call that finds the room it needs does what it does to the queue. -/
theorem call_follows (b : Buffer) (c : BufferCall) (hroom : c.prepended ≤ b.prependableBytes) :
    Follows (b.call c) (ByteQueue.call b.readable c) (b.kept - c.prepended) := by
  cases c with
  | append data => exact append_follows b data
  | appendInt x =>
      rw [call, appendNetInt_eq, ← Asserted.append_eq]
      exact append_follows b x.wire
  | ensureWritableBytes len =>
      rw [call, Asserted.ensureWritableBytes_eq]
      exact follows_some _ (b.ensureWritableBytes_spec len).1 (kept_le_ensureWritableBytes len)
  | unwrite len => exact unwrite_follows b len
  | prepend data => exact (prepend_follows hroom).mono (Nat.sub_le_sub_right kept_le _)
  | prependInt x =>
      have hlen : x.wire.length = x.width.bytes := x.wire_length
      rw [call, prependNetInt_eq]
      refine (prepend_follows (hlen ▸ hroom)).mono ?_
      rw [hlen]
      exact Nat.sub_le_sub_right kept_le _
  | peekInt w => exact peekInt_follows b w
  | readInt w => exact readInt_follows b w
  | retrieve len => exact retrieve_follows b len .done
  | retrieveUntil len => exact retrieveUntil_follows b len
  | retrieveInt w => exact retrieve_follows b w.bytes .done
  | retrieveAll => exact follows_some _ b.readable_retrieveAll (Nat.min_le_right ..)
  | retrieveAsString len => exact retrieveAsString_follows b len
  | retrieveAllAsString =>
      have h := retrieveAsString_follows b b.readableBytes
      rw [ByteQueue.takeOff, length_readable, if_pos (Nat.le_refl _), ← length_readable,
        List.take_length, List.drop_length, length_readable] at h
      exact h
  | findCRLF => exact follows_some _ rfl kept_le
  | findCRLFFrom start => exact search_follows b start (search kCRLF)
  | findEOL => exact follows_some _ rfl kept_le
  | findEOLFrom start => exact search_follows b start (·.idxOf? newline)
  | readableBytes =>
      rw [call, ByteQueue.call, length_readable]
      exact follows_some _ rfl kept_le

/-- Before the content there is room for all that the calls put there, at once or when the
content has been moved. -/
def Room (b : Buffer) (cs : List BufferCall) : Prop := (cs.map BufferCall.prepended).sum ≤ b.kept

/-- The calls to come keep their room. -/
theorem room_call {c : BufferCall} {cs : List BufferCall} (h : b.Room (c :: cs)) :
    c.prepended ≤ b.prependableBytes ∧ ∀ r, b.call c = some r → r.2.Room cs := by
  have hsum : c.prepended + (cs.map BufferCall.prepended).sum ≤ b.kept := h
  have hc : c.prepended ≤ b.prependableBytes :=
    Nat.le_trans (Nat.le_of_add_right_le hsum) kept_le
  refine ⟨hc, fun r hr => ?_⟩
  have hk := (call_follows b c hc).room r hr
  have h8 : b.kept ≤ kCheapPrepend := Nat.min_le_right ..
  refine Nat.le_min.mpr ⟨?_, ?_⟩ <;> omega

end Buffer

/-- **A buffer is a queue of bytes**: whatever is called on a new buffer, in any order, the answers
are those of the list of its readable bytes, and an assertion fails just where the list cannot do
what is asked, as long as no more than `kCheapPrepend` bytes are put before the content. -/
theorem bufferCalls (initialSize : ℕ) (cs : List BufferCall)
    (h : (cs.map BufferCall.prepended).sum ≤ kCheapPrepend) :
    (calls Buffer.call (Buffer.new initialSize) cs).map (abstraction Buffer.readable) =
      calls ByteQueue.call [] cs := by
  rw [← Buffer.readable_new initialSize]
  refine calls_map (I := Buffer.Room) (fun b c cs hroom => ?_) (Nat.le_min.mpr ⟨h, h⟩)
  obtain ⟨hc, hnext⟩ := Buffer.room_call hroom
  exact ⟨(Buffer.call_follows b c hc).answer, hnext⟩

theorem bufferCalls_prepended :
    (calls Buffer.call (Buffer.new 0)
      [.appendInt (.int16 258), .prependInt (.int8 7), .readInt .int16]).map
        (abstraction Buffer.readable) =
      some ([.done, .done, .number (.int16 1793)], [2]) :=
  (bufferCalls 0 _ (by decide)).trans (by decide)

end NetworkStructure
