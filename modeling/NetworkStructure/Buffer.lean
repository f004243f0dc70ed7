import NetworkStructure.Span

/-! # Buffer

`Buffer` keeps its content between two moving indices of a vector: prependable bytes, then
the readable bytes (the content), then the writable bytes.  The index invariant
`0 <= readerIndex <= writerIndex <= size` of the class comment is a field of the structure.

What the buffer is for is a queue of bytes: `append` adds at the end (`readable_append`,
through both branches of `makeSpace`) and `retrieve` takes from the front
(`readable_retrieve`). -/

namespace NetworkStructure

def kCheapPrepend : ℕ := 8
def kInitialSize : ℕ := 1024

structure Buffer where
  buffer_ : List UInt8
  readerIndex_ : ℕ
  writerIndex_ : ℕ
  reader_le_writer : readerIndex_ ≤ writerIndex_
  writer_le_size : writerIndex_ ≤ buffer_.length
  prepend_le_size : kCheapPrepend ≤ buffer_.length

namespace Buffer

/-- `explicit Buffer(size_t initialSize)`. -/
def new (initialSize : ℕ) : Buffer where
  buffer_ := List.replicate (kCheapPrepend + initialSize) 0
  readerIndex_ := kCheapPrepend
  writerIndex_ := kCheapPrepend
  reader_le_writer := Nat.le_refl _
  writer_le_size := by simp
  prepend_le_size := by simp

def readableBytes (b : Buffer) : ℕ := b.writerIndex_ - b.readerIndex_
def writableBytes (b : Buffer) : ℕ := b.buffer_.length - b.writerIndex_
def prependableBytes (b : Buffer) : ℕ := b.readerIndex_

/-- The `readableBytes()` bytes that start at `peek()`. -/
def readable (b : Buffer) : List UInt8 := span b.buffer_ b.readerIndex_ b.writerIndex_

theorem length_readable (b : Buffer) : b.readable.length = b.readableBytes :=
  length_span b.writer_le_size

theorem readable_eq_nil {b : Buffer} : b.readable = [] ↔ b.readableBytes = 0 := by
  rw [← b.length_readable, List.length_eq_zero_iff]

def retrieveAll (b : Buffer) : Buffer :=
  { b with
    readerIndex_ := kCheapPrepend
    writerIndex_ := kCheapPrepend
    reader_le_writer := Nat.le_refl _
    writer_le_size := b.prepend_le_size }

/-- `retrieve(len)`; the source asserts `len <= readableBytes()`. -/
def retrieve (b : Buffer) (len : ℕ) : Buffer :=
  if h : len < b.readableBytes then
    { b with
      readerIndex_ := b.readerIndex_ + len
      reader_le_writer := by unfold readableBytes at h; omega }
  else b.retrieveAll

/-- The vector that `makeSpace` grows does not become shorter. -/
theorem size_le_of_writableBytes {b : Buffer} {len : ℕ} (hw : b.writableBytes < len) :
    b.buffer_.length ≤ b.writerIndex_ + len := by
  unfold writableBytes at hw
  omega

/-- `makeSpace(len)`: grow the vector, or move the readable bytes to the front.  It is private
and called only when there is too little room behind the readable bytes. -/
def makeSpace (b : Buffer) (len : ℕ) (hw : b.writableBytes < len) : Buffer :=
  if b.writableBytes + b.prependableBytes < len + kCheapPrepend then
    { b with
      buffer_ := resize b.buffer_ (b.writerIndex_ + len) 0
      writer_le_size := length_resize b.buffer_ _ 0 ▸ Nat.le_add_right _ _
      prepend_le_size := length_resize b.buffer_ _ 0 ▸
        Nat.le_trans b.prepend_le_size (size_le_of_writableBytes hw) }
  else
    { b with
      buffer_ := copyTo b.buffer_ kCheapPrepend b.readable
      readerIndex_ := kCheapPrepend
      writerIndex_ := kCheapPrepend + b.readableBytes
      reader_le_writer := Nat.le_add_right _ _
      writer_le_size := b.length_readable ▸ add_length_le_copyTo b.prepend_le_size
      prepend_le_size := Nat.le_trans b.prepend_le_size (length_le_copyTo ..) }

def ensureWritableBytes (b : Buffer) (len : ℕ) : Buffer :=
  if hw : b.writableBytes < len then b.makeSpace len hw else b

/-- `append(data, len)`: make room, `std::copy` to `beginWrite()`, `hasWritten(len)`. -/
def append (b : Buffer) (data : List UInt8) : Buffer :=
  let e := b.ensureWritableBytes data.length
  { e with
    buffer_ := copyTo e.buffer_ e.writerIndex_ data
    writerIndex_ := e.writerIndex_ + data.length
    reader_le_writer := Nat.le_trans e.reader_le_writer (Nat.le_add_right _ _)
    writer_le_size := add_length_le_copyTo e.writer_le_size
    prepend_le_size := Nat.le_trans e.prepend_le_size (length_le_copyTo ..) }

@[simp] theorem readable_new (n : ℕ) : (new n).readable = [] := span_self _ _

@[simp] theorem readable_retrieveAll (b : Buffer) : b.retrieveAll.readable = [] := span_self _ _

/-- `retrieve` takes from the front. -/
theorem readable_retrieve (b : Buffer) (len : ℕ) :
    (b.retrieve len).readable = b.readable.drop len := by
  unfold retrieve
  split
  · exact span_drop _ _ _ _
  · next h =>
      rw [readable_retrieveAll, List.drop_eq_nil_of_le]
      rw [length_readable]
      omega

/-- When the vector is not grown there is enough room in front of the readable bytes, so the
copy moves them down (`assert(kCheapPrepend < readerIndex_)`). -/
theorem prepend_lt_reader {b : Buffer} {len : ℕ} (hw : b.writableBytes < len)
    (h : ¬ b.writableBytes + b.prependableBytes < len + kCheapPrepend) :
    kCheapPrepend < b.readerIndex_ := by
  unfold prependableBytes at h
  omega

theorem makeSpace_spec {b : Buffer} {len : ℕ} (hw : b.writableBytes < len) :
    (b.makeSpace len hw).readable = b.readable ∧ len ≤ (b.makeSpace len hw).writableBytes := by
  have hr := b.reader_le_writer
  have hs := b.writer_le_size
  unfold makeSpace
  split
  · refine ⟨span_resize hs ?_, ?_⟩
    · unfold writableBytes at hw
      omega
    · simp only [writableBytes, length_resize]
      omega
  · next h =>
      have hp := prepend_lt_reader hw h
      have hfit : kCheapPrepend + b.readable.length ≤ b.buffer_.length := by
        rw [length_readable]
        unfold readableBytes
        omega
      constructor
      · have hc : span (copyTo b.buffer_ kCheapPrepend b.readable) kCheapPrepend
            (kCheapPrepend + b.readable.length) = _ ++ b.readable :=
          span_copyTo (Nat.le_refl kCheapPrepend) b.prepend_le_size
        rwa [length_readable, span_self] at hc
      · simp only [writableBytes, length_copyTo hfit]
        unfold writableBytes prependableBytes at h
        unfold readableBytes
        omega

theorem ensureWritableBytes_spec (b : Buffer) (len : ℕ) :
    (b.ensureWritableBytes len).readable = b.readable ∧
      len ≤ (b.ensureWritableBytes len).writableBytes := by
  unfold ensureWritableBytes
  split
  · next h => exact makeSpace_spec h
  · next h => exact ⟨rfl, Nat.le_of_not_lt h⟩

/-- `append` adds at the end. -/
theorem readable_append (b : Buffer) (data : List UInt8) :
    (b.append data).readable = b.readable ++ data := by
  obtain ⟨hr, -⟩ := b.ensureWritableBytes_spec data.length
  rw [← hr]
  exact span_copyTo (b.ensureWritableBytes _).reader_le_writer
    (b.ensureWritableBytes _).writer_le_size

end Buffer
end NetworkStructure
