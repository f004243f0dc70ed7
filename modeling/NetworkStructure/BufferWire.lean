import NetworkStructure.BufferCalls

/-! # What is written to a Buffer and read from it

Numbers of four sizes and strings are appended to a buffer and read from it, in any order of
appending and reading.  Where each read asks for the kind of item that is the oldest one not yet
read, the items come back as they were written and in their order (`wireItems`): what the bytes
are is a matter between the writer and the reader, and a buffer does not add to it. -/

namespace NetworkStructure

inductive WireItem where
  | number (x : NetInt)
  | string (s : List UInt8)
deriving DecidableEq

/-- What a reader has to know of an item. -/
inductive WireShape where
  | number (w : IntWidth)
  | string (len : ℕ)
deriving DecidableEq

namespace WireItem

def shape : WireItem → WireShape
  | number x => .number x.width
  | string s => .string s.length

def wire : WireItem → List UInt8
  | number x => x.wire
  | string s => s

def answer : WireItem → BufferAnswer
  | number x => .number x
  | string s => .string s

end WireItem

inductive WireCall where
  | put (i : WireItem)
  | get (k : WireShape)
deriving DecidableEq

/-- The call on the buffer. -/
def WireCall.call : WireCall → BufferCall
  | put (.number x) => .appendInt x
  | put (.string s) => .append s
  | get (.number w) => .readInt w
  | get (.string len) => .retrieveAsString len

/-- A queue of items; a read that asks for another kind of item is not possible. -/
def WireQueue.call (q : List WireItem) : WireCall → Option (BufferAnswer × List WireItem)
  | .put i => some (.done, q ++ [i])
  | .get k =>
      match q with
      | [] => none
      | i :: q => if i.shape = k then some (i.answer, q) else none

namespace WireQueue

/-- The buffer `b` holds the items of `q`. -/
def Holds (b : Buffer) (q : List WireItem) : Prop := b.readable = q.flatMap WireItem.wire

/-- What is called on the queue of bytes has the answer that the queue of items gives. -/
theorem call_wire {q q' : List WireItem} {c : WireCall} {a : BufferAnswer}
    (h : call q c = some (a, q')) :
    ByteQueue.call (q.flatMap WireItem.wire) c.call = some (a, q'.flatMap WireItem.wire) := by
  cases c with
  | put i =>
      cases h
      rw [List.flatMap_append, List.flatMap_singleton]
      cases i <;> rfl
  | get k =>
      cases q with
      | nil => cases h
      | cons i q =>
          obtain ⟨hk, hi⟩ : i.shape = k ∧ (i.answer, q) = (a, q') := by
            simpa [call] using h
          obtain ⟨rfl, rfl⟩ := Prod.mk.inj hi
          subst hk
          rw [List.flatMap_cons]
          cases i with
          | number x =>
              have hlen := x.wire_length
              refine (if_pos ?_).trans ?_
              · rw [List.length_append, WireItem.wire, hlen]
                exact Nat.le_add_right ..
              · rw [WireItem.wire, ← hlen, List.take_left, List.drop_left, NetInt.ofWire_wire]
                rfl
          | string s =>
              refine (if_pos ?_).trans ?_
              · rw [List.length_append]
                exact Nat.le_add_right ..
              · rw [WireItem.wire, List.take_left, List.drop_left]
                rfl

/-- **Step lemma**: the buffer does what the queue of items does. -/
theorem call_holds {b : Buffer} {q : List WireItem} {c : WireCall} {r : BufferAnswer × _}
    (hb : Holds b q) (h : call q c = some r) :
    ∃ b', b.call c.call = some (r.1, b') ∧ Holds b' r.2 := by
  obtain ⟨a, q'⟩ := r
  have hroom : c.call.prepended ≤ b.prependableBytes := by
    rcases c with ⟨_ | _⟩ | ⟨_ | _⟩ <;> exact Nat.zero_le _
  have hf := (Buffer.call_follows b c.call hroom).answer
  rw [hb, call_wire h] at hf
  obtain ⟨⟨a', b'⟩, hb', heq⟩ := Option.map_eq_some_iff.mp hf
  obtain ⟨rfl, hread⟩ := Prod.mk.inj heq
  exact ⟨b', hb', hread⟩

end WireQueue

/-- **What is written is what is read**: in any order of writing and reading in which each read
asks for the kind of the oldest item, the buffer gives that item, no assertion fails, and the
buffer holds the items that are not yet read. -/
theorem wireItems (initialSize : ℕ) {cs : List WireCall} {r : List BufferAnswer × List WireItem}
    (h : calls WireQueue.call [] cs = some r) :
    ∃ b, calls Buffer.call (Buffer.new initialSize) (cs.map WireCall.call) = some (r.1, b) ∧
      b.readable = r.2.flatMap WireItem.wire := by
  have hnew : WireQueue.Holds (Buffer.new initialSize) [] := Buffer.readable_new initialSize
  have hstep : ∀ b q c r, WireQueue.Holds b q → WireQueue.call q c = some r →
      ∃ b', b.call c.call = some (r.1, b') ∧ WireQueue.Holds b' r.2 :=
    fun _ _ _ _ => WireQueue.call_holds
  rw [calls_comap]
  exact calls_simulation hstep hnew h

theorem wireItems_interleaved :
    ∃ b, calls Buffer.call (Buffer.new 4)
        ([.put (.number (.int64 (-2))), .put (.string [104, 105]), .get (.number .int64),
          .put (.number (.int16 513)), .get (.string 2)].map WireCall.call) =
        some ([.done, .done, .number (.int64 (-2)), .done, .string [104, 105]], b) ∧
      b.readable = [2, 1] :=
  wireItems 4 (r := (_, [.number (.int16 513)])) (by decide)

end NetworkStructure
