import Mathlib.Logic.Function.Iterate
import NetworkStructure.TcpStream

/-! # What is buffered gets out

The buffered data of a connection is written when the socket becomes writable, as much at a time
as the kernel takes.  Where it takes something each time, as many writable events as there are
bytes are enough, unless an earlier write failed with `EPIPE` or `ECONNRESET`: all that was ever
sent has been written then, the channel does not ask for writable events any more, and a connection
that is being shut down half-closes, as the last thing that it does (`writesOut`). -/

namespace NetworkStructure
namespace LoopConn

variable {l m : LoopConn} {k n : ℕ}

/-- The kernel takes at least a byte in each of the next `k` writes. -/
def Takes (k : ℕ) (l : LoopConn) : Prop :=
  k ≤ l.conn.socket.length ∧ ∀ r ∈ l.conn.socket.take k, ∃ n, r = .wrote (n + 1)

theorem Takes.tail (h : Takes (k + 1) l) (hs : m.conn.socket = l.conn.socket.tail) : Takes k m := by
  obtain ⟨hlen, hans⟩ := h
  cases hl : l.conn.socket with
  | nil =>
      rw [hl] at hlen
      cases hlen
  | cons r rs =>
      rw [hl] at hlen hans hs
      refine ⟨hs ▸ Nat.le_of_succ_le_succ hlen, fun r' hr => hans r' ?_⟩
      rw [hs] at hr
      exact List.mem_cons_of_mem r hr

/-- What the kernel answers to the next write of something. -/
theorem Takes.writeResult (h : Takes (k + 1) l) {len : ℕ} (hlen : 0 < len) :
    ∃ v, l.writeResult len = .wrote v ∧ 0 < v ∧ v ≤ len := by
  obtain ⟨hk, hans⟩ := h
  cases hl : l.conn.socket with
  | nil =>
      rw [hl] at hk
      cases hk
  | cons r rs =>
      rw [hl] at hans
      obtain ⟨n, rfl⟩ := hans r List.mem_cons_self
      refine ⟨min (n + 1) len, by rw [LoopConn.writeResult, hl]; rfl, ?_, Nat.min_le_right ..⟩
      exact Nat.lt_min.mpr ⟨Nat.succ_pos n, hlen⟩

theorem handleWrite_of_not_isWriting (h : l.conn.channel_.isWriting = false) :
    l.handleWrite = l := by
  unfold handleWrite
  rw [h]
  rfl

theorem handleWrites_of_not_isWriting (h : l.conn.channel_.isWriting = false) (k : ℕ) :
    handleWrite^[k] l = l := by
  induction k with
  | zero => rfl
  | succ k ih => rw [Function.iterate_succ_apply, handleWrite_of_not_isWriting h, ih]

/-- The end of the data: a connection that is being shut down half-closes. -/
theorem writesOut_log (h0 : l.conn.outputBuffer_.readable = [])
    (hs : l.conn.state_ = .kDisconnecting) :
    l.drained.conn.log = l.conn.log ++ [.shutdownWrite []] := by
  obtain ⟨d, hd⟩ : ∃ d, d = (l.channelSet .disableWriting).queueWriteComplete := ⟨_, rfl⟩
  have hconn : d.conn = (l.channelSet .disableWriting).conn := by rw [hd, queueWriteComplete_conn]
  have hstate : d.conn.state_ = .kDisconnecting := by rw [hconn, channelSet_state_, hs]
  have hoff : d.conn.channel_.isWriting = false := by
    rw [hconn, isWriting_channelSet (l := l) (i := .disableWriting) rfl]
    rfl
  have hbuf : d.conn.outputBuffer_.readable = [] := by
    rw [hconn, channelSet_outputBuffer_, h0]
  have hlog : d.conn.log = l.conn.log := by rw [hconn, channelSet_log]
  unfold drained
  dsimp only
  rw [← hd, if_pos hstate, shutdownInLoop, if_neg (by rw [hoff]; decide), record_log, hbuf, hlog]

/-- A writable event takes something out of the buffer, and half-closes where it was the last. -/
theorem handleWrite_takes (hb : Buffering l) (hw : l.conn.channel_.isWriting = true)
    (h : Takes (k + 1) l) :
    l.handleWrite.conn.outputBuffer_.readable.length < l.conn.outputBuffer_.readable.length ∧
      Takes k l.handleWrite ∧
      (l.handleWrite.conn.outputBuffer_.readable = [] → l.conn.state_ = .kDisconnecting →
        l.handleWrite.conn.log.getLast? = some (.shutdownWrite [])) := by
  have hne : l.conn.outputBuffer_.readable ≠ [] := hb.mp hw
  have hlen : 0 < l.conn.outputBuffer_.readable.length := List.length_pos_iff.mpr hne
  obtain ⟨v, hv, hpos, -⟩ := h.writeResult hlen
  have heq : l.handleWrite = (l.write l.conn.outputBuffer_.readable).retrieve v := by
    unfold handleWrite
    dsimp only
    rw [if_pos hw, hv]
    exact if_neg (Nat.ne_of_gt hpos)
  obtain ⟨-, -, hread, hsock⟩ := stream_retrieve (l := l.write l.conn.outputBuffer_.readable) v
  rw [heq]
  refine ⟨?_, h.tail hsock, fun hnil hs => ?_⟩
  · rw [hread, List.length_drop]
    exact Nat.sub_lt hlen hpos
  · rw [hread] at hnil
    obtain ⟨e, he⟩ : ∃ e, e = (l.write l.conn.outputBuffer_.readable).setOutputBuffer
        ((l.write l.conn.outputBuffer_.readable).conn.outputBuffer_.retrieve v) := ⟨_, rfl⟩
    have hempty : e.conn.outputBuffer_.readable = [] := by
      rw [he, setOutputBuffer_outputBuffer_, Buffer.readable_retrieve, hnil]
    have hstate : e.conn.state_ = .kDisconnecting := by rw [he]; exact hs
    unfold retrieve
    dsimp only
    rw [← he, if_pos (Buffer.readable_eq_nil.mp hempty), writesOut_log hempty hstate,
      List.getLast?_append]
    rfl

/-- All that is in the buffer gets out. -/
structure WrittenOut (l m : LoopConn) : Prop where
  written : m.conn.written = l.conn.sent
  idle : m.conn.channel_.isWriting = false
  halfClosed : l.conn.channel_.isWriting = true → l.conn.state_ = .kDisconnecting →
    m.conn.log.getLast? = some (.shutdownWrite [])

theorem writtenOut_of_empty (hi : Inv l) (hst : StreamOk l) (hup : l.conn.state_ ≠ .kDisconnected)
    (h0 : l.conn.outputBuffer_.readable = []) (k : ℕ) : WrittenOut l (handleWrite^[k] l) := by
  have hoff : l.conn.channel_.isWriting = false :=
    Bool.eq_false_iff.mpr fun hw => (hi.buffering hup).mp hw h0
  have hs := hst.stream hup
  rw [stream, h0, List.append_nil] at hs
  rw [handleWrites_of_not_isWriting hoff]
  exact ⟨hs, hoff, fun hw => absurd hw (Bool.eq_false_iff.mp hoff)⟩

theorem writtenOut (hi : Inv l) (hst : StreamOk l) (hup : l.conn.state_ ≠ .kDisconnected)
    (ht : Takes k l) (hk : l.conn.outputBuffer_.readable.length ≤ k) :
    WrittenOut l (handleWrite^[k] l) := by
  induction k generalizing l with
  | zero =>
      exact writtenOut_of_empty hi hst hup (List.eq_nil_of_length_eq_zero (Nat.le_zero.mp hk)) 0
  | succ k ih =>
      by_cases h0 : l.conn.outputBuffer_.readable = []
      · exact writtenOut_of_empty hi hst hup h0 (k + 1)
      · have hw : l.conn.channel_.isWriting = true := (hi.buffering hup).mpr h0
        obtain ⟨hless, htakes, hlast⟩ := handleWrite_takes (hi.buffering hup) hw ht
        have hi' := inv_step hi .handleWrite
        have hst' := streamOk_step hi.buffering hst .handleWrite
        have hup' : l.handleWrite.conn.state_ ≠ .kDisconnected := by rwa [handleWrite_state_]
        obtain ⟨hwritten, hidle, hhalf⟩ :=
          ih hi' hst' hup' htakes (Nat.le_of_lt_succ (Nat.lt_of_lt_of_le hless hk))
        rw [Function.iterate_succ_apply]
        refine ⟨hwritten.trans sent_handleWrite, hidle, fun _ hs => ?_⟩
        by_cases h0' : l.handleWrite.conn.outputBuffer_.readable = []
        · -- the rest of the events find nothing to do
          have hoff : l.handleWrite.conn.channel_.isWriting = false :=
            Bool.eq_false_iff.mpr fun hw' => (hi'.buffering hup').mp hw' h0'
          rw [handleWrites_of_not_isWriting hoff]
          exact hlast h0' hs
        · exact hhalf ((hi'.buffering hup').mpr h0') (by rwa [handleWrite_state_])

end LoopConn

open LoopConn

/-- **What is buffered gets out**: where no write on the connection fails with `EPIPE` or
`ECONNRESET` (what `sendInLoop` then does not buffer is given up), from any state of an established
connection that is not disconnected, as many writable events as there are bytes in the buffer write
all that was ever sent, if the kernel takes something in each, and they turn the writable events
off; if the connection was being shut down, they end with the half-close. -/
theorem writesOut {l m : LoopConn} (hnew : New l) (hsocket : SocketOk l) {as : List ConnAction}
    (run : Run ConnStep l.establish as m) (hup : m.conn.state_ ≠ .kDisconnected) {k : ℕ}
    (hk : m.conn.outputBuffer_.readable.length ≤ k) (ht : Takes k m) :
    WrittenOut m (handleWrite^[k] m) := by
  obtain ⟨hinv, hst⟩ := Run.invariant (I := fun l => Inv l ∧ StreamOk l)
    (fun _ _ _ h hs => ⟨inv_step h.1 hs, streamOk_step h.1.buffering h.2 hs⟩) run
    ⟨inv_establish hnew, streamOk_establish hnew hsocket⟩
  exact writtenOut hinv hst hup ht hk

/-- Three bytes are sent, of which the kernel takes one, and the connection is shut down; two
writable events later the rest is written and the socket half-closed. -/
theorem writesOut_shutdown :
    ∃ m : LoopConn, m.conn.written = [1] ∧ m.conn.state_ = .kDisconnecting ∧
      (handleWrite^[2] m).conn.written = [1, 2, 3] ∧ WrittenOut m (handleWrite^[2] m) := by
  refine ⟨_, ?_, ?_, ?_, writesOut
    (l := ⟨{ threadId_ := 0 }, 0, 0, .new [] 5 false [.wrote 1, .wrote 1, .wrote 7]⟩)
    ⟨⟨_, _, _, _, rfl⟩, rfl, rfl⟩ ⟨by decide, by decide⟩
    (.cons (.member (.send [1, 2, 3])) (.cons (.member .shutdown) (.nil _))) (by decide +kernel)
    (by decide +kernel) ⟨by decide +kernel, ?_⟩⟩
  · decide +kernel
  · decide +kernel
  · decide +kernel
  · intro r hr
    have hm : r ∈ [WriteResult.wrote 1, .wrote 7] := hr
    rcases List.mem_pair.mp hm with rfl | rfl
    · exact ⟨0, rfl⟩
    · exact ⟨6, rfl⟩

end NetworkStructure
