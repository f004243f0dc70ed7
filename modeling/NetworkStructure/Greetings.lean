import Mathlib.Algebra.BigOperators.Group.Finset.Basic
import Mathlib.Algebra.BigOperators.Intervals
import NetworkStructure.AdmissionRuns
import NetworkStructure.Messages
import NetworkStructure.TcpStream

/-! # The greetings of a MyServer

Every message that a client sends, be it the host or not, is answered with one greeting to the
host.  Over a whole run the data given to `send` is counted (`greetings`): the host has been sent
as many greetings as all connections have delivered messages, no other connection has been sent
anything, and not a byte has been written to its socket.

The handlers other than `onMessage` send nothing (`Kept`).  That `onMessage` always sends once it
has found the host is a matter of the host being known to the application: it has come up before
(`Admission.HostUp`). -/

namespace NetworkStructure

namespace TcpConnection

/-- What has been given to `send`, call by call. -/
def sends (t : TcpConnection) : List (List UInt8) :=
  t.log.filterMap fun | .send data => some data | _ => none

/-- Nothing is or will be written unless it is sent. -/
structure Silent (t : TcpConnection) : Prop where
  written : t.written = []
  buffered : t.outputBuffer_.readable = []

/-- Nothing is sent, and what was silent is. -/
structure Kept (t t' : TcpConnection) : Prop where
  sends : t'.sends = t.sends
  silent : t.Silent → t'.Silent

namespace Kept

variable {t t' t'' : TcpConnection} {l : LoopConn}

theorem refl : t.Kept t := ⟨rfl, id⟩

theorem trans (h₁ : t.Kept t') (h₂ : t'.Kept t'') : t.Kept t'' :=
  ⟨h₂.sends.trans h₁.sends, fun h => h₂.silent (h₁.silent h)⟩

theorem of_log (hl : t'.log = t.log) (hb : t'.outputBuffer_ = t.outputBuffer_) : t.Kept t' := by
  refine ⟨by rw [TcpConnection.sends, hl]; rfl, fun h => ⟨?_, hb ▸ h.buffered⟩⟩
  rw [written, hl]
  exact h.written

/-- An event that is neither a `send` nor a `write`. -/
theorem record (h : t.Kept l.conn) {e : ConnEvent} (hs : ∀ data, e ≠ .send data)
    (hw : ∀ bytes, e ≠ .write bytes) : t.Kept (l.record e).conn := by
  refine h.trans ⟨?_, fun hl => ⟨?_, hl.buffered⟩⟩
  · cases e with
    | send data => exact absurd rfl (hs data)
    | _ => simp [TcpConnection.sends]
  · cases e with
    | write bytes => exact absurd rfl (hw bytes)
    | _ => simpa [TcpConnection.written] using hl.written

theorem setState (h : t.Kept l.conn) (s : StateE) : t.Kept (l.setState s).conn :=
  h.trans ⟨by simp [TcpConnection.sends], fun hl =>
    ⟨by simpa [TcpConnection.written] using hl.written, hl.buffered⟩⟩

/-- Of what is buffered. -/
theorem write (h : t.Kept l.conn) : t.Kept (l.write l.conn.outputBuffer_.readable).conn := by
  refine h.trans ⟨by simp [TcpConnection.sends], fun hl => ⟨?_, hl.buffered⟩⟩
  have ht : l.taken [] = [] := by
    unfold LoopConn.taken
    split
    · exact List.take_nil
    · rfl
  rw [LoopConn.written_write, hl.written, hl.buffered, ht]
  rfl

theorem queueWriteComplete (h : t.Kept l.conn) : t.Kept l.queueWriteComplete.conn := by
  rwa [LoopConn.queueWriteComplete_conn]

theorem shutdownInLoop (h : t.Kept l.conn) : t.Kept l.shutdownInLoop.conn := by
  unfold LoopConn.shutdownInLoop
  split
  · exact h
  · exact h.record nofun nofun

theorem shutdown (h : t.Kept l.conn) : t.Kept l.shutdown.conn := by
  unfold LoopConn.shutdown
  split
  · split
    · exact (h.setState .kDisconnecting).shutdownInLoop
    · exact h.setState .kDisconnecting
  · exact h

theorem forceClose (h : t.Kept l.conn) : t.Kept l.forceClose.conn := by
  unfold LoopConn.forceClose
  split
  · exact h.setState .kDisconnecting
  · exact h

theorem drained (h : t.Kept l.conn) : t.Kept l.drained.conn := by
  have hq : t.Kept (l.channelSet .disableWriting).queueWriteComplete.conn :=
    queueWriteComplete (h.trans (of_log rfl rfl))
  unfold LoopConn.drained
  dsimp only
  split
  · exact hq.shutdownInLoop
  · exact hq

theorem retrieve (h : t.Kept l.conn) (n : ℕ) : t.Kept (l.retrieve n).conn := by
  have hb : t.Kept (l.setOutputBuffer (l.conn.outputBuffer_.retrieve n)).conn := by
    refine h.trans ⟨rfl, fun hl => ⟨hl.written, ?_⟩⟩
    rw [LoopConn.setOutputBuffer_outputBuffer_, Buffer.readable_retrieve, hl.buffered]
    exact List.drop_nil
  unfold LoopConn.retrieve
  dsimp only
  split
  · exact hb.drained
  · exact hb

theorem handleWrite (h : t.Kept l.conn) : t.Kept l.handleWrite.conn := by
  unfold LoopConn.handleWrite
  dsimp only
  split
  · split
    · split
      · exact h.write
      · exact h.write.retrieve _
    · exact h.write
  · exact h

theorem establish (h : t.Kept l.conn) : t.Kept l.establish.conn :=
  (h.setState .kConnected).trans (of_log rfl rfl)

theorem disconnect (h : t.Kept l.conn) : t.Kept l.disconnect.conn :=
  (h.setState .kDisconnected).trans (of_log rfl rfl)

theorem channelRemove (h : t.Kept l.conn) : t.Kept l.channelRemove.conn :=
  h.trans (of_log rfl rfl)

end Kept

theorem sends_send (l : LoopConn) (data : List UInt8) :
    (l.send data).conn.sends = l.conn.sends ++ [data] := by
  have hrec : (l.record (.send data)).conn.sends = l.conn.sends ++ [data] := by
    simp [sends]
  have hwrite : ∀ bytes, ((l.record (.send data)).write bytes).conn.sends =
      l.conn.sends ++ [data] := fun bytes => by simp [sends]
  have happend : ∀ (m : LoopConn) r, (m.appendRemaining r).conn.sends = m.conn.sends :=
    fun m r => by rw [sends, LoopConn.appendRemaining_log]; rfl
  unfold LoopConn.send LoopConn.sendInLoop
  split
  · exact hrec
  · split
    · split
      · split
        · rw [LoopConn.queueWriteComplete_conn, hwrite]
        · rw [happend, hwrite]
      · split
        · exact hwrite data
        · rw [happend, hwrite]
    · rw [happend, hrec]

end TcpConnection

/-! ### The handlers that send nothing -/

variable {w w' w'' : World MyServer} {c d : ConnId} {a : ServerAction}

def Unsent (w w' : World MyServer) : Prop := ∀ d, (w.conns d).Kept (w'.conns d)

/-- The call is no `send`. -/
def ApiCall.Quiet (a : ApiCall) : Prop := ∀ c data, a ≠ .member c (.send data)

namespace Unsent

theorem refl : Unsent w w := fun _ => .refl

theorem trans (h₁ : Unsent w w') (h₂ : Unsent w' w'') : Unsent w w'' :=
  fun d => (h₁ d).trans (h₂ d)

theorem onConn (h : Unsent w w') {f : LoopConn → LoopConn}
    (hf : ∀ {t : TcpConnection} {l : LoopConn}, t.Kept l.conn → t.Kept (f l).conn) :
    Unsent w (w'.onConn d f) := by
  intro e
  rw [World.onConn]
  by_cases hed : e = d
  · subst hed
    rw [setConn_conns_self]
    exact hf (l := w'.atConn e) (h e)
  · rw [setConn_conns_ne hed]
    exact h e

theorem call (h : Unsent w w') {a : ApiCall} (ha : a.Quiet) :
    Ensures (Unsent w) (fun _ => True) (w'.call a) := by
  cases a with
  | queueInLoop n => exact h
  | member conn a =>
      cases conn with
      | none => trivial
      | some d =>
          simp only [World.call, ensures_ok]
          split
          · refine h.onConn fun hl => ?_
            cases a with
            | send data => exact absurd rfl (ha (some d) data)
            | shutdown => exact hl.shutdown
            | forceClose => exact hl.forceClose
          · exact h

theorem callback (h : Unsent w w') {cb : Callback MyServer}
    (hcb : ∀ a ∈ (cb w'.user w'.conns).2, a.Quiet) :
    Ensures (Unsent w) (fun _ => True) (w'.callback cb) :=
  ensures_foldlM (I := Unsent w) (fun _ h a ha => h.call (hcb a ha)) h

theorem connectionCallback (h : Unsent w w') :
    Ensures (Unsent w) (fun _ => True) (w'.connectionCallback MyServer.application c) := by
  have hrec : Unsent w (w'.onConn c fun l => l.record (.connectionCallback l.conn.connected)) :=
    h.onConn fun hl => hl.record (fun _ he => by cases he) fun _ he => by cases he
  refine hrec.callback ?_
  simp only [MyServer.application, MyServer.onConnection]
  split
  · split
    · intro a ha
      rcases List.mem_pair.mp ha with rfl | rfl <;> (intro d data he; cases he)
    · exact fun _ ha => absurd ha List.not_mem_nil
  · exact fun _ ha => absurd ha List.not_mem_nil

theorem disconnect (h : Unsent w w') : Ensures (Unsent w) (fun _ => True)
    ((w'.onConn c (·.disconnect)).connectionCallback MyServer.application c) :=
  (h.onConn fun hl => hl.disconnect).connectionCallback

theorem connectEstablished (h : Unsent w w') :
    Ensures (Unsent w) (fun _ => True) (w'.connectEstablished MyServer.application c) := by
  unfold World.connectEstablished
  split
  · exact (h.onConn fun hl => hl.establish).connectionCallback
  · trivial

theorem removeConnection (h : Unsent w w') : Unsent w (w'.removeConnection c) := by
  unfold World.removeConnection
  split <;> exact h

theorem handleClose (h : Unsent w w') :
    Ensures (Unsent w) (fun _ => True) (w'.handleClose MyServer.application c) := by
  unfold World.handleClose
  split
  · refine h.disconnect.bind fun w₁ h₁ => ?_
    exact removeConnection (h₁.onConn fun hl => hl.record nofun nofun)
  · exact h

theorem connectDestroyed (h : Unsent w w') :
    Ensures (Unsent w) (fun _ => True) (w'.connectDestroyed MyServer.application c) := by
  unfold World.connectDestroyed
  refine Ensures.bind (P := Unsent w) ?_ fun w₁ h₁ =>
    h₁.onConn fun hl => hl.channelRemove.record nofun nofun
  split
  · exact h.disconnect
  · exact h

theorem runFunctor (h : Unsent w w') (f : PendingFunctor) :
    Ensures (Unsent w) (fun _ => True) (w'.runFunctor MyServer.application f) := by
  cases f with
  | connectEstablished c => exact h.connectEstablished
  | connectDestroyed c => exact h.connectDestroyed
  | forceCloseInLoop c => exact h.handleClose
  | shutdownInLoop c =>
      rw [World.runFunctor]
      split
      · trivial
      · exact h.onConn fun hl => hl.shutdownInLoop
  | user n => exact h.callback fun _ ha => absurd ha List.not_mem_nil
  | removeConnectionInLoop c | writeCompleteCallback c | highWaterMarkCallback c n => exact h

theorem destroy (h : Unsent w w') : Unsent w (w'.destroy c) := by
  refine h.trans fun d => ?_
  by_cases hdc : d = c
  · subst hdc
    refine .of_log ?_ ?_ <;> simp [World.destroy]
  · simp [World.destroy, hdc, TcpConnection.Kept.refl]

end Unsent

/-! ### The message callback -/

/-- The host, if there is one, is sent `n` greetings, and nobody else is sent anything. -/
structure Greets (n : ℕ) (w w' : World MyServer) : Prop where
  sends : ∀ d, (w'.conns d).sends = (w.conns d).sends ++
    if w.user.hostPtr_ = some d then List.replicate n MyServer.hello else []
  silent : ∀ d, w.user.hostPtr_ ≠ some d → (w.conns d).Silent → (w'.conns d).Silent

theorem Unsent.greets (h : Unsent w w') : Greets 0 w w' where
  sends d := by rw [(h d).sends, List.replicate_zero, ite_self, List.append_nil]
  silent d _ := (h d).silent

theorem Greets.trans {n : ℕ} (h₁ : Unsent w w') (hu : w'.user.hostPtr_ = w.user.hostPtr_)
    (h₂ : Greets n w' w'') : Greets n w w'' where
  sends d := by rw [h₂.sends, (h₁ d).sends, hu]
  silent d hd hs := h₂.silent d (hu ▸ hd) ((h₁ d).silent hs)

theorem Greets.trans_unsent {n : ℕ} (h₁ : Greets n w w') (h₂ : Unsent w' w'') :
    Greets n w w'' where
  sends d := by rw [(h₂ d).sends, h₁.sends]
  silent d hd hs := (h₂ d).silent (h₁.silent d hd hs)

/-- The application knows the host, unless it is gone. -/
def World.HostKnown (w : World MyServer) : Prop :=
  ∀ h, w.user.hostPtr_ = some h → h < w.created ∧ (w.conns h).state_ ≠ .kConnecting

theorem callback_onMessage_greets (hk : w.HostKnown) :
    Ensures (Greets 1 w) (fun _ => True) (w.callback MyServer.onMessage) := by
  unfold World.callback MyServer.onMessage
  cases hl : w.user.lock w.conns with
  | none => simp [World.call]
  | some host =>
      obtain ⟨hhost, hd⟩ := Option.filter_eq_some_iff.mp hl
      obtain ⟨hc, hs⟩ := hk host hhost
      have hknows : w.knows host = true := by
        simp [World.knows, hc, hs, Bool.not_eq_true' _ ▸ hd]
      simp only [List.foldlM_cons, List.foldlM_nil, World.call, hknows, if_true]
      constructor
      · intro d
        by_cases hdh : d = host
        · subst hdh
          rw [if_pos hhost, World.onConn, setConn_conns_self]
          exact TcpConnection.sends_send _ _
        · rw [if_neg fun he => hdh (Option.some.inj (he.symm.trans hhost)), World.onConn,
            setConn_conns_ne hdh, List.append_nil]
      · intro d hne hs
        have hdh : d ≠ host := fun he => hne (he ▸ hhost)
        rw [World.onConn, setConn_conns_ne hdh]
        exact hs

/-! ### Events -/

theorem Closing.hostPtr_ (h : Closing w w' c) : w'.user.hostPtr_ = w.user.hostPtr_ := by
  rcases h with h | ⟨-, h⟩
  · rw [h.user]
  · rw [h.user]
    rfl

theorem Closing.hostKnown (h : Closing w w' c) (hk : w.HostKnown) : w'.HostKnown := by
  intro host hhost
  obtain ⟨hc, hs⟩ := hk host (h.hostPtr_ ▸ hhost)
  rcases h with h | ⟨-, h⟩
  · exact ⟨(h 0).same.created ▸ hc, h.state_ host ▸ hs⟩
  · refine ⟨h.same.created ▸ hc, ?_⟩
    rw [h.state_]
    split
    · decide
    · exact hs

/-- Reading, after what may have been a hang-up. -/
theorem Closing.handleRead_greets (h : Closing w w' c) (hu : Unsent w w') (hk : w.HostKnown)
    (revents : Mask) (read : Option (List UInt8)) :
    Ensures (Greets (World.delivered revents read).length w) (fun _ => True)
      (if World.readable revents then w'.handleRead MyServer.application c read else .ok w') := by
  unfold World.delivered
  split
  · match read with
    | none => exact hu.greets
    | some [] => exact hu.handleClose.mono (fun _ h => h.greets) fun _ he => he
    | some (b :: data) =>
        have hr : Unsent w (w'.onConn c (·.record (.messageCallback ((b :: data).take 1024)))) :=
          hu.onConn fun hl => hl.record nofun nofun
        have hc : Calm w' (w'.onConn c (·.record (.messageCallback ((b :: data).take 1024)))) :=
          calm_setConn (LoopConn.plain_record _)
        have hm := h.trans_calm hc
        exact (callback_onMessage_greets (hm.hostKnown hk)).mono
          (fun _ hg => Greets.trans hr hm.hostPtr_ hg) fun _ he => he
  · exact hu.greets

theorem handleEventWithGuard_greets (hk : w.HostKnown) (revents : Mask)
    (read : Option (List UInt8)) :
    Ensures (Greets (World.delivered revents read).length w) (fun _ => True)
      (w.handleEventWithGuard MyServer.application c revents read) := by
  obtain ⟨w₁, hw₁, h₁, hu₁⟩ : ∃ w₁, (if World.hangup revents then
      w.handleClose MyServer.application c else .ok w) = .ok w₁ ∧ Closing w w₁ c ∧
      Unsent w w₁ := by
    split
    · obtain ⟨w₁, hw₁, h₁⟩ := Closing.handleClose (.inl (Calm.rfl (w := w)) : Closing w w c)
      exact ⟨w₁, hw₁, h₁, (Unsent.refl.handleClose (c := c)).of_ok hw₁⟩
    · exact ⟨w, rfl, .inl .rfl, .refl⟩
  rw [World.handleEventWithGuard, hw₁]
  refine (h₁.handleRead_greets hu₁ hk revents read).bind fun w₂ h₂ => ?_
  rw [ensures_ok]
  split
  · exact h₂.trans_unsent (Unsent.refl.onConn fun hl => hl.handleWrite)
  · exact h₂

/-! ### The host comes up before it is greeted -/

namespace Admission

variable {a a' : Admission} {c : ConnId} {K : ℕ}

/-- There is one host at most, and it has come up. -/
structure HostUp (a : Admission) : Prop where
  flag : a.user.hostPtr_ ≠ none → a.user.flag = false
  up : ∀ h, a.user.hostPtr_ = some h → a.state h ≠ .kConnecting

/-- The host stays the host. -/
def SameHost (a a' : Admission) : Prop :=
  ∀ h, a.user.hostPtr_ = some h → a'.user.hostPtr_ = some h

theorem HostUp.setState (h : a.HostUp) {s : StateE} (hs : s ≠ .kConnecting) :
    ({ a with state := Function.update a.state c s }).HostUp where
  flag := h.flag
  up d hd := by
    show Function.update a.state c s d ≠ .kConnecting
    rw [Function.update_apply]
    split
    · exact hs
    · exact h.up d hd

theorem HostUp.insert (h : a.HostUp) (hg : a.Gate) : a.insert.HostUp := by
  have hs : Function.update a.state a.created .kConnecting = a.state := hg.insert_state
  rw [Admission.insert, hs]
  exact { h with }

theorem HostUp.comeUp (h : a.HostUp) (c : ConnId) (fs : List PendingFunctor) :
    (a.up c fs).HostUp ∧ a.SameHost (a.up c fs) := by
  have hu := a.user.up_hostPtr_ c (a.others c)
  have hf := a.user.up_flag c (a.others c)
  unfold Admission.up
  split
  · next hfull =>
    rw [if_pos hfull] at hu hf
    have hs := h.setState (c := c) (s := .kDisconnecting) (by decide)
    exact ⟨⟨fun hn => hf.trans (h.flag (hu ▸ hn)), fun d hd => hs.up d (hu ▸ hd)⟩,
      fun d hd => hu.trans hd⟩
  · next hfull =>
    rw [if_neg hfull] at hu hf
    have hs := h.setState (c := c) (s := .kConnected) (by decide)
    refine ⟨⟨fun _ => hf, fun d hd => ?_⟩, fun d hd => ?_⟩
    · rw [hu] at hd
      split at hd
      · cases hd
        show Function.update a.state c .kConnected c ≠ .kConnecting
        rw [Function.update_self]
        decide
      · exact hs.up d hd
    · have hflag : a.user.flag = false := h.flag (by rw [hd]; exact Option.some_ne_none d)
      rw [hflag] at hu
      exact hu.trans hd

theorem HostUp.close (h : a.HostUp) (c : ConnId) (f : PendingFunctor) :
    (a.close c f).HostUp ∧ a.SameHost (a.close c f) := by
  unfold Admission.close
  split
  · have hs := h.setState (c := c) (s := .kDisconnected) (by decide)
    exact ⟨⟨hs.flag, hs.up⟩, fun _ hd => hd⟩
  · exact ⟨h, fun _ hd => hd⟩

theorem HostUp.move (h : a.HostUp) (hg : a.Gate) (hm : Move a a') :
    a'.HostUp ∧ a.SameHost a' := by
  cases hm with
  | pass _ | swap _ | take _ _ _ | push _ => exact ⟨⟨h.flag, h.up⟩, fun _ hd => hd⟩
  | accept _ _ _ => exact ⟨⟨h.flag, (h.insert hg).up⟩, fun _ hd => hd⟩
  | acceptUp _ _ _ _ => exact (h.insert hg).comeUp _ _
  | @establish c rest fs _ _ _ _ =>
      exact HostUp.comeUp (a := { a with rest := rest }) ⟨h.flag, h.up⟩ c fs
  | @forceClose c rest f _ _ _ =>
      exact HostUp.close (a := { a with rest := rest }) ⟨h.flag, h.up⟩ c f
  | close _ _ => exact h.close _ _

theorem HostUp.moves (h : a.HostUp) (hF : a.Fair K) (hm : a.Moves a') :
    a'.HostUp ∧ a.SameHost a' := by
  induction hm with
  | refl => exact ⟨h, fun _ hd => hd⟩
  | tail hm hstep ih =>
      obtain ⟨h₁, hs₁⟩ := ih
      obtain ⟨h₂, hs₂⟩ := h₁.move (hF.moves hm).gate hstep
      exact ⟨h₂, fun d hd => hs₂ d (hs₁ d hd)⟩

end Admission

theorem Served.hostKnown {K : ℕ} (h : Served K w) (hh : w.admission.HostUp) : w.HostKnown := by
  intro host hhost
  have hs := hh.up host hhost
  refine ⟨?_, hs⟩
  by_contra hlt
  exact hs (h.fair.gate.unborn host (Nat.le_of_not_lt hlt))

/-! ### What is received -/

namespace World

/-- How many messages all connections have delivered. -/
def received (w : World MyServer) : ℕ :=
  ∑ d ∈ Finset.range w.created, (w.conns d).messages.length

/-- How many messages the step delivers. -/
def heard (w : World MyServer) (a : ServerAction) : ℕ :=
  match w.handled a with
  | some (_, revents, read) => (delivered revents read).length
  | none => 0

end World

theorem received_of_messages (hc : w'.created = w.created)
    (hm : ∀ d, (w'.conns d).messages = (w.conns d).messages) : w'.received = w.received := by
  unfold World.received
  rw [hc]
  exact Finset.sum_congr rfl fun d _ => by rw [hm]

theorem received_insertConnection (fd : Fd) (socket : List WriteResult) :
    (w.insertConnection MyServer.application fd socket).received = w.received := by
  have hnew : ((w.insertConnection MyServer.application fd socket).conns w.created).messages =
      [] := by
    rw [TcpConnection.messages, insertConnection_log_self]
    rfl
  have hold : ∀ d ∈ Finset.range w.created,
      ((w.insertConnection MyServer.application fd socket).conns d).messages.length =
        (w.conns d).messages.length := fun d hd => by
    have hne : d ≠ w.created := Nat.ne_of_lt (Finset.mem_range.mp hd)
    simp [World.insertConnection, hne]
  show ∑ d ∈ Finset.range (w.created + 1), _ = _
  rw [Finset.sum_range_succ, hnew, List.length_nil, Nat.add_zero, Finset.sum_congr rfl hold]
  rfl

theorem received_got {ms : List (List UInt8)} (hc : c < w.created)
    (hcr : w'.created = w.created) (hg : Got c ms w w') :
    w'.received = w.received + ms.length := by
  have hlen : ∀ d, (w'.conns d).messages.length =
      (w.conns d).messages.length + if c = d then ms.length else 0 := fun d => by
    rw [hg d, List.length_append]
    by_cases hd : d = c
    · subst hd
      rw [if_pos rfl, if_pos rfl]
    · rw [if_neg hd, if_neg fun h => hd h.symm, List.length_nil]
  unfold World.received
  rw [hcr, Finset.sum_congr rfl fun d _ => hlen d, Finset.sum_add_distrib, Finset.sum_ite_eq,
    if_pos (Finset.mem_range.mpr hc)]

/-- A connection whose event is handled has been created. -/
theorem Served.handled_lt {K : ℕ} (h : Served K w) {revents : Mask}
    {read : Option (List UInt8)} (ha : w.handled a = some (c, revents, read)) :
    c < w.created := by
  obtain ⟨stage, hw, -⟩ := h.ok
  unfold World.handled at ha
  split at ha
  · next hp =>
    split at ha
    · cases ha
      exact (hw.active (.conn c, revents) (by simp [World.active, hp]) c rfl).1
    · cases ha
  · cases ha

/-- **Step lemma** for what is received. -/
theorem step_received {K : ℕ} (h : Served K w) {t : Except Fault (World MyServer)}
    (hs : World.Step MyServer.application w a t) :
    Ensures (fun w' => w'.received = w.received + w.heard a) (fun _ => True) t := by
  refine (step_histories hs).mono (fun w' hh => ?_) fun _ he => he
  cases hh with
  | hushed ha hh =>
      rw [World.heard, ha]
      exact received_of_messages hh.created hh.messages
  | @accepted p fd socket ha hh =>
      rw [World.heard, ha]
      exact (received_of_messages hh.created hh.messages).trans
        (received_insertConnection (w := { w with phase := p }) fd socket)
  | @handled c revents read p ha hh =>
      have hcr : w'.created = w.created := by
        obtain ⟨w₁, h₁, -, -, h₂⟩ := hh
        exact h₂.created.trans h₁.created
      rw [World.heard, ha]
      exact received_got (w := { w with phase := p }) (h.handled_lt ha) hcr hh.got

/-! ### Steps -/

/-- Where a step begins: the loop has moved on, or it has entered a new connection. -/
inductive Begun (w : World MyServer) : World MyServer → Prop
  | phase (p : Phase) : Begun w { w with phase := p }
  | loop {w' : World MyServer} (hc : w'.conns = w.conns) (hu : w'.user = w.user) : Begun w w'
  | insert (p : Phase) (fd : Fd) (socket : List WriteResult) :
      Begun w ({ w with phase := p }.insertConnection MyServer.application fd socket)

theorem begun_loop (hc : w'.conns = w.conns) (hu : w'.user = w.user) :
    ∃ w₀, Begun w w₀ ∧ Greets 0 w₀ w' := ⟨w', .loop hc hu, Unsent.refl.greets⟩

theorem newConnection_unsent (fd : Fd) (socket : List WriteResult) :
    Ensures (Unsent (w.insertConnection MyServer.application fd socket)) (fun _ => True)
      (w.newConnection MyServer.application fd socket) := by
  unfold World.newConnection
  split
  · trivial
  · split
    · exact Unsent.refl.connectEstablished
    · exact fun _ => .refl

/-- **Step lemma** for what is sent: the host gets a greeting for each message that is heard. -/
theorem step_greets (hk : w.HostKnown) {t : Except Fault (World MyServer)}
    (hs : World.Step MyServer.application w a t) :
    Ensures (fun w' => ∃ w₀, Begun w w₀ ∧ Greets (w.heard a) w₀ w') (fun _ => True) t := by
  cases hs with
  | @handleEvent channel revents rest accepted read hp ha =>
      cases channel with
      | wakeup =>
          have hn : w.heard (.handleEvent accepted read) = 0 := by
            simp [World.heard, World.handled, hp]
          rw [hn, World.handleEvent, ensures_ok]
          split <;> exact begun_loop rfl rfl
      | acceptor =>
          have hn : w.heard (.handleEvent accepted read) = 0 := by
            simp [World.heard, World.handled, hp]
          rw [hn]
          cases accepted with
          | none => exact begun_loop rfl rfl
          | some r =>
              simp only [World.handleEvent]
              split
              · exact (newConnection_unsent r.1 r.2).mono
                  (fun _ h => ⟨_, .insert _ r.1 r.2, h.greets⟩) fun _ he => he
              · exact begun_loop rfl rfl
      | conn c =>
          rw [World.handleEvent, World.handleConn]
          split
          · next hd =>
            have hn : w.heard (.handleEvent accepted read) = 0 := by
              simp [World.heard, World.handled, hp, show (w.conns c).destroyed = true from hd]
            rw [hn]
            split
            · exact begun_loop rfl rfl
            · trivial
          · next hd =>
            have hn : w.heard (.handleEvent accepted read) =
                (World.delivered revents read).length := by
              have hl : (w.conns c).destroyed = false := Bool.eq_false_iff.mpr hd
              simp [World.heard, World.handled, hp, hl]
            rw [hn]
            exact (handleEventWithGuard_greets (w := { w with phase := .handling rest }) hk revents
              read).mono (fun _ h => ⟨_, .phase _, h⟩) fun _ he => he
  | runFunctor hp =>
      exact (Unsent.refl.runFunctor _).mono (fun _ h => ⟨_, .phase _, h.greets⟩) fun _ he => he
  | @destroy c hl ho => exact ⟨w, .loop rfl rfl, (Unsent.refl.destroy (c := c)).greets⟩
  | poll | doPendingFunctors | endFunctors | queueInLoop => exact begun_loop rfl rfl

/-! ### Runs -/

/-- Every message has been answered with a greeting to the host, and nothing else has been sent. -/
structure World.GreetingsOk (w : World MyServer) : Prop where
  sends : ∀ d, (w.conns d).sends =
    if w.user.hostPtr_ = some d then List.replicate w.received MyServer.hello else []
  silent : ∀ d, w.user.hostPtr_ ≠ some d → (w.conns d).Silent
  early : w.user.hostPtr_ = none → w.received = 0

/-- The beginning of a step changes nothing of this. -/
theorem World.GreetingsOk.begun (h : w.GreetingsOk) (hk : w.HostKnown) (hb : Begun w w') :
    w'.user.hostPtr_ = w.user.hostPtr_ ∧
      (∀ d, (w'.conns d).sends =
        if w.user.hostPtr_ = some d then List.replicate w.received MyServer.hello else []) ∧
      ∀ d, w.user.hostPtr_ ≠ some d → (w'.conns d).Silent := by
  cases hb with
  | phase p => exact ⟨rfl, h.sends, h.silent⟩
  | loop hc hu => exact ⟨hu ▸ rfl, hc ▸ h.sends, hc ▸ h.silent⟩
  | insert p fd socket =>
      have hhost : w.user.hostPtr_ ≠ some w.created := fun he =>
        Nat.lt_irrefl _ (hk w.created he).1
      refine ⟨rfl, fun d => ?_, fun d hd => ?_⟩
      · by_cases hdc : d = w.created
        · subst hdc
          rw [if_neg hhost]
          simp [World.insertConnection, TcpConnection.new, TcpConnection.sends]
        · simpa [World.insertConnection, hdc] using h.sends d
      · by_cases hdc : d = w.created
        · subst hdc
          simp only [World.insertConnection, Function.update_self]
          exact ⟨rfl, Buffer.readable_new _⟩
        · simpa [World.insertConnection, hdc] using h.silent d hd

/-- A message is heard only where one is delivered. -/
theorem delivery_of_heard (h : w.heard a ≠ 0) : w.delivery a = true := by
  unfold World.heard World.handled at h
  unfold World.delivery
  split at h
  · next hh =>
    split at hh
    · next hp =>
      split at hh
      · cases hh
        simp only [hp, World.delivers, Bool.and_eq_true]
        unfold World.delivered at h
        split at h
        · next hr =>
          refine ⟨hr, ?_⟩
          split at h
          · rfl
          · exact absurd rfl h
        · exact absurd rfl h
      · cases hh
    · cases hh
  · exact absurd rfl h

theorem World.GreetingsOk.step {K : ℕ} (h : w.GreetingsOk) (hS : Served K w)
    (hh : w.admission.HostUp) (hs : World.Step MyServer.application w a (.ok w')) :
    w'.GreetingsOk ∧ w'.admission.HostUp := by
  have hk := hS.hostKnown hh
  have hmoves := step_moves hS.ok hS.noOutputCallbacks hs
  split at hmoves
  · cases hmoves
  · next hlock =>
    obtain ⟨hh', hsame⟩ := hh.moves hS.fair hmoves.1
    obtain ⟨w₀, hb, hg⟩ := (step_greets hk hs).of_ok rfl
    obtain ⟨hu, hsends, hsilent⟩ := h.begun hk hb
    have hrec : w'.received = w.received + w.heard a := (step_received hS hs).of_ok rfl
    refine ⟨?_, hh'⟩
    cases hhost : w.user.hostPtr_ with
    | none =>
        -- nobody has been heard, and the step may find the host
        have hheard : w.heard a = 0 := by
          by_contra hne
          exact hlock ⟨delivery_of_heard hne, by rw [MyServer.lock, hhost]; rfl⟩
        have hzero : w'.received = 0 := by rw [hrec, hheard, h.early hhost]
        refine ⟨fun d => ?_, fun d _ => hg.silent d ?_ (hsilent d ?_), fun _ => hzero⟩
        · rw [hg.sends, hsends, hheard, h.early hhost, hzero, List.replicate_zero, ite_self,
            ite_self, ite_self]
          rfl
        · rw [hu, hhost]
          exact Option.some_ne_none _ |>.symm
        · rw [hhost]
          exact Option.some_ne_none _ |>.symm
    | some host =>
        have hhost' : w'.user.hostPtr_ = some host := hsame host hhost
        refine ⟨fun d => ?_, fun d hd => hg.silent d ?_ (hsilent d ?_), fun hn => ?_⟩
        · rw [hg.sends, hsends, hu, hhost, hhost', hrec]
          by_cases hd : host = d
          · subst hd
            rw [if_pos rfl, if_pos rfl, if_pos rfl, List.replicate_append_replicate]
          · have hne : some host ≠ some d := fun he => hd (Option.some.inj he)
            rw [if_neg hne, if_neg hne, if_neg hne]
            rfl
        · rwa [hu, hhost, ← hhost']
        · rwa [hhost, ← hhost']
        · rw [hhost'] at hn
          cases hn

/-- **The greetings of a `MyServer`**: in every run the host has been sent one greeting for each
message that any connection has delivered, and nothing else; no other connection has been sent
anything, nor has a byte been written to its socket or kept for it. -/
theorem greetings {K : ℕ} {threadId_ me : ThreadId} {wakeupFd acceptFd : Fd} {hostport : IpPort}
    {name : List Char} {ls : List ServerAction}
    (run : Run (ServerStep MyServer.application) (.ok (World.init threadId_ me wakeupFd acceptFd
      hostport name { kMaxConnections_ := K })) ls (.ok w)) : w.GreetingsOk := by
  have h : Ensures (fun w => Served K w ∧ w.GreetingsOk ∧ w.admission.HostUp)
      (fun _ : Fault => True) (.ok w) := by
    refine Run.invariant ?_ run ⟨served_init K .., ⟨fun d => ?_, fun d _ => ?_, fun _ => rfl⟩,
      ⟨fun hn => absurd rfl hn, nofun⟩⟩
    · rintro s a t hs ⟨w, rfl, hstep, -⟩
      obtain ⟨hS, hG, hU⟩ := hs
      cases t with
      | error e => trivial
      | ok w' => exact ⟨(served_step hS hstep).of_ok rfl, hG.step hS hU hstep⟩
    · rfl
    · exact ⟨rfl, Buffer.readable_new _⟩
  exact (h.of_ok rfl).2.1

/-- Two clients: each sends a message, and the first one is greeted twice. -/
theorem greetings_two :
    ∃ w : World MyServer, ((w.conns 0).sends = [MyServer.hello, MyServer.hello] ∧
      w.received = 2) ∧ w.GreetingsOk := by
  obtain ⟨w, run, hr⟩ := World.exists_run_ok MyServer.application
    (fun w => (w.conns 0).sends = [MyServer.hello, MyServer.hello] ∧ w.received = 2)
    (.ok (World.init 1 2 3 4 ⟨[], by decide⟩ [] { kMaxConnections_ := (2 : ℕ) }))
    [.poll [(4, EPOLLIN)], .handleEvent (some (7, [])) none, .doPendingFunctors, .runFunctor,
      .endFunctors, .poll [(4, EPOLLIN), (7, EPOLLIN)], .handleEvent (some (8, [])) none,
      .handleEvent none (some [104]), .doPendingFunctors, .runFunctor, .endFunctors,
      .poll [(8, EPOLLIN)], .handleEvent none (some [105])] (by decide +kernel)
  exact ⟨w, hr, greetings run⟩

end NetworkStructure
