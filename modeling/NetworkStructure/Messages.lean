import NetworkStructure.ConnStages
import NetworkStructure.ConnStep

/-! # The messages of a connection

`messageCallback_` is invoked in one place, `handleRead`.  Every other call of a connection, of
the server or of the loop only adds events to the histories that are no messages, whatever the
application does in its callbacks, and notifications of the life cycle only to the history of the
connection it is about (`Hushed`).  `step_histories` says what a step of the process adds to the
histories, `step_messages` which messages. -/

namespace NetworkStructure

/-- The data of an invocation of `messageCallback_`. -/
def ConnEvent.message : ConnEvent → Option (List UInt8)
  | messageCallback data => some data
  | _ => none

namespace TcpConnection

/-- What `messageCallback_` has been invoked with. -/
def messages (t : TcpConnection) : List (List UInt8) := t.log.filterMap ConnEvent.message

/-- What was added to the history is no message, and a notification of the life cycle only where
it may be `told`. -/
def Unheard (told : Prop) (t t' : TcpConnection) : Prop :=
  ∃ es, t'.log = t.log ++ es ∧ ∀ e ∈ es, e.message = none ∧ (e.life = true → told)

/-! ### Calls on one connection -/

namespace Unheard

variable {told told' : Prop} {t t' t'' : TcpConnection} {l : LoopConn}

theorem of_log (h : t'.log = t.log) : t.Unheard told t' :=
  ⟨[], h.trans (List.append_nil _).symm, fun _ he => absurd he List.not_mem_nil⟩

theorem trans (h₁ : t.Unheard told t') (h₂ : t'.Unheard told t'') : t.Unheard told t'' := by
  obtain ⟨es₁, hl₁, he₁⟩ := h₁
  obtain ⟨es₂, hl₂, he₂⟩ := h₂
  refine ⟨es₁ ++ es₂, by rw [hl₂, hl₁, List.append_assoc], fun e he => ?_⟩
  exact (List.mem_append.mp he).elim (he₁ e) (he₂ e)

theorem mem (h : t.Unheard told t') {e : ConnEvent} (he : e ∈ t.log) : e ∈ t'.log := by
  obtain ⟨es, hl, -⟩ := h
  rw [hl]
  exact List.mem_append_left _ he

theorem messages (h : t.Unheard told t') : t'.messages = t.messages := by
  obtain ⟨es, hl, he⟩ := h
  have hnone : es.filterMap ConnEvent.message = [] :=
    List.filterMap_eq_nil_iff.mpr fun e hm => (he e hm).1
  rw [TcpConnection.messages, hl, List.filterMap_append, hnone, List.append_nil]
  rfl

theorem notices (h : t.Unheard told t') (hn : ¬ told) : t'.notices = t.notices := by
  obtain ⟨es, hl, he⟩ := h
  have hnone : es.filter ConnEvent.life = [] :=
    List.filter_eq_nil_iff.mpr fun e hm ht => hn ((he e hm).2 ht)
  rw [TcpConnection.notices, hl, List.filter_append, hnone, List.append_nil]
  rfl

theorem record (h : t.Unheard told l.conn) {e : ConnEvent} (hm : e.message = none)
    (ht : e.life = true → told) : t.Unheard told (l.record e).conn :=
  h.trans ⟨[e], rfl, by simpa using ⟨hm, ht⟩⟩

theorem setState (h : t.Unheard told l.conn) (s : StateE) : t.Unheard told (l.setState s).conn :=
  h.trans ⟨[.setState s], rfl, by simp [ConnEvent.message, ConnEvent.life]⟩

theorem write (h : t.Unheard told l.conn) (data : List UInt8) :
    t.Unheard told (l.write data).conn :=
  h.trans ⟨[.write (l.taken data)], rfl, by simp [ConnEvent.message, ConnEvent.life]⟩

theorem queueWriteComplete (h : t.Unheard told l.conn) :
    t.Unheard told l.queueWriteComplete.conn := by
  rwa [LoopConn.queueWriteComplete_conn]

theorem appendRemaining (h : t.Unheard told l.conn) (r : List UInt8) :
    t.Unheard told (l.appendRemaining r).conn :=
  h.trans (of_log (LoopConn.appendRemaining_log r))

theorem sendInLoop (h : t.Unheard told l.conn) (data : List UInt8) :
    t.Unheard told (l.sendInLoop data).conn := by
  unfold LoopConn.sendInLoop
  split
  · exact h
  · split
    · split
      · split
        · exact (h.write data).queueWriteComplete
        · exact (h.write data).appendRemaining _
      · split
        · exact h.write data
        · exact (h.write data).appendRemaining data
    · exact h.appendRemaining data

theorem shutdownInLoop (h : t.Unheard told l.conn) : t.Unheard told l.shutdownInLoop.conn := by
  unfold LoopConn.shutdownInLoop
  split
  · exact h
  · exact h.record rfl nofun

theorem shutdown (h : t.Unheard told l.conn) : t.Unheard told l.shutdown.conn := by
  unfold LoopConn.shutdown
  split
  · split
    · exact (h.setState .kDisconnecting).shutdownInLoop
    · exact h.setState .kDisconnecting
  · exact h

theorem forceClose (h : t.Unheard told l.conn) : t.Unheard told l.forceClose.conn := by
  unfold LoopConn.forceClose
  split
  · exact h.setState .kDisconnecting
  · exact h

theorem member (h : t.Unheard told l.conn) (a : LoopConn.Member) :
    t.Unheard told (l.member a).conn := by
  cases a with
  | send data => exact (h.record (e := .send data) rfl nofun).sendInLoop data
  | shutdown => exact h.shutdown
  | forceClose => exact h.forceClose

theorem drained (h : t.Unheard told l.conn) : t.Unheard told l.drained.conn := by
  have hq : t.Unheard told (l.channelSet .disableWriting).queueWriteComplete.conn :=
    queueWriteComplete (h.trans (of_log rfl))
  unfold LoopConn.drained
  dsimp only
  split
  · exact hq.shutdownInLoop
  · exact hq

theorem retrieve (h : t.Unheard told l.conn) (n : ℕ) : t.Unheard told (l.retrieve n).conn := by
  have hb : t.Unheard told (l.setOutputBuffer (l.conn.outputBuffer_.retrieve n)).conn :=
    h.trans (of_log rfl)
  unfold LoopConn.retrieve
  dsimp only
  split
  · exact hb.drained
  · exact hb

theorem handleWrite (h : t.Unheard told l.conn) : t.Unheard told l.handleWrite.conn := by
  unfold LoopConn.handleWrite
  dsimp only
  split
  · split
    · split
      · exact h.write _
      · exact (h.write _).retrieve _
    · exact h.write _
  · exact h

theorem establish (h : t.Unheard told l.conn) : t.Unheard told l.establish.conn :=
  (h.setState .kConnected).trans (of_log rfl)

theorem disconnect (h : t.Unheard told l.conn) : t.Unheard told l.disconnect.conn :=
  (h.setState .kDisconnected).trans (of_log rfl)

theorem channelRemove (h : t.Unheard told l.conn) : t.Unheard told l.channelRemove.conn :=
  h.trans (of_log rfl)

end Unheard
end TcpConnection

/-! ### The process -/

variable {υ : Type} {app : Application υ} {w w' w'' : World υ} {c d : ConnId}

/-- No connection has got a message, and none but `c` a notification of its life cycle. -/
structure Hushed (c : ConnId) (w w' : World υ) : Prop where
  phase : w'.phase = w.phase
  created : w'.created = w.created
  unheard : ∀ d, (w.conns d).Unheard (d = c) (w'.conns d)

namespace Hushed

theorem rfl : Hushed c w w := ⟨Eq.refl _, Eq.refl _, fun _ => .of_log (Eq.refl _)⟩

theorem trans (h₁ : Hushed c w w') (h₂ : Hushed c w' w'') : Hushed c w w'' :=
  ⟨h₂.phase.trans h₁.phase, h₂.created.trans h₁.created,
    fun d => (h₁.unheard d).trans (h₂.unheard d)⟩

theorem messages (h : Hushed c w w') (d : ConnId) : (w'.conns d).messages = (w.conns d).messages :=
  (h.unheard d).messages

theorem notices (h : Hushed c w w') (hdc : d ≠ c) : (w'.conns d).notices = (w.conns d).notices :=
  (h.unheard d).notices hdc

/-- A call on the connection `d`. -/
theorem onConn (h : Hushed c w w') {f : LoopConn → LoopConn}
    (hf : ∀ {t : TcpConnection} {l : LoopConn}, t.Unheard (d = c) l.conn →
      t.Unheard (d = c) (f l).conn) :
    Hushed c w (w'.onConn d f) := by
  refine h.trans ⟨Eq.refl _, Eq.refl _, fun e => ?_⟩
  rw [World.onConn]
  by_cases hed : e = d
  · subst hed
    rw [setConn_conns_self]
    exact hf (l := w'.atConn e) (.of_log (Eq.refl _))
  · rw [setConn_conns_ne hed]
    exact .of_log (Eq.refl _)

theorem call (h : Hushed c w w') (a : ApiCall) :
    Ensures (Hushed c w) (fun _ => True) (w'.call a) := by
  cases a with
  | queueInLoop n => exact ⟨h.phase, h.created, h.unheard⟩
  | member conn a =>
      cases conn with
      | none => trivial
      | some d =>
          simp only [World.call, ensures_ok]
          split
          · exact h.onConn fun hl => hl.member a
          · exact h

theorem callback (h : Hushed c w w') (cb : Callback υ) :
    Ensures (Hushed c w) (fun _ => True) (w'.callback cb) :=
  ensures_foldlM (I := Hushed c w) (fun _ h a _ => h.call a) ⟨h.phase, h.created, h.unheard⟩

theorem connectionCallback (h : Hushed c w w') :
    Ensures (Hushed c w) (fun _ => True) (w'.connectionCallback app c) :=
  (h.onConn fun hl => hl.record (Eq.refl _) fun _ => Eq.refl c).callback _

theorem connectEstablished (h : Hushed c w w') :
    Ensures (Hushed c w) (fun _ => True) (w'.connectEstablished app c) := by
  unfold World.connectEstablished
  split
  · exact (h.onConn fun hl => hl.establish).connectionCallback
  · trivial

theorem disconnect (h : Hushed c w w') :
    Ensures (Hushed c w) (fun _ => True)
      ((w'.onConn c (·.disconnect)).connectionCallback app c) :=
  (h.onConn fun hl => hl.disconnect).connectionCallback

theorem removeConnection (h : Hushed c w w') (d : ConnId) :
    Hushed c w (w'.removeConnection d) := by
  unfold World.removeConnection
  split <;> exact ⟨h.phase, h.created, h.unheard⟩

/-- `closeCallback_(shared_from_this())`. -/
theorem closeCallback (h : Hushed c w w') :
    Hushed c w ((w'.onConn c (·.record .closeCallback)).removeConnection c) :=
  (h.onConn fun hl => hl.record (Eq.refl _) fun _ => Eq.refl c).removeConnection c

theorem handleClose (h : Hushed c w w') :
    Ensures (Hushed c w) (fun _ => True) (w'.handleClose app c) := by
  unfold World.handleClose
  split
  · exact h.disconnect.bind fun w₁ h₁ => h₁.closeCallback
  · exact h

/-- `handleClose` on an open connection reports that it is down. -/
theorem down (w : World υ) (ho : (w.atConn c).isOpen = true) :
    Ensures (fun w' => Hushed c w w' ∧ .connectionCallback false ∈ (w'.conns c).log)
      (fun _ => True) (w.handleClose app c) := by
  have hup : (w.atConn c).disconnect.conn.connected = false := by
    simp [TcpConnection.connected, LoopConn.disconnect]
  have heq : (w.onConn c (·.disconnect)).connectionCallback app c =
      (w.onConn c fun l => l.disconnect.record (.connectionCallback false)).callback
        (app.connectionCallback c) :=
    connectionCallback_setConn (m := (w.atConn c).disconnect) (Eq.refl _) (Eq.refl _) hup
  have hdown : Hushed c w
      (w.onConn c fun l => l.disconnect.record (.connectionCallback false)) :=
    rfl.onConn fun hl => hl.disconnect.record (Eq.refl _) fun _ => Eq.refl c
  unfold World.handleClose
  rw [if_pos ho, heq]
  refine (rfl.callback (c := c) (app.connectionCallback c)).bind fun w₁ h₁ => ?_
  have h₂ := h₁.closeCallback
  refine ⟨hdown.trans h₂, (h₂.unheard c).mem ?_⟩
  rw [World.onConn, setConn_conns_self]
  exact List.mem_append_right _ (List.mem_singleton_self _)

theorem connectDestroyed (h : Hushed c w w') :
    Ensures (Hushed c w) (fun _ => True) (w'.connectDestroyed app c) := by
  have hend : ∀ w₁, Hushed c w w₁ →
      Hushed c w (w₁.onConn c fun l => l.channelRemove.record .connectDestroyed) := fun w₁ h₁ =>
    h₁.onConn fun hl => hl.channelRemove.record (Eq.refl _) fun _ => Eq.refl c
  unfold World.connectDestroyed
  refine Ensures.bind (P := Hushed c w) ?_ hend
  split
  · exact h.disconnect
  · exact h

end Hushed

/-- No functor delivers a message. -/
theorem runFunctor_hushed (w : World υ) (f : PendingFunctor) :
    Ensures (fun w' => ∃ c, Hushed c w w') (fun _ => True) (w.runFunctor app f) := by
  have about : ∀ {c : ConnId} {x : Except Fault (World υ)}, Ensures (Hushed c w) (fun _ => True) x →
      Ensures (fun w' => ∃ c, Hushed c w w') (fun _ => True) x :=
    fun h => h.mono (fun _ h => ⟨_, h⟩) fun _ he => he
  cases f with
  | connectEstablished c => exact about Hushed.rfl.connectEstablished
  | connectDestroyed c => exact about Hushed.rfl.connectDestroyed
  | removeConnectionInLoop c => exact ⟨c, rfl, rfl, fun _ => .of_log rfl⟩
  | shutdownInLoop c =>
      rw [World.runFunctor]
      split
      · trivial
      · exact ⟨c, Hushed.rfl.onConn fun hl => hl.shutdownInLoop⟩
  | forceCloseInLoop c => exact about Hushed.rfl.handleClose
  | writeCompleteCallback c =>
      rw [World.runFunctor]
      split
      · exact about (Hushed.rfl.callback (c := c) _)
      · exact ⟨c, .rfl⟩
  | highWaterMarkCallback c len => exact ⟨c, .rfl⟩
  | user n => exact about (Hushed.rfl.callback (c := 0) _)

/-- No connection has got a message, in the same phase of the loop. -/
def Muted (w w' : World υ) : Prop :=
  w'.phase = w.phase ∧ ∀ d, (w'.conns d).messages = (w.conns d).messages

theorem runFunctor_muted (w : World υ) (f : PendingFunctor) :
    Ensures (Muted w) (fun _ => True) (w.runFunctor app f) := by
  refine (runFunctor_hushed w f).mono ?_ fun _ he => he
  rintro w' ⟨c, h⟩
  exact ⟨h.phase, h.messages⟩

/-! ### Reading -/

namespace World

/-- The messages that an event delivers. -/
def delivered (revents : Mask) (read : Option (List UInt8)) : List (List UInt8) :=
  if readable revents then
    match read with
    | some (b :: data) => [(b :: data).take 1024]
    | _ => []
  else []

/-- The messages that the connection `d` gets in a step. -/
def deliveries (w : World υ) (a : ServerAction) (d : ConnId) : List (List UInt8) :=
  match a, w.phase with
  | .handleEvent _ read, .handling ((.conn c, revents) :: _) =>
      if d = c ∧ (w.conns c).destroyed = false then delivered revents read else []
  | _, _ => []

end World

/-- The connection `c` with the messages `ms` in its history. -/
def World.deliver (w : World υ) (c : ConnId) (ms : List (List UInt8)) : World υ :=
  w.onConn c fun l =>
    { l with conn := { l.conn with log := l.conn.log ++ ms.map .messageCallback } }

theorem deliver_log (w : World υ) (c : ConnId) (ms : List (List UInt8)) (d : ConnId) :
    ((w.deliver c ms).conns d).log =
      (w.conns d).log ++ if d = c then ms.map .messageCallback else [] := by
  unfold World.deliver World.onConn
  by_cases hdc : d = c
  · subst hdc
    rw [setConn_conns_self, if_pos rfl]
    rfl
  · rw [setConn_conns_ne hdc, if_neg hdc, List.append_nil]

theorem hushed_deliver_nil (w : World υ) (c : ConnId) : Hushed c (w.deliver c []) w := by
  refine ⟨rfl, rfl, fun d => .of_log ?_⟩
  rw [deliver_log, List.map_nil, ite_self, List.append_nil]

/-- What handling an event of the connection `c` does to the histories: a hangup comes before the
data that is reported with it.  In between the process is in `w₁`. -/
def EventHandling (c : ConnId) (revents : Mask) (read : Option (List UInt8))
    (w w' : World υ) : Prop :=
  ∃ w₁, Hushed c w w₁ ∧ (World.hangup revents = false → w₁ = w) ∧
    (World.hangup revents = true → (w.atConn c).isOpen = true →
      .connectionCallback false ∈ (w₁.conns c).log) ∧
    Hushed c (w₁.deliver c (World.delivered revents read)) w'

theorem handleEventWithGuard_histories (w : World υ) (c : ConnId) (revents : Mask)
    (read : Option (List UInt8)) :
    Ensures (EventHandling c revents read w) (fun _ => True)
      (w.handleEventWithGuard app c revents read) := by
  unfold World.handleEventWithGuard
  refine Ensures.bind (P := fun w₁ => Hushed c w w₁ ∧ (World.hangup revents = false → w₁ = w) ∧
    (World.hangup revents = true → (w.atConn c).isOpen = true →
      .connectionCallback false ∈ (w₁.conns c).log)) ?_ ?_
  · split
    · next hh =>
      by_cases ho : (w.atConn c).isOpen = true
      · refine (Hushed.down w ho).mono (fun w₁ h₁ => ⟨h₁.1, fun hf => ?_, fun _ _ => h₁.2⟩)
          fun _ he => he
        rw [hh] at hf
        cases hf
      · rw [World.handleClose, if_neg ho]
        exact ⟨.rfl, fun _ => rfl, fun _ h => absurd h ho⟩
    · next hh => exact ⟨.rfl, fun _ => rfl, fun h => absurd h hh⟩
  · rintro w₁ ⟨h₁, hsame, hdown⟩
    refine Ensures.bind (P := Hushed c (w₁.deliver c (World.delivered revents read))) ?_ ?_
    · unfold World.delivered
      split
      · match read with
        | none => exact hushed_deliver_nil w₁ c
        | some [] => exact (hushed_deliver_nil w₁ c).handleClose
        | some (b :: data) =>
            exact Hushed.rfl.callback (app.messageCallback c ((b :: data).take 1024))
      · exact hushed_deliver_nil w₁ c
    · intro w₂ h₂
      refine ⟨w₁, h₁, hsame, hdown, ?_⟩
      split
      · exact h₂.onConn fun hl => hl.handleWrite
      · exact h₂

/-- Accepting a connection enters it, and notifies no other. -/
theorem newConnection_hushed (w : World υ) (fd : Fd) (socket : List WriteResult) :
    Ensures (Hushed w.created (w.insertConnection app fd socket)) (fun _ => True)
      (w.newConnection app fd socket) := by
  unfold World.newConnection
  split
  · trivial
  · split
    · exact Hushed.rfl.connectEstablished
    · exact ⟨rfl, rfl, fun _ => .of_log rfl⟩

theorem insertConnection_log_self (w : World υ) (fd : Fd) (socket : List WriteResult) :
    ((w.insertConnection app fd socket).conns w.created).log = [] := by
  simp [World.insertConnection, TcpConnection.new]

/-! ### Steps -/

/-- The event of a live connection that the step handles. -/
def World.handled (w : World υ) (a : ServerAction) : Option (ConnId × Mask × Option (List UInt8)) :=
  match a, w.phase with
  | .handleEvent _ read, .handling ((.conn c, revents) :: _) =>
      if (w.conns c).destroyed = false then some (c, revents, read) else none
  | _, _ => none

/-- What a step does to the histories of the connections. -/
inductive Histories (app : Application υ) (w : World υ) (a : ServerAction) (w' : World υ) : Prop
  | hushed {c : ConnId} {p : Phase} (ha : w.handled a = none)
      (h : Hushed c { w with phase := p } w')
  | accepted {p : Phase} {fd : Fd} {socket : List WriteResult} (ha : w.handled a = none)
      (h : Hushed w.created ({ w with phase := p }.insertConnection app fd socket) w')
  | handled {c : ConnId} {revents : Mask} {read : Option (List UInt8)} {p : Phase}
      (ha : w.handled a = some (c, revents, read))
      (h : EventHandling c revents read { w with phase := p } w')

/-- **What a step delivers**: whatever the application does, only an event that is handled on a
connection invokes `messageCallback_`, and only for that connection. -/
theorem step_histories {a : ServerAction} {t : Except Fault (World υ)}
    (hs : World.Step app w a t) : Ensures (Histories app w a) (fun _ => True) t := by
  cases hs with
  | @handleEvent channel revents rest accepted read hp ha =>
      cases channel with
      | wakeup =>
          have hn : w.handled (.handleEvent accepted read) = none := by simp [World.handled, hp]
          simp only [World.handleEvent, ensures_ok]
          split
          · exact .hushed (c := 0) hn ⟨rfl, rfl, fun _ => .of_log rfl⟩
          · exact .hushed (c := 0) hn .rfl
      | acceptor =>
          have hn : w.handled (.handleEvent accepted read) = none := by simp [World.handled, hp]
          cases accepted with
          | none => exact .hushed (c := 0) hn .rfl
          | some r =>
              simp only [World.handleEvent]
              split
              · exact (newConnection_hushed _ r.1 r.2).mono (fun _ h => .accepted hn h)
                  fun _ he => he
              · exact .hushed (c := 0) hn .rfl
      | conn c =>
          simp only [World.handleEvent, World.handleConn]
          split
          · next hd =>
            have hn : w.handled (.handleEvent accepted read) = none := by
              simp [World.handled, hp, show (w.conns c).destroyed = true from hd]
            split
            · exact .hushed (c := 0) hn .rfl
            · trivial
          · next hd =>
            have hh : w.handled (.handleEvent accepted read) = some (c, revents, read) := by
              simp only [World.handled, hp]
              exact if_pos (Bool.eq_false_iff.mpr hd)
            exact (handleEventWithGuard_histories _ c revents read).mono (fun _ h => .handled hh h)
              fun _ he => he
  | runFunctor hp =>
      refine (runFunctor_hushed _ _).mono ?_ fun _ he => he
      rintro w' ⟨c, h⟩
      exact .hushed rfl h
  | @destroy c hl ho =>
      refine .hushed (c := c) (p := w.phase) rfl ⟨rfl, rfl, fun d => .of_log ?_⟩
      by_cases hdc : d = c
      · subst hdc
        simp [World.destroy]
      · simp [World.destroy, hdc]
  | poll | doPendingFunctors | endFunctors | queueInLoop =>
      exact .hushed (c := 0) rfl ⟨rfl, rfl, fun _ => .of_log rfl⟩

/-! ### What is delivered -/

/-- The connection `c` has got the messages `ms`, and no other has got any. -/
def Got (c : ConnId) (ms : List (List UInt8)) (w w' : World υ) : Prop :=
  ∀ d, (w'.conns d).messages = (w.conns d).messages ++ if d = c then ms else []

theorem got_deliver (w : World υ) (c : ConnId) (ms : List (List UInt8)) :
    Got c ms w (w.deliver c ms) := by
  intro d
  have hms : (ms.map ConnEvent.messageCallback).filterMap ConnEvent.message = ms := by
    rw [List.filterMap_map]
    exact List.filterMap_some
  rw [TcpConnection.messages, deliver_log, List.filterMap_append]
  split
  · rw [hms]
    rfl
  · rfl

theorem EventHandling.got {revents : Mask} {read : Option (List UInt8)}
    (h : EventHandling c revents read w w') : Got c (World.delivered revents read) w w' := by
  obtain ⟨w₁, h₁, -, -, h₂⟩ := h
  intro d
  rw [h₂.messages d, got_deliver w₁ c _ d, h₁.messages d]

theorem deliveries_of_none {a : ServerAction} (ha : w.handled a = none) (d : ConnId) :
    w.deliveries a d = [] := by
  unfold World.handled at ha
  unfold World.deliveries
  split at ha
  · split at ha
    · cases ha
    · next hd => exact if_neg fun h => hd h.2
  · rfl

theorem deliveries_of_some {a : ServerAction} {revents : Mask} {read : Option (List UInt8)}
    (ha : w.handled a = some (c, revents, read)) (d : ConnId) :
    w.deliveries a d = if d = c then World.delivered revents read else [] := by
  unfold World.handled at ha
  split at ha
  · next hp =>
    split at ha
    · next hd =>
      cases ha
      simp only [World.deliveries, hp, hd, and_true]
    · cases ha
  · cases ha

/-- A connection gets the messages of an event that is handled on it and no others. -/
theorem step_messages {a : ServerAction} {t : Except Fault (World υ)}
    (hs : World.Step app w a t) :
    Ensures (fun w' => ∀ d, (w'.conns d).messages = (w.conns d).messages ++ w.deliveries a d ∨
        d = w.created ∧ (w'.conns d).messages = [])
      (fun _ => True) t := by
  refine (step_histories hs).mono (fun w' h d => ?_) fun _ he => he
  cases h with
  | hushed ha h => exact .inl (by rw [h.messages d, deliveries_of_none ha, List.append_nil])
  | @accepted p fd socket ha h =>
      rw [h.messages d]
      by_cases hd : d = w.created
      · refine .inr ⟨hd, ?_⟩
        rw [TcpConnection.messages, hd, insertConnection_log_self { w with phase := p } fd socket]
        rfl
      · left
        rw [deliveries_of_none ha, List.append_nil]
        simp [World.insertConnection, hd]
  | handled ha h => exact .inl (by rw [h.got d, deliveries_of_some ha])

end NetworkStructure
