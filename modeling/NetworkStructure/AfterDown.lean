import NetworkStructure.ActiveChannels

/-! # After the notification that a connection is down

`handleWrite` gives up on a connection that is down, `sendInLoop` and `handleClose` look at
`state_`; `handleRead` looks at nothing.  Only `disableAll` keeps it away from a closed connection,
and that does not concern the event that is being handled: a hangup without `EPOLLIN` closes the
connection, and where `EPOLLPRI` was reported too, `handleRead` follows in the same
`handleEventWithGuard`.

The messages after the notification are read off the history of the connection.  When its event is
handled a connection has not been reported down (`ActiveChannels.lean`), so a message comes too
late exactly if the same event reports the hangup (`EventHandling.silentAfterDown`).  No functor
delivers a message, and `silentAfterDown_iff` carries this over runs. -/

namespace NetworkStructure

/-- After `connectionCallback_` has been invoked with `connected()` false, `messageCallback_` is not
invoked. -/
def TcpConnection.SilentAfterDown (t : TcpConnection) : Prop :=
  t.log.Pairwise fun e e' => e = .connectionCallback false → e'.message = none

instance (t : TcpConnection) : Decidable t.SilentAfterDown :=
  inferInstanceAs (Decidable (List.Pairwise _ _))

variable {υ : Type} {app : Application υ} {w w' : World υ} {c : ConnId} {stage : ConnId → Stage}

namespace World

def SilentAfterDown (w : World υ) : Prop := ∀ c < w.created, (w.conns c).SilentAfterDown

/-- `read(2)` returns data for an event that reports a hangup, without `EPOLLIN` but with
`EPOLLPRI`. -/
def LateRead (w : World υ) (a : ServerAction) : Prop :=
  match a, w.phase with
  | .handleEvent _ read, .handling ((.conn _, revents) :: _) =>
      hangup revents = true ∧ readable revents = true ∧ ∃ b data, read = some (b :: data)
  | _, _ => False

end World

/-! ### What adds to a history -/

theorem silentAfterDown_append {t t' : TcpConnection} {es : List ConnEvent}
    (hl : t'.log = t.log ++ es) (hes : .connectionCallback false ∉ es) :
    t'.SilentAfterDown ↔
      t.SilentAfterDown ∧ (.connectionCallback false ∈ t.log → ∀ e ∈ es, e.message = none) := by
  have hself : es.Pairwise fun e e' => e = .connectionCallback false → e'.message = none :=
    List.pairwise_of_forall_mem_list fun e he _ _ h => absurd (h ▸ he) hes
  rw [TcpConnection.SilentAfterDown, hl, List.pairwise_append]
  constructor
  · rintro ⟨ht, -, hcross⟩
    exact ⟨ht, fun hd e he => hcross _ hd e he rfl⟩
  · rintro ⟨ht, h⟩
    exact ⟨ht, hself, fun e he e' he' hd => h (hd ▸ he) e' he'⟩

/-- What is not heard of does not come too late. -/
theorem TcpConnection.Unheard.silentAfterDown {told : Prop} {t t' : TcpConnection}
    (h : t.Unheard told t') : t'.SilentAfterDown ↔ t.SilentAfterDown := by
  obtain ⟨es, hl, he⟩ := h
  rw [TcpConnection.SilentAfterDown, hl, List.pairwise_append]
  refine ⟨fun h => h.1, fun h => ⟨h, ?_, fun _ _ e' he' _ => (he e' he').1⟩⟩
  exact List.pairwise_of_forall_mem_list fun _ _ e' he' _ => (he e' he').1

theorem Hushed.silentAfterDown (h : Hushed c w w') : w'.SilentAfterDown ↔ w.SilentAfterDown := by
  unfold World.SilentAfterDown
  rw [h.created]
  exact forall₂_congr fun d _ => (h.unheard d).silentAfterDown

/-- A message to `c` comes too late if `c` has been reported down. -/
theorem silentAfterDown_deliver (hc : c < w.created) (ms : List (List UInt8)) :
    (w.deliver c ms).SilentAfterDown ↔
      w.SilentAfterDown ∧ (.connectionCallback false ∈ (w.conns c).log → ms = []) := by
  have hms : .connectionCallback false ∉ ms.map ConnEvent.messageCallback := by simp
  have hnone : (∀ e ∈ ms.map ConnEvent.messageCallback, e.message = none) ↔ ms = [] := by
    cases ms with
    | nil => simp
    | cons m ms => simp [ConnEvent.message]
  have hlog : ((w.deliver c ms).conns c).log =
      (w.conns c).log ++ ms.map ConnEvent.messageCallback := by rw [deliver_log, if_pos rfl]
  have hself := silentAfterDown_append hlog hms
  rw [hnone] at hself
  have hother : ∀ d, d ≠ c →
      (((w.deliver c ms).conns d).SilentAfterDown ↔ (w.conns d).SilentAfterDown) := by
    intro d hdc
    rw [TcpConnection.SilentAfterDown, deliver_log, if_neg hdc, List.append_nil]
    rfl
  constructor
  · intro h
    have hcs := hself.mp (h c hc)
    refine ⟨fun d hd => ?_, hcs.2⟩
    by_cases hdc : d = c
    · exact hdc ▸ hcs.1
    · exact (hother d hdc).mp (h d hd)
  · rintro ⟨h, hd⟩ d hlt
    by_cases hdc : d = c
    · subst hdc
      exact hself.mpr ⟨h d hlt, hd⟩
    · exact (hother d hdc).mpr (h d hlt)

theorem silentAfterDown_insertConnection (w : World υ) (fd : Fd) (socket : List WriteResult) :
    (w.insertConnection app fd socket).SilentAfterDown ↔ w.SilentAfterDown := by
  constructor
  · intro h d hd
    have := h d (Nat.lt_succ_of_lt hd)
    rwa [insertConnection_conns_ne (Nat.ne_of_lt hd)] at this
  · intro h d hd
    by_cases hdc : d = w.created
    · rw [hdc, TcpConnection.SilentAfterDown, insertConnection_log_self]
      exact .nil
    · rw [insertConnection_conns_ne hdc]
      exact h d (Nat.lt_of_le_of_ne (Nat.le_of_lt_succ hd) hdc)

/-- **One event**: on a connection that is open and has not been reported down, data comes too late
exactly if it comes with a hangup. -/
theorem EventHandling.silentAfterDown {revents : Mask} {read : Option (List UInt8)}
    (h : EventHandling c revents read w w') (hc : c < w.created) (ho : (w.atConn c).isOpen = true)
    (hup : .connectionCallback false ∉ (w.conns c).log) :
    w'.SilentAfterDown ↔ w.SilentAfterDown ∧
      (World.hangup revents = true → World.delivered revents read = []) := by
  obtain ⟨w₁, h₁, hsame, hdown, h₂⟩ := h
  have htold : .connectionCallback false ∈ (w₁.conns c).log ↔ World.hangup revents = true := by
    refine ⟨fun hm => ?_, fun hh => hdown hh ho⟩
    by_contra hh
    rw [hsame (Bool.eq_false_iff.mpr hh)] at hm
    exact hup hm
  rw [h₂.silentAfterDown, silentAfterDown_deliver (h₁.created ▸ hc), h₁.silentAfterDown, htold]

theorem delivered_ne_nil_iff (revents : Mask) (read : Option (List UInt8)) :
    World.delivered revents read ≠ [] ↔
      World.readable revents = true ∧ ∃ b data, read = some (b :: data) := by
  unfold World.delivered
  match read with
  | none => simp
  | some [] => simp
  | some (b :: data) => simp

/-! ### Steps and runs -/

/-- A step that reads too late handles an event of a live connection. -/
theorem not_lateRead {a : ServerAction} (hw : WorldOk w stage) (h : w.Alert)
    (ha : w.handled a = none) : ¬ w.LateRead a := by
  intro hlate
  unfold World.LateRead at hlate
  split at hlate
  · next accepted read c revents rest hp =>
    have hm : (.conn c, revents) ∈ w.active := by simp [World.active, hp]
    have hh : w.handled (.handleEvent accepted read) = some (c, revents, read) := by
      simp only [World.handled, hp]
      exact if_pos (h.isOpen hw hm).1.2
    rw [hh] at ha
    cases ha
  · exact hlate

/-- The event that a step handles is that of an active channel. -/
theorem lateRead_iff {a : ServerAction} {revents : Mask} {read : Option (List UInt8)}
    (ha : w.handled a = some (c, revents, read)) :
    (.conn c, revents) ∈ w.active ∧
      (w.LateRead a ↔ World.hangup revents = true ∧ World.delivered revents read ≠ []) := by
  unfold World.handled at ha
  rw [delivered_ne_nil_iff]
  split at ha
  · next hp =>
    split at ha
    · cases ha
      exact ⟨by simp [World.active, hp], by simp only [World.LateRead, hp]⟩
    · cases ha
  · cases ha

/-- After a step no message has come too late exactly when none had before and the step does not
read too late. -/
theorem silent_step {a : ServerAction} {t : Except Fault (World υ)} (hok : w.Ok) (h : w.Alert)
    (hs : World.Step app w a t) :
    Ensures (fun w' => w'.SilentAfterDown ↔ w.SilentAfterDown ∧ ¬ w.LateRead a)
      (fun _ => True) t := by
  obtain ⟨stage, hw, -⟩ := hok
  refine (step_histories hs).mono (fun w' hh => ?_) fun _ he => he
  cases hh with
  | hushed ha hh =>
      rw [and_iff_left (not_lateRead hw h ha)]
      exact hh.silentAfterDown
  | accepted ha hh =>
      rw [and_iff_left (not_lateRead hw h ha)]
      exact hh.silentAfterDown.trans (silentAfterDown_insertConnection ..)
  | handled ha hh =>
      obtain ⟨hm, hlate⟩ := lateRead_iff ha
      obtain ⟨hl, ho, hup⟩ := h.isOpen hw hm
      rw [hlate, not_and_not_right]
      exact hh.silentAfterDown hl.1 ho hup

/-- **No message after the notification**: whatever the application does, in a run of the server no
connection gets a message after it was reported down exactly if no step handles an event with
`EPOLLHUP` and `EPOLLPRI` and without `EPOLLIN` on which `read(2)` returns data. -/
theorem silentAfterDown_iff {threadId_ me : ThreadId} {wakeupFd acceptFd : Fd} {hostport : IpPort}
    {name : List Char} {user : υ} {ls : List ServerAction}
    (run : Run (ServerStep app)
      (.ok (World.init threadId_ me wakeupFd acceptFd hostport name user)) ls (.ok w)) :
    w.SilentAfterDown ↔ RunWith (ServerStep app) (fun s a _ => ∀ w, s = .ok w → ¬ w.LateRead a)
      (.ok (World.init threadId_ me wakeupFd acceptFd hostport name user)) ls (.ok w) := by
  refine serverRun_iff (I := fun w => w.Ok ∧ w.Alert) ?_ ?_ run ⟨ok_init .., .of_nil rfl⟩
    fun c hc => nomatch hc
  · intro w a t h hs
    have hok := ok_step h.1 hs
    have halert := alert_step h.1 h.2 hs
    cases t with
    | error e => trivial
    | ok w' => exact ⟨hok, halert⟩
  · exact fun w a w' h hs => silent_step h.1 h.2 hs

/-- Where the hangup comes with `EPOLLIN`, the data is read and the connection stays open. -/
theorem silentAfterDown_iff_example : ∃ w : World Unit, (w.conns 0).messages = [[104]] ∧
    RunWith (ServerStep idleApplication) (fun s a _ => ∀ w, s = .ok w → ¬ w.LateRead a)
      (.ok (World.init 1 2 3 4 ⟨[], by decide⟩ [] ()))
      [.poll [(4, EPOLLIN)], .handleEvent (some (7, [])) none, .doPendingFunctors, .runFunctor,
        .endFunctors, .poll [(7, EPOLLIN ||| EPOLLPRI ||| EPOLLHUP)],
        .handleEvent none (some [104])] (.ok w) := by
  obtain ⟨w, run, hm, hc, hs⟩ := World.exists_run_ok idleApplication
    (fun w => (w.conns 0).messages = [[104]] ∧ w.created = 1 ∧ (w.conns 0).SilentAfterDown)
    (.ok (World.init 1 2 3 4 ⟨[], by decide⟩ [] ()))
    [.poll [(4, EPOLLIN)], .handleEvent (some (7, [])) none, .doPendingFunctors, .runFunctor,
      .endFunctors, .poll [(7, EPOLLIN ||| EPOLLPRI ||| EPOLLHUP)], .handleEvent none (some [104])]
    (by decide +kernel)
  refine ⟨w, hm, (silentAfterDown_iff run).mp fun c hlt => ?_⟩
  rw [hc, Nat.lt_one_iff] at hlt
  rwa [hlt]

/-- A hangup with `EPOLLPRI`: the connection is reported down, and then its data is delivered. -/
theorem not_silentAfterDown : ∃ w : World Unit,
    Run (ServerStep idleApplication) (.ok (World.init 1 2 3 4 ⟨[], by decide⟩ [] ()))
      [.poll [(4, EPOLLIN)], .handleEvent (some (7, [])) none, .doPendingFunctors, .runFunctor,
        .endFunctors, .poll [(7, EPOLLPRI ||| EPOLLHUP)], .handleEvent none (some [104])]
      (.ok w) ∧ (w.conns 0).log = [.setState .kConnected, .connectionCallback true,
        .setState .kDisconnected, .connectionCallback false, .closeCallback,
        .messageCallback [104]] ∧ ¬ w.SilentAfterDown := by
  obtain ⟨w, run, hl, hc, hs⟩ := World.exists_run_ok idleApplication
    (fun w => (w.conns 0).log = [.setState .kConnected, .connectionCallback true,
      .setState .kDisconnected, .connectionCallback false, .closeCallback,
      .messageCallback [104]] ∧ 0 < w.created ∧ ¬ (w.conns 0).SilentAfterDown)
    (.ok (World.init 1 2 3 4 ⟨[], by decide⟩ [] ()))
    [.poll [(4, EPOLLIN)], .handleEvent (some (7, [])) none, .doPendingFunctors, .runFunctor,
      .endFunctors, .poll [(7, EPOLLPRI ||| EPOLLHUP)], .handleEvent none (some [104])]
    (by decide +kernel)
  exact ⟨w, run, hl, fun h => hs (h 0 hc)⟩

end NetworkStructure
