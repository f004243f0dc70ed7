import NetworkStructure.AdmissionRuns
import NetworkStructure.Registry

/-! # The server at rest

When the loop is about to poll, no functor is queued and nothing is waiting to be destroyed, no
connection is between two stages of its life: each is open or has been through all of it
(`AtRest`).  An open one is entered in `connections_` under its name, in `channels_` and in the
interest set; of a closed one nothing is left, and it is destroyed unless the application keeps
it.  `connections_` has as many entries as there are open connections. -/

namespace NetworkStructure

variable {υ : Type} {app : Application υ} {w : World υ} {stage : ConnId → Stage} {c : ConnId}

def Phase.isPolling : Phase → Bool
  | .polling => true
  | .handling _ | .functors _ _ => false

theorem Phase.eq_polling {p : Phase} (h : p.isPolling = true) : p = .polling := by
  cases p with
  | polling => rfl
  | handling _ | functors _ _ => cases h

namespace World

/-- The loop is about to poll, and has nothing else to do. -/
structure Resting (app : Application υ) (w : World υ) : Prop where
  phase : w.phase = .polling
  pending : w.loop.pendingFunctors_ = []
  settled : w.Settled app

/-- All that there is of an open connection. -/
structure Opened (w : World υ) (c : ConnId) : Prop where
  live : w.Live c
  entry : w.server.connections_.lookup (w.conns c).name_ = some c
  channel : w.loop.poller_.channels_ (w.conns c).channel_.fd_ = some (.conn c)
  kernel : w.loop.poller_.kernel (w.conns c).channel_.fd_ =
    some ⟨(w.conns c).channel_.events_, .conn c⟩

/-- All that there is of a closed connection. -/
structure Closed (app : Application υ) (w : World υ) (c : ConnId) : Prop where
  entry : ∀ name, w.server.connections_.lookup name ≠ some c
  erased : w.Erased c
  destroyed : app.holds w.user c = false → (w.conns c).destroyed = true
  notices : (w.conns c).notices =
    [.connectionCallback true, .connectionCallback false, .closeCallback, .connectDestroyed]

structure AtRest (app : Application υ) (w : World υ) : Prop where
  opened : ∀ c < w.created, (w.conns c).state_.IsOpen → w.Opened c
  closed : ∀ c < w.created, ¬ (w.conns c).state_.IsOpen → w.Closed app c
  entries : w.server.connections_.entries.length =
    Nat.count (fun c => (w.conns c).state_.IsOpen) w.created

end World

/-! ### The stages that are left -/

/-- A connection of which no functor is queued is open or gone. -/
theorem WorldOk.stage_of_resting (h : WorldOk w stage) (hr : ∀ d, (stage d).resting = true)
    (hq : w.queue = []) (hc : c < w.created) : stage c = .opened ∨ stage c = .gone := by
  have hf : (stage c).functors c = [] := by rw [← (h.conn c hc).functors, hq, List.filter_nil]
  have hrc := hr c
  cases hs : stage c with
  | opened => exact .inl rfl
  | gone => exact .inr rfl
  | connecting | removing | destroying =>
      rw [hs] at hf
      cases hf
  | newborn | down | closing | erased =>
      rw [hs] at hrc
      cases hrc

theorem ConnOk.isOpen_iff {s : Stage} (h : ConnOk w c s) (hs : s = .opened ∨ s = .gone) :
    (w.conns c).state_.IsOpen ↔ s = .opened := by
  have hst := h.state_
  rcases hs with rfl | rfl
  · exact iff_of_true (by simpa [Stage.states, StateE.IsOpen] using hst) rfl
  · have hd : (w.conns c).state_ = .kDisconnected := List.mem_singleton.mp hst
    rw [hd]
    exact iff_of_false (by decide) (by decide)

theorem WorldOk.opened (h : WorldOk w stage) (hc : c < w.created) (hs : stage c = .opened) :
    w.Opened c := by
  have hok := h.conn c hc
  rw [hs] at hok
  obtain ⟨hch, hk⟩ := (inStep_cAdded hok.index_).mp (hok.inStep (hok.not_destroyed nofun))
  exact ⟨hok.live hc nofun, hok.entry, hch, hk⟩

theorem WorldOk.not_entered (h : WorldOk w stage) (hc : c < w.created) (hs : stage c = .gone)
    (name : List Char) : w.server.connections_.lookup name ≠ some c := by
  intro hn
  have he := (h.conn c hc).entry
  rw [hs, (h.entries name c hn).2, hn] at he
  cases he

theorem WorldOk.closed (h : WorldOk w stage) (hw : w.Resting app) (hc : c < w.created)
    (hs : stage c = .gone) : w.Closed app c where
  entry := h.not_entered hc hs
  erased fd := by
    by_cases hl : w.Live c
    · exact h.erased hl hs fd
    · refine ⟨fun he => hl (h.channels_ fd _ he).1, fun e he hp => hl ?_⟩
      have hslot := h.kernel fd e he
      rw [hp] at hslot
      exact hslot.1
  destroyed hh := by
    by_contra hd
    rcases hw.settled c ⟨hc, Bool.eq_false_iff.mpr hd⟩ with ⟨name, hn⟩ | ⟨f, hf, -⟩ | ho
    · exact h.not_entered hc hs name hn
    · have hb : w.batch ++ w.loop.pendingFunctors_ = [] := by
        rw [World.batch, hw.phase, hw.pending]
        rfl
      rw [hb] at hf
      cases hf
    · rw [hh] at ho
      cases ho
  notices := by
    have hn := (h.conn c hc).notices
    rwa [hs] at hn

/-- The connections that are entered, in the order of the entries. -/
theorem WorldOk.entries_nodup (h : WorldOk w stage) :
    (w.server.connections_.entries.map (·.2)).Nodup := by
  have hkeys : (w.server.connections_.entries.map (·.1)).Nodup := w.server.connections_.nodupKeys
  have hname : ∀ e ∈ w.server.connections_.entries, (w.conns e.2).name_ = e.1 := fun e he =>
    (h.entries e.1 e.2 (AList.mem_lookup_iff.mpr he)).2
  refine List.Nodup.of_map (fun c => (w.conns c).name_) ?_
  rw [List.map_map]
  refine (List.map_congr_left fun e he => ?_).symm ▸ hkeys
  exact hname e he

theorem WorldOk.rests (h : WorldOk w stage) (hr : ∀ d, (stage d).resting = true)
    (hw : w.Resting app) : w.AtRest app := by
  have hq : w.queue = [] := by
    rw [World.queue, World.rest, hw.phase, hw.pending]
    rfl
  have hstage : ∀ c < w.created, stage c = .opened ∨ stage c = .gone := fun c hc =>
    h.stage_of_resting hr hq hc
  have hopen : ∀ c < w.created, ((w.conns c).state_.IsOpen ↔ stage c = .opened) := fun c hc =>
    (h.conn c hc).isOpen_iff (hstage c hc)
  refine ⟨fun c hc ho => h.opened hc ((hopen c hc).mp ho), fun c hc ho => ?_, ?_⟩
  · exact h.closed hw hc ((hstage c hc).resolve_left fun hs => ho ((hopen c hc).mpr hs))
  · rw [← List.length_map (·.2)]
    refine length_eq_count h.entries_nodup fun c => ?_
    constructor
    · intro hm
      obtain ⟨e, he, rfl⟩ := List.mem_map.mp hm
      have hl := AList.mem_lookup_iff.mpr he
      obtain ⟨hc, -⟩ := h.entries e.1 e.2 hl
      refine ⟨hc, (hopen _ hc).mpr ((hstage _ hc).resolve_right fun hs => ?_)⟩
      exact h.not_entered hc hs e.1 hl
    · rintro ⟨hc, ho⟩
      have hl := (h.opened hc ((hopen c hc).mp ho)).entry
      exact List.mem_map.mpr ⟨⟨_, c⟩, AList.mem_lookup_iff.mp hl, rfl⟩

/-- **The server at rest**: in every run, whatever the application does, whenever the loop has
nothing left to do, every connection is open and entered everywhere or closed and gone from
everywhere, with all its notifications made. -/
theorem atRest {threadId_ me : ThreadId} {wakeupFd acceptFd : Fd} {hostport : IpPort}
    {name : List Char} {user : υ} {ls : List ServerAction}
    (run : Run (ServerStep app)
      (.ok (World.init threadId_ me wakeupFd acceptFd hostport name user)) ls (.ok w))
    (hw : w.Resting app) : w.AtRest app := by
  obtain ⟨stage, h, hr⟩ :=
    (ok_run (ok_init threadId_ me wakeupFd acceptFd hostport name user) run).of_ok rfl
  exact h.rests hr hw

/-- A connection has been accepted, and the peer has closed it. -/
theorem atRest_closed :
    ∃ w : World Unit, (w.conns 0).destroyed = true ∧ w.AtRest idleApplication := by
  obtain ⟨w, run, hd, hp, hpend, hset⟩ := World.exists_run_ok idleApplication
    (fun w => (w.conns 0).destroyed = true ∧ w.phase.isPolling = true ∧
      w.loop.pendingFunctors_ = [] ∧ w.Settled idleApplication)
    (.ok (World.init 1 1 3 4 ⟨[], by decide⟩ [] ()))
    [.poll [(4, EPOLLIN)], .handleEvent (some (7, [])) none, .doPendingFunctors, .endFunctors,
      .poll [(7, EPOLLIN)], .handleEvent none (some []), .doPendingFunctors, .runFunctor,
      .endFunctors, .destroy 0] (by decide +kernel)
  exact ⟨w, hd, atRest run ⟨Phase.eq_polling hp, hpend, hset⟩⟩

end NetworkStructure
