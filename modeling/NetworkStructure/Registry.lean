import NetworkStructure.LifeCycle

/-! # The registry of the server and the reuse of descriptors

`connections_` is keyed by name, the poller by descriptor.  Names are never reused, so an entry
is never overwritten.  Descriptors are: a stale entry in `channels_` under a reused descriptor
would make the poller ignore the new connection.  There is none, because a connection is
destroyed, and its descriptor closed, only after `connectDestroyed` has removed its channel
(`registry`).

The same order of functors makes the raw pointer of `shutdown` harmless: `shutdownInLoop` is bound
to `this`, but while one is queued the connection is still entered in `connections_`, or its
`connectDestroyed` is still to come (`rawShutdown`). -/

namespace NetworkStructure

variable {υ : Type} {app : Application υ} {w : World υ} {stage : ConnId → Stage} {c : ConnId}

namespace World

/-- The channel of `c` is neither in `channels_` nor in the interest set. -/
def Erased (w : World υ) (c : ConnId) : Prop :=
  ∀ fd, w.loop.poller_.channels_ fd ≠ some (.conn c) ∧
    ∀ e, w.loop.poller_.kernel fd = some e → e.ptr ≠ .conn c

/-- The registry of connections and the poller agree with the connections. -/
structure RegistryOk (app : Application υ) (w : World υ) : Prop where
  /-- Every entry is keyed by the name of the connection it holds. -/
  keyed : ∀ name c, w.server.connections_.lookup name = some c →
    c < w.created ∧ (w.conns c).name_ = name
  /-- `newConnection` does not overwrite an entry. -/
  fresh : w.server.connections_.lookup (w.server.connName w.server.nextConnId_) = none
  entered : ∀ c < w.created, (w.conns c).state_ ≠ .kDisconnected →
    w.server.connections_.lookup (w.conns c).name_ = some c
  /-- A descriptor is closed only after its channel has been erased. -/
  closed : ∀ c t, Step app w (.destroy c) t → w.Erased c
  /-- The descriptor of a connection that is not established yet is not in `channels_`. -/
  connecting : ∀ c < w.created, (w.conns c).state_ = .kConnecting →
    w.loop.poller_.channels_ (w.conns c).channel_.fd_ = none
  /-- Nor is a descriptor that `accept` may answer with. -/
  accepted : ∀ fd, ¬ w.IsOpen fd → w.loop.poller_.channels_ fd = none

end World

/-- A live connection that has been through `connectDestroyed` is erased. -/
theorem WorldOk.erased (h : WorldOk w stage) (hl : w.Live c) (hs : stage c = .gone) :
    w.Erased c := by
  have hok := h.conn c hl.1
  rw [hs] at hok
  obtain ⟨hc, hk⟩ := hok.slot_of_gone hl.2
  refine fun fd => ⟨fun he => ?_, fun e he hp => ?_⟩
  · -- an entry of the channel is under its own descriptor
    obtain ⟨-, rfl⟩ := h.channels_ fd _ he
    rw [hc] at he
    cases he
  · have hs := h.kernel fd e he
    rw [hp] at hs
    obtain ⟨-, rfl⟩ := hs
    rw [hk] at he
    cases he

theorem WorldOk.registryOk (h : WorldOk w stage) (hr : ∀ c, (stage c).resting = true) :
    w.RegistryOk app where
  keyed := h.entries
  fresh := h.lookup_connName
  entered c hc hs := by
    have hok := h.conn c hc
    rw [Ne, hok.state_eq_kDisconnected] at hs
    have he := hok.entry
    rwa [if_pos] at he
    cases hsc : stage c <;> simp_all [Stage.entered]
  closed c t hs := by
    cases hs with
    | destroy hl ho => exact h.erased hl (h.gone_of_not_owned hr hl.1 ho)
  connecting c hc hs := by
    have hok := h.conn c hc
    have hst := hok.state_eq_kConnecting.mp hs
    have hl := hok.not_destroyed (by rintro hg; simp [hg] at hst)
    have hx : (w.conns c).channel_.index_ = .cNew := by
      rw [hok.index_]
      rcases hst with hst | hst <;> rw [hst] <;> rfl
    exact ((inStep_cNew hx).mp (hok.inStep hl)).2.1
  accepted fd hfd := (h.wiring.slot_of_not_isOpen hfd).1

/-- **Registry and descriptor-reuse safety**: in every run of the server, whatever the
application does, `connections_` holds exactly the connections it should under their own names,
and no descriptor is closed while its channel is registered. -/
theorem registry {threadId_ me : ThreadId} {wakeupFd acceptFd : Fd} {hostport : IpPort}
    {name : List Char} {user : υ} {ls : List ServerAction}
    (run : Run (ServerStep app)
      (.ok (World.init threadId_ me wakeupFd acceptFd hostport name user)) ls (.ok w)) :
    w.RegistryOk app := by
  obtain ⟨stage, hw, hr⟩ :=
    (ok_run (ok_init threadId_ me wakeupFd acceptFd hostport name user) run).of_ok rfl
  exact hw.registryOk hr

/-- The client on descriptor 7 closes, its connection is destroyed, and the next client is accepted
on the same descriptor. -/
theorem registry_example :
    ∃ w : World Unit, (w.conns 0).destroyed = true ∧
      w.loop.poller_.channels_ 7 = some (.conn 1) ∧ w.RegistryOk idleApplication := by
  obtain ⟨w, run, hd, hr⟩ := World.exists_run_ok idleApplication
    (fun w => (w.conns 0).destroyed = true ∧ w.loop.poller_.channels_ 7 = some (.conn 1))
    (.ok (World.init 1 1 3 4 ⟨[], by decide⟩ [] ()))
    [.poll [(4, EPOLLIN)], .handleEvent (some (7, [])) none, .doPendingFunctors, .endFunctors,
      .poll [(7, EPOLLIN)], .handleEvent none (some []), .doPendingFunctors, .runFunctor,
      .endFunctors, .destroy 0, .poll [(4, EPOLLIN)], .handleEvent (some (7, [])) none]
    (by decide +kernel)
  exact ⟨w, hd, hr, registry run⟩

/-! ### The functor that is bound to `this` -/

/-- `connections_` or a functor of the loop owns the connection. -/
def World.HeldByLoop (w : World υ) (c : ConnId) : Prop :=
  (∃ name, w.server.connections_.lookup name = some c) ∨
    ∃ f ∈ w.batch ++ w.loop.pendingFunctors_, f.owns c = true

/-- Between two functors a connection that is not gone is owned by the loop. -/
theorem WorldOk.heldByLoop (h : WorldOk w stage) (hr : (stage c).resting = true)
    (hc : c < w.created) (hs : stage c ≠ .gone) : w.HeldByLoop c := by
  have hok := h.conn c hc
  cases hsc : stage c with
  | gone => exact absurd hsc hs
  | destroying =>
      have hm : .connectDestroyed c ∈ w.queue.filter (PendingFunctor.lifeOf c) := by
        rw [hok.functors, hsc]
        exact List.mem_singleton_self _
      refine .inr ⟨_, queue_subset_batch (List.mem_filter.mp hm).1, ?_⟩
      simp [PendingFunctor.owns]
  | newborn | down | closing | erased =>
      rw [hsc] at hr
      cases hr
  | connecting | opened | removing =>
      have he := hok.entry
      rw [hsc] at he
      exact .inl ⟨_, he⟩

theorem WorldOk.heldByLoop_of_shutdownInLoop (h : WorldOk w stage)
    (hr : ∀ d, (stage d).resting = true) (hm : .shutdownInLoop c ∈ w.queue) : w.HeldByLoop c := by
  have hc := h.target _ hm c rfl
  exact h.heldByLoop (hr c) hc fun hg => (h.conn c hc).raw hg hm

/-- **The raw pointer of `shutdown`**: in every run of the server, whatever the application does,
a `shutdownInLoop` that is about to be executed finds its connection alive, and owned by
`connections_` or by a functor. -/
theorem rawShutdown {threadId_ me : ThreadId} {wakeupFd acceptFd : Fd} {hostport : IpPort}
    {name : List Char} {user : υ} {ls : List ServerAction} {t : Except Fault (World υ)}
    (run : Run (ServerStep app)
      (.ok (World.init threadId_ me wakeupFd acceptFd hostport name user)) ls t) :
    t ≠ .error .useAfterFree ∧
      ∀ w, t = .ok w → ∀ c ran rest, w.phase = .functors ran (.shutdownInLoop c :: rest) →
        w.HeldByLoop c ∧ w.Live c := by
  have h := ok_run (ok_init threadId_ me wakeupFd acceptFd hostport name user) run
  refine ⟨?_, ?_⟩
  · rintro rfl
    rcases h with h | h <;> cases h
  · rintro w rfl c ran rest hp
    obtain ⟨stage, hw, hr⟩ := h
    have hm : .shutdownInLoop c ∈ w.queue := by simp [World.queue, World.rest, hp]
    exact ⟨hw.heldByLoop_of_shutdownInLoop hr hm, hw.live_of_shutdownInLoop hm⟩

/-- An application that shuts every connection down when it comes up. -/
def shutdownApplication : Application Unit where
  connectionCallback c _ _ := ((), [.member (some c) .shutdown])
  messageCallback _ _ _ _ := ((), [])
  functor _ _ _ := ((), [])

/-- The loop runs on another thread than `threadId_`, so that `shutdown` queues its functor; it
is executed in the next round. -/
theorem rawShutdown_example :
    ∃ (w : World Unit) (ran rest : List PendingFunctor),
      w.phase = .functors ran (.shutdownInLoop 0 :: rest) ∧ w.HeldByLoop 0 ∧ w.Live 0 := by
  obtain ⟨w, run, hw⟩ := World.exists_run_ok shutdownApplication
    (fun w => w.rest = [.shutdownInLoop 0])
    (.ok (World.init 1 2 3 4 ⟨[], by decide⟩ [] ()))
    [.poll [(4, EPOLLIN)], .handleEvent (some (7, [])) none, .doPendingFunctors, .runFunctor,
      .endFunctors, .poll [(3, EPOLLIN)], .handleEvent none none, .doPendingFunctors]
    (by decide +kernel)
  cases hp : w.phase with
  | functors ran rest =>
      obtain rfl : rest = [.shutdownInLoop 0] := by simpa [World.rest, hp] using hw
      exact ⟨w, ran, [], hp, (rawShutdown run).2 w rfl 0 ran [] hp⟩
  | polling | handling _ =>
      rw [World.rest, hp] at hw
      cases hw

end NetworkStructure
