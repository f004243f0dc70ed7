import NetworkStructure.Idle

/-! # A MyServer that is left alone

A functor of the server queues only functors that come later in the life of a connection: it is
established, force-closed, removed, destroyed (`PendingFunctor.rank`).  What is queued while a
batch runs is for the next round of the loop.  So when nothing happens on the network any more,
all that is queued has been done after four rounds (`settles`), and then `AtRest` says what is
left: the connections that are connected, at most as many as the limit. -/

namespace NetworkStructure

/-- How many rounds of the loop a functor can take until all is done that it leads to. -/
@[simp] def PendingFunctor.rank : PendingFunctor → ℕ
  | connectEstablished _ => 4
  | forceCloseInLoop _ => 3
  | removeConnectionInLoop _ => 2
  | _ => 1

theorem PendingFunctor.rank_pos (f : PendingFunctor) : 0 < f.rank := by
  cases f <;> exact Nat.succ_pos _

variable {w w' w'' : World MyServer} {c : ConnId} {f : PendingFunctor} {K n : ℕ}
  {stage : ConnId → Stage} {a : ServerAction} {ls : List ServerAction}

/-! ### What a functor queues -/

/-- Only functors of a lower rank than `n` have been queued, in the same phase. -/
def Queues (n : ℕ) (w w' : World MyServer) : Prop :=
  w'.phase = w.phase ∧
    ∃ fs, w'.loop.pendingFunctors_ = w.loop.pendingFunctors_ ++ fs ∧ ∀ g ∈ fs, g.rank < n

theorem Became.queues {s : StateE} {fs : List PendingFunctor} {u : MyServer}
    (h : Became w w' c s fs u) (hfs : ∀ g ∈ fs, g.rank < n) : Queues n w w' :=
  ⟨h.same.phase, fs, h.pending, hfs⟩

theorem Calm.queues (h : Calm w w') : Queues n w w' :=
  (h 0).queues fun _ hg => absurd hg List.not_mem_nil

/-- The step is one of the loop, and nothing has happened on the network. -/
def ServerAction.Quiet : ServerAction → Prop
  | poll report => report = []
  | doPendingFunctors | runFunctor | endFunctors | destroy _ => True
  | handleEvent _ _ | queueInLoop _ _ => False

/-- The rounds of the loop that end. -/
def rounds (ls : List ServerAction) : ℕ :=
  ls.countP fun
    | .endFunctors => true
    | _ => false

/-- After `n` more rounds nothing will be queued. -/
def World.Winding (n : ℕ) (w : World MyServer) : Prop :=
  match w.phase with
  | .polling | .handling [] => ∀ f ∈ w.loop.pendingFunctors_, f.rank ≤ n
  | .handling (_ :: _) => False
  | .functors _ rest =>
      (∀ f ∈ rest, f.rank ≤ n) ∧ ∀ f ∈ w.loop.pendingFunctors_, f.rank < n

theorem World.Winding.runFunctor {ran rest : List PendingFunctor} (h : w.Winding n)
    (hp : w.phase = .functors ran (f :: rest))
    (hq : Queues f.rank { w with phase := .functors (ran ++ [f]) rest } w') : w'.Winding n := by
  obtain ⟨hphase, fs, hpend, hfs⟩ := hq
  unfold World.Winding at h ⊢
  rw [hp] at h
  rw [hphase, hpend]
  refine ⟨fun g hg => h.1 g (List.mem_cons_of_mem f hg), fun g hg => ?_⟩
  rcases List.mem_append.mp hg with hg | hg
  · exact h.2 g hg
  · exact Nat.lt_of_lt_of_le (hfs g hg) (h.1 f List.mem_cons_self)

theorem World.Winding.pending (h : w.Winding 0) : w.loop.pendingFunctors_ = [] := by
  refine List.eq_nil_iff_forall_not_mem.mpr fun f hf => ?_
  have hpos := f.rank_pos
  unfold World.Winding at h
  split at h
  · have hle := h f hf
    omega
  · have hle := h f hf
    omega
  · exact h
  · have hlt := h.2 f hf
    omega

/-- A round that ends brings the process nearer to rest. -/
def remaining (n : ℕ) : ServerAction → ℕ
  | .endFunctors => n - 1
  | _ => n

/-- What is left of a `MyServer` that is at rest. -/
structure World.Settles (K : ℕ) (w : World MyServer) : Prop where
  /-- The connections that exist are those that are connected. -/
  live : ∀ c < w.created, w.Live c ↔ (w.conns c).state_ = .kConnected
  rest : w.AtRest MyServer.application
  counted : w.user.numConnected_ = w.server.connections_.entries.length
  atMost : w.server.connections_.entries.length ≤ K

theorem Served.settled (h : Served K w) (hw : w.Resting MyServer.application) : w.Settles K := by
  obtain ⟨stage, hok, hr⟩ := h.ok
  have hrest := hok.rests hr hw
  have hnone : w.admission.rest ++ w.admission.pending = [] := by
    show w.rest ++ w.loop.pendingFunctors_ = []
    rw [World.rest, hw.phase, hw.pending]
    rfl
  -- a refused connection would be waiting for its `forceCloseInLoop`
  have hclosing : ∀ c, (w.conns c).state_ ≠ .kDisconnecting := fun c hs => by
    have hm := h.fair.gate.refused c hs
    rw [hnone] at hm
    cases hm
  have hcount : w.server.connections_.entries.length = w.admission.opened := hrest.entries
  have hopen : w.admission.opened = w.admission.connected :=
    Admission.opened_eq_connected hclosing
  refine ⟨fun c hc => ⟨fun hl => ?_, fun hs => (hrest.opened c hc (.inl hs)).live⟩, hrest, ?_, ?_⟩
  · by_contra hs
    have hd := (hrest.closed c hc fun ho => ho.elim hs (hclosing c)).destroyed rfl
    rw [hl.2] at hd
    cases hd
  · rw [hcount]
    exact h.fair.tally.counted
  · rw [hcount, hopen]
    exact h.fair.tally.atMost

end NetworkStructure
