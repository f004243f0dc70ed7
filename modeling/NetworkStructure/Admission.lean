import NetworkStructure.Counting
import NetworkStructure.MyServer

/-! # The admission of connections

`Admission` is what the admission control of a `MyServer` is about: the states of the
connections, the functors that are queued, how many connections may still be accepted before the
next poll, and the server.  `Move` are the moves of this machine.

A refused connection stays in `kDisconnecting` until its `forceCloseInLoop` runs, and it is
counted until then.  That it never takes the place of another is a matter of order (`Gate`): at
most one connection is established between two polls, and no `forceCloseInLoop` comes after a
`connectEstablished` that is still to run.  So whenever a connection is established, none is in
`kDisconnecting`, and the counter is the number of the connected ones (`Tally`). -/

namespace NetworkStructure

/-! ### The machine -/

namespace PendingFunctor

def isEstablish : PendingFunctor → Bool
  | connectEstablished _ => true
  | _ => false

def isForceClose : PendingFunctor → Bool
  | forceCloseInLoop _ => true
  | _ => false

def isOutput : PendingFunctor → Bool
  | writeCompleteCallback _ | highWaterMarkCallback _ _ => true
  | _ => false

/-- A functor of no interest here, and that a `MyServer` may have in its queue. -/
def Neutral (f : PendingFunctor) : Prop :=
  f.isEstablish = false ∧ f.isForceClose = false ∧ f.isOutput = false

end PendingFunctor

def StateE.IsOpen (s : StateE) : Prop := s = .kConnected ∨ s = .kDisconnecting

instance : DecidablePred StateE.IsOpen := fun _ => inferInstanceAs (Decidable (_ ∨ _))

structure Admission where
  /-- The loop runs on the thread `threadId_`: what it hands to `runInLoop` runs at once. -/
  direct : Bool
  created : ℕ
  state : ConnId → StateE
  /-- The functors of the batch that are still to run. -/
  rest : List PendingFunctor
  pending : List PendingFunctor
  /-- How many connections may be accepted before the next poll, or, once the events are
  handled, in the next one. -/
  accepts : ℕ
  user : MyServer

namespace Admission

variable (a : Admission)

/-- The connections in `kConnected` or `kDisconnecting`. -/
def opened : ℕ := Nat.count (fun c => (a.state c).IsOpen) a.created

/-- The connections in `kConnected`. -/
def connected : ℕ := Nat.count (fun c => a.state c = .kConnected) a.created

def insert : Admission :=
  { a with
    created := a.created + 1
    state := Function.update a.state a.created .kConnecting
    accepts := a.accepts - 1 }

/-- The functors that a refusal queues. -/
def Refusal (c : ConnId) (fs : List PendingFunctor) : Prop :=
  fs = [.forceCloseInLoop c] ∨ fs = [.shutdownInLoop c, .forceCloseInLoop c]

/-- The admitted connections that are connected when `c` has come up. -/
def others (c : ConnId) : List ConnId :=
  a.user.admitted.filter fun d => decide (Function.update a.state c .kConnected d = .kConnected)

/-- The connection `c` comes up, and is refused when the server is full. -/
def up (c : ConnId) (fs : List PendingFunctor) : Admission :=
  if a.user.numConnected_ + 1 > a.user.kMaxConnections_ then
    { a with
      state := Function.update a.state c .kDisconnecting
      pending := a.pending ++ fs
      user := a.user.up c (a.others c) }
  else
    { a with
      state := Function.update a.state c .kConnected
      user := a.user.up c (a.others c) }

/-- `c` is closed, if it is open; `f` is the functor that `closeCallback_` queues. -/
def close (c : ConnId) (f : PendingFunctor) : Admission :=
  if (a.state c).IsOpen then
    { a with
      state := Function.update a.state c .kDisconnected
      pending := a.pending ++ [f]
      user := a.user.down }
  else a

inductive Move (a : Admission) : Admission → Prop
  | pass {n : ℕ} (hn : n ≤ a.accepts) : Move a { a with accepts := n }
  | swap (hr : a.rest = []) : Move a { a with rest := a.pending, pending := [], accepts := 1 }
  | take {f : PendingFunctor} {rest : List PendingFunctor} (hr : a.rest = f :: rest)
      (he : f.isEstablish = false) (hf : f.isForceClose = false) : Move a { a with rest := rest }
  | push {f : PendingFunctor} (hf : f.Neutral) : Move a { a with pending := a.pending ++ [f] }
  | accept (hn : a.accepts ≠ 0) (hd : a.direct = false) (hr : a.rest = []) :
      Move a { a.insert with pending := a.pending ++ [.connectEstablished a.created] }
  | acceptUp (hn : a.accepts ≠ 0) (hd : a.direct = true) (hr : a.rest = [])
      {fs : List PendingFunctor} (hfs : Refusal a.created fs) : Move a (a.insert.up a.created fs)
  | establish {c : ConnId} {rest fs : List PendingFunctor}
      (hr : a.rest = .connectEstablished c :: rest) (hc : c < a.created)
      (hs : a.state c = .kConnecting) (hfs : Refusal c fs) :
      Move a ({ a with rest := rest }.up c fs)
  | forceClose {c : ConnId} {rest : List PendingFunctor} {f : PendingFunctor}
      (hr : a.rest = .forceCloseInLoop c :: rest) (hc : c < a.created) (hf : f.Neutral) :
      Move a ({ a with rest := rest }.close c f)
  | close {c : ConnId} {f : PendingFunctor} (hc : c < a.created) (hf : f.Neutral) :
      Move a (a.close c f)

/-! ### The order of the functors -/

/-- Connections are established and force-closed in order. -/
structure Gate (a : Admission) : Prop where
  refused : ∀ c, a.state c = .kDisconnecting → .forceCloseInLoop c ∈ a.rest ++ a.pending
  late : ∀ c, .forceCloseInLoop c ∈ a.rest ++ a.pending → a.state c ≠ .kConnecting
  order : (a.rest ++ a.pending).Pairwise fun f g => f.isEstablish = true → g.isForceClose = false
  batch : a.rest.countP (·.isEstablish) ≤ 1
  gate : a.pending.countP (·.isEstablish) + a.accepts ≤ 1
  busy : a.rest ≠ [] → ∀ f ∈ a.pending, f.isEstablish = false
  queued : a.direct = true → ∀ f ∈ a.rest ++ a.pending, f.isEstablish = false
  first : a.direct = true → a.accepts ≠ 0 → ∀ f ∈ a.pending, f.isForceClose = false
  unborn : ∀ c, a.created ≤ c → a.state c = .kConnecting

variable {a : Admission} {c : ConnId} {f : PendingFunctor} {fs rest : List PendingFunctor}

/-- No connection is in `kDisconnecting` when the loop establishes the connection that it has
accepted. -/
theorem Gate.clear_of_direct (h : a.Gate) (hd : a.direct = true) (hn : a.accepts ≠ 0)
    (hr : a.rest = []) (d : ConnId) : a.state d ≠ .kDisconnecting := by
  intro hs
  have hm := h.refused d hs
  rw [hr, List.nil_append] at hm
  exact absurd (h.first hd hn _ hm) (by simp [PendingFunctor.isForceClose])

/-- Nor when a queued `connectEstablished` is about to run. -/
theorem Gate.clear_of_queued (h : a.Gate) (hr : a.rest = .connectEstablished c :: rest)
    (d : ConnId) : a.state d ≠ .kDisconnecting := by
  intro hs
  have hm := h.refused d hs
  have ho := h.order
  rw [hr, List.cons_append] at hm ho
  rcases List.mem_cons.mp hm with hm | hm
  · cases hm
  · exact absurd ((List.pairwise_cons.mp ho).1 _ hm rfl) (by simp [PendingFunctor.isForceClose])

/-- A queued `connectEstablished` is the only one. -/
theorem Gate.unique (h : a.Gate) (hr : a.rest = .connectEstablished c :: rest) :
    ∀ f ∈ rest ++ a.pending, f.isEstablish = false := by
  intro f hf
  rcases List.mem_append.mp hf with hf | hf
  · have hb := h.batch
    rw [hr, List.countP_cons_of_pos rfl] at hb
    have h0 := List.countP_eq_zero.mp (Nat.le_zero.mp (Nat.le_of_succ_le_succ hb))
    simpa using h0 f hf
  · exact h.busy (by simp [hr]) f hf

theorem Gate.pass (h : a.Gate) {n : ℕ} (hn : n ≤ a.accepts) : ({ a with accepts := n }).Gate :=
  { h with
    gate := Nat.le_trans (Nat.add_le_add_left hn _) h.gate
    first := fun hd hn' => h.first hd (by
      rintro h0
      exact hn' (Nat.le_zero.mp (h0 ▸ hn))) }

theorem Gate.swap (h : a.Gate) (hr : a.rest = []) :
    ({ a with rest := a.pending, pending := [], accepts := 1 }).Gate where
  refused c hs := by
    have := h.refused c hs
    rwa [hr, List.nil_append, ← List.append_nil a.pending] at this
  late c hm := h.late c (by simpa [hr] using hm)
  order := by
    have := h.order
    rwa [hr, List.nil_append, ← List.append_nil a.pending] at this
  batch := Nat.le_trans (Nat.le_add_right _ _) h.gate
  gate := Nat.le_refl 1
  busy _ f hf := nomatch hf
  queued hd f hf := h.queued hd f (by simpa [hr] using hf)
  first _ _ f hf := nomatch hf
  unborn := h.unborn

/-- The head of the batch is taken. -/
theorem Gate.tail (h : a.Gate) (hr : a.rest = f :: rest)
    (hf : ∀ c, f = .forceCloseInLoop c → a.state c ≠ .kDisconnecting) :
    ({ a with rest := rest }).Gate where
  refused c hs := by
    have hm := h.refused c hs
    rw [hr, List.cons_append] at hm
    rcases List.mem_cons.mp hm with hm | hm
    · exact absurd hs (hf c hm.symm)
    · exact hm
  late c hm := h.late c (by rw [hr]; exact List.mem_cons_of_mem _ hm)
  order := by
    have ho := h.order
    rw [hr, List.cons_append] at ho
    exact (List.pairwise_cons.mp ho).2
  batch := by
    have hb := h.batch
    rw [hr, List.countP_cons] at hb
    exact Nat.le_trans (Nat.le_add_right _ _) hb
  gate := h.gate
  busy _ := h.busy (by simp [hr])
  queued hd g hg := h.queued hd g (by rw [hr]; exact List.mem_cons_of_mem _ hg)
  first := h.first
  unborn := h.unborn

/-- Functors that establish nothing are queued; a `forceCloseInLoop` among them comes after all
that are established. -/
theorem Gate.append (h : a.Gate) (he : ∀ f ∈ fs, f.isEstablish = false)
    (hc : (∃ f ∈ fs, f.isForceClose = true) →
      (∀ f ∈ a.rest ++ a.pending, f.isEstablish = false) ∧ (a.direct = true → a.accepts = 0))
    (hl : ∀ c, .forceCloseInLoop c ∈ fs → a.state c ≠ .kConnecting) :
    ({ a with pending := a.pending ++ fs }).Gate where
  refused c hs := by
    rw [← List.append_assoc]
    exact List.mem_append_left _ (h.refused c hs)
  late c hm := by
    rw [← List.append_assoc] at hm
    exact (List.mem_append.mp hm).elim (h.late c) (hl c)
  order := by
    rw [← List.append_assoc, List.pairwise_append]
    refine ⟨h.order, ?_, ?_⟩
    · exact List.pairwise_of_forall_mem_list fun f hf g _ hfe => by simp [he f hf] at hfe
    · intro f hf g hg hfe
      by_contra hgc
      have hno := (hc ⟨g, hg, by simpa using hgc⟩).1 f hf
      simp [hno] at hfe
  batch := h.batch
  gate := by
    have h0 : fs.countP (·.isEstablish) = 0 := List.countP_eq_zero.mpr fun f hf => by
      simp [he f hf]
    simpa [List.countP_append, h0] using h.gate
  busy hr f hf := (List.mem_append.mp hf).elim (h.busy hr f) (he f)
  queued hd f hf := by
    rw [← List.append_assoc] at hf
    exact (List.mem_append.mp hf).elim (h.queued hd f) (he f)
  first hd hn f hf := by
    rcases List.mem_append.mp hf with hf | hf
    · exact h.first hd hn f hf
    · by_contra hfc
      exact hn ((hc ⟨f, hf, by simpa using hfc⟩).2 hd)
  unborn := h.unborn

theorem Gate.push (h : a.Gate) (hf : f.Neutral) :
    ({ a with pending := a.pending ++ [f] }).Gate := by
  refine h.append (fun g hg => List.mem_singleton.mp hg ▸ hf.1) ?_ ?_
  · rintro ⟨g, hg, hgc⟩
    rw [List.mem_singleton.mp hg, hf.2.1] at hgc
    cases hgc
  · intro c hc
    have := hf.2.1
    rw [← List.mem_singleton.mp hc] at this
    cases this

/-- A connection moves on, and is not left in `kDisconnecting` without its `forceCloseInLoop`. -/
theorem Gate.setState (h : a.Gate) (hc : c < a.created) {s : StateE} (hk : s ≠ .kConnecting)
    (hd : s = .kDisconnecting → .forceCloseInLoop c ∈ a.rest ++ a.pending) :
    ({ a with state := Function.update a.state c s }).Gate :=
  { h with
    refused := fun d hs => by
      by_cases hdc : d = c
      · subst hdc
        exact hd (by simpa using hs)
      · exact h.refused d (by simpa [hdc] using hs)
    late := fun d hm => by
      by_cases hdc : d = c
      · subst hdc
        simpa using hk
      · simpa [hdc] using h.late d hm
    unborn := fun d hd => by
      have hdc : d ≠ c := fun he => Nat.not_lt.mpr (he ▸ hd) hc
      simpa [hdc] using h.unborn d hd }

/-- A connection that has not been created is in the state that it will be created in. -/
theorem Gate.insert_state (h : a.Gate) : a.insert.state = a.state :=
  Function.update_eq_self_iff.mpr (h.unborn a.created (Nat.le_refl _)).symm

theorem Gate.insert (h : a.Gate) : a.insert.Gate := by
  have hs : Function.update a.state a.created .kConnecting = a.state := h.insert_state
  have hp := h.pass (Nat.sub_le a.accepts 1)
  rw [Admission.insert, hs]
  exact { hp with unborn := fun c hc => h.unborn c (Nat.le_of_succ_le hc) }

/-- The loop queues the `connectEstablished` of the connection that it has accepted. -/
theorem Gate.pushEstablish (h : a.Gate) (hd : a.direct = false) (hr : a.rest = [])
    (hn : a.pending.countP (·.isEstablish) + a.accepts = 0) :
    ({ a with pending := a.pending ++ [PendingFunctor.connectEstablished c] }).Gate where
  refused d hs := by
    rw [← List.append_assoc]
    exact List.mem_append_left _ (h.refused d hs)
  late d hm := h.late d (by simpa using hm)
  order := by
    rw [← List.append_assoc, List.pairwise_append]
    refine ⟨h.order, List.pairwise_singleton _ _, fun f _ g hg _ => ?_⟩
    rw [List.mem_singleton.mp hg]
    rfl
  batch := h.batch
  gate := by
    have h1 : [PendingFunctor.connectEstablished c].countP (·.isEstablish) = 1 := rfl
    rw [List.countP_append, h1]
    exact Nat.le_of_eq (by rw [Nat.add_right_comm, hn])
  busy hr' := absurd hr hr'
  queued hd' := absurd (hd.symm.trans hd') (by decide)
  first hd' := absurd (hd.symm.trans hd') (by decide)
  unborn := h.unborn

theorem Gate.up (h : a.Gate) (hc : c < a.created)
    (hq : ∀ f ∈ a.rest ++ a.pending, f.isEstablish = false)
    (hd : a.direct = true → a.accepts = 0) (hfs : Refusal c fs) : (a.up c fs).Gate := by
  have h₁ := h.setState hc (s := .kConnected) (by decide) (fun he => nomatch he)
  have hu : ∀ {b : Admission} (u : MyServer), b.Gate → ({ b with user := u }).Gate :=
    fun _ hb => { hb with }
  unfold Admission.up
  split
  · have hin : .forceCloseInLoop c ∈ fs := by rcases hfs with rfl | rfl <;> simp
    have hfe : ∀ f ∈ fs, f.isEstablish = false := by
      rcases hfs with rfl | rfl <;> simp [PendingFunctor.isEstablish]
    have h₂ := h₁.append hfe
      (fun _ => ⟨hq, hd⟩)
      (fun d hm => by
        have : d = c := by rcases hfs with rfl | rfl <;> simpa using hm
        simp [this])
    have h₃ := h₂.setState hc (s := .kDisconnecting) (by decide)
      fun _ => List.mem_append_right _ (List.mem_append_right _ hin)
    rw [Function.update_idem] at h₃
    exact hu _ h₃
  · exact hu _ h₁

theorem Gate.close (h : a.Gate) (hc : c < a.created) (hf : f.Neutral) : (a.close c f).Gate := by
  unfold Admission.close
  split
  · have h₁ := (h.setState hc (s := .kDisconnected) (by decide) (fun he => nomatch he)).push hf
    exact { h₁ with }
  · exact h

theorem close_state_ne (a : Admission) (c : ConnId) (f : PendingFunctor) :
    (a.close c f).state c ≠ .kDisconnecting := by
  unfold Admission.close
  split
  · simp
  · next h => exact fun hs => h (.inr hs)

theorem Gate.move {a' : Admission} (h : a.Gate) (hm : Move a a') : a'.Gate := by
  cases hm with
  | pass hn => exact h.pass hn
  | swap hr => exact h.swap hr
  | take hr he hf =>
      refine h.tail hr fun c hc => ?_
      rw [hc] at hf
      cases hf
  | push hf => exact h.push hf
  | accept hn hd hr =>
      have hg := h.gate
      apply h.insert.pushEstablish hd hr
      show a.pending.countP (·.isEstablish) + (a.accepts - 1) = 0
      omega
  | acceptUp hn hd hr hfs =>
      refine h.insert.up (Nat.lt_succ_self _) (h.queued hd) (fun _ => ?_) hfs
      have := h.gate
      show a.accepts - 1 = 0
      omega
  | establish hr hc hs hfs =>
      have ht := h.tail hr fun _ he => nomatch he
      refine ht.up hc ?_ ?_ hfs
      · exact h.unique hr
      · intro hd
        have := h.queued hd _ (by rw [hr]; exact List.mem_cons_self ..)
        cases this
  | @forceClose c rest f hr hc hf =>
      have hcl := h.close hc hf
      have he : ({ a with rest := rest }).close c f = { a.close c f with rest := rest } := by
        unfold Admission.close
        dsimp only
        split <;> rfl
      rw [he]
      refine hcl.tail (f := .forceCloseInLoop c) ?_ fun d hd => ?_
      · unfold Admission.close
        split <;> exact hr
      · cases hd
        exact close_state_ne a c f
  | close hc hf => exact h.close hc hf

/-! ### The counter -/

/-- The server counts the open connections and admits no more than `K` of them. -/
structure Tally (K : ℕ) (a : Admission) : Prop where
  limit : a.user.kMaxConnections_ = K
  counted : a.user.numConnected_ = a.opened
  atMost : a.connected ≤ K
  admitted : ∀ c, a.state c = .kConnected → c ∈ a.user.admitted
  nodup : a.user.admitted.Nodup
  known : ∀ c ∈ a.user.admitted, a.state c ≠ .kConnecting
  /-- Whenever a connection was refused, `K` others that had been admitted were connected. -/
  refusals : ∀ r ∈ a.user.refusals, r.2.Nodup ∧ r.2.length = K

variable {K : ℕ}

/-- Where no connection is in `kDisconnecting`, the open ones are the connected ones. -/
theorem opened_eq_connected (h : ∀ d, a.state d ≠ .kDisconnecting) : a.opened = a.connected := by
  unfold opened connected
  congr 1
  funext d
  simp [StateE.IsOpen, h d]

theorem opened_setState (hc : c < a.created) (s : StateE) :
    ({ a with state := Function.update a.state c s }).opened +
        (if (a.state c).IsOpen then 1 else 0) =
      a.opened + (if s.IsOpen then 1 else 0) :=
  count_comp_update StateE.IsOpen a.state hc s

theorem connected_setState (hc : c < a.created) (s : StateE) :
    ({ a with state := Function.update a.state c s }).connected +
        (if a.state c = .kConnected then 1 else 0) =
      a.connected + (if s = .kConnected then 1 else 0) :=
  count_comp_update (· = StateE.kConnected) a.state hc s

/-- The admitted connections that are connected are all that are. -/
theorem Tally.length_others (h : a.Tally K) (hu : ∀ d, a.created ≤ d → a.state d = .kConnecting)
    (hs : a.state c = .kConnecting) :
    (a.others c).Nodup ∧ (a.others c).length = a.connected := by
  have hnd : (a.others c).Nodup := h.nodup.filter _
  refine ⟨hnd, length_eq_count hnd fun d => ?_⟩
  simp only [others, List.mem_filter, decide_eq_true_eq]
  constructor
  · rintro ⟨hm, hd⟩
    have hdc : d ≠ c := by
      rintro rfl
      exact h.known d hm hs
    rw [Function.update_of_ne hdc] at hd
    refine ⟨Nat.lt_of_not_le fun hle => ?_, hd⟩
    rw [hu d hle] at hd
    cases hd
  · rintro ⟨-, hd⟩
    refine ⟨h.admitted d hd, ?_⟩
    by_cases hdc : d = c
    · subst hdc
      exact Function.update_self ..
    · rwa [Function.update_of_ne hdc]

/-- A connection moves on and the server takes note of it. -/
theorem Tally.setState (h : a.Tally K) (hc : c < a.created) {s : StateE} (hs : s ≠ .kConnecting)
    {u : MyServer} (hlimit : u.kMaxConnections_ = K)
    (hcount : u.numConnected_ + (if (a.state c).IsOpen then 1 else 0) =
      a.user.numConnected_ + (if s.IsOpen then 1 else 0))
    (hadm : u.admitted = if s = .kConnected then a.user.admitted ++ [c] else a.user.admitted)
    (hnew : s = .kConnected → c ∉ a.user.admitted ∧ a.connected < K)
    (href : ∀ r ∈ u.refusals, r.2.Nodup ∧ r.2.length = K) :
    ({ a with state := Function.update a.state c s, user := u }).Tally K where
  limit := hlimit
  counted := by
    have ho := a.opened_setState hc s
    have hn := h.counted
    show u.numConnected_ = (({ a with state := Function.update a.state c s }).opened : ℤ)
    split at hcount <;> split at hcount <;> simp_all only [if_true, if_false] <;> omega
  atMost := by
    have hk := a.connected_setState hc s
    have hmost := h.atMost
    show ({ a with state := Function.update a.state c s }).connected ≤ K
    by_cases hs' : s = .kConnected
    · have := (hnew hs').2
      rw [if_pos hs'] at hk
      omega
    · rw [if_neg hs'] at hk
      omega
  admitted d hd := by
    have hd : Function.update a.state c s d = .kConnected := hd
    show d ∈ u.admitted
    rw [hadm]
    by_cases hdc : d = c
    · subst hdc
      rw [Function.update_self] at hd
      rw [if_pos hd]
      exact List.mem_append_right _ (List.mem_singleton_self d)
    · rw [Function.update_of_ne hdc] at hd
      have hm := h.admitted d hd
      split
      · exact List.mem_append_left _ hm
      · exact hm
  nodup := by
    show u.admitted.Nodup
    rw [hadm]
    split
    · next hs' =>
      refine List.nodup_append.mpr ⟨h.nodup, List.nodup_singleton c, ?_⟩
      rintro d hd e he rfl
      exact (hnew hs').1 (List.mem_singleton.mp he ▸ hd)
    · exact h.nodup
  known d hd := by
    have hd : d ∈ u.admitted := hd
    show Function.update a.state c s d ≠ .kConnecting
    by_cases hdc : d = c
    · subst hdc
      rwa [Function.update_self]
    · rw [Function.update_of_ne hdc]
      apply h.known d
      rw [hadm] at hd
      split at hd
      · rcases List.mem_append.mp hd with hd | hd
        · exact hd
        · exact absurd (List.mem_singleton.mp hd) hdc
      · exact hd
  refusals := href

/-- **A connection comes up** when no other is in `kDisconnecting`: if it is refused, there are
`K` connected ones. -/
theorem Tally.up (h : a.Tally K) (hclear : ∀ d, a.state d ≠ .kDisconnecting)
    (hu : ∀ d, a.created ≤ d → a.state d = .kConnecting) (hc : c < a.created)
    (hs : a.state c = .kConnecting) (fs : List PendingFunctor) : (a.up c fs).Tally K := by
  have hopen := a.opened_eq_connected hclear
  have hcount := h.counted
  have hlimit := h.limit
  have hmost := h.atMost
  obtain ⟨hnd, hlen⟩ := h.length_others hu hs
  unfold Admission.up
  split
  · next hfull =>
    have ht := h.setState (s := .kDisconnecting) (u := a.user.up c (a.others c)) hc (by decide)
      (by rw [MyServer.up_kMaxConnections_, hlimit])
      (by rw [MyServer.up_numConnected_, hs, if_neg (by decide), if_pos (by decide), Int.add_zero])
      (by rw [MyServer.up_admitted, if_pos hfull, if_neg (by decide)])
      (fun he => nomatch he)
      (fun r hr => by
        rw [MyServer.up_refusals, if_pos hfull, List.mem_append, List.mem_singleton] at hr
        rcases hr with hr | rfl
        · exact h.refusals r hr
        · -- the counter is the number of the connected ones, and it has reached the limit
          exact ⟨hnd, by show (a.others c).length = K; omega⟩)
    exact { ht with }
  · next hfull =>
    refine h.setState hc (by decide) ?_ ?_ ?_ (fun _ => ⟨fun hm => h.known c hm hs, ?_⟩) ?_
    · rw [MyServer.up_kMaxConnections_, hlimit]
    · rw [MyServer.up_numConnected_, hs, if_neg (by decide), if_pos (by decide), Int.add_zero]
    · rw [MyServer.up_admitted, if_neg hfull, if_pos rfl]
    · omega
    · rw [MyServer.up_refusals, if_neg hfull]
      exact h.refusals

theorem Tally.close (h : a.Tally K) (hc : c < a.created) (f : PendingFunctor) :
    (a.close c f).Tally K := by
  unfold Admission.close
  split
  · next hopen =>
    have ht := h.setState (s := .kDisconnected) (u := a.user.down) hc (by decide) h.limit
      (by
        rw [if_pos hopen, if_neg (by decide), MyServer.down]
        exact (Int.sub_add_cancel _ _).trans (Int.add_zero _).symm)
      rfl (fun he => nomatch he) h.refusals
    exact { ht with }
  · exact h

theorem Tally.insert (h : a.Tally K) (hg : a.Gate) : a.insert.Tally K := by
  have hs : Function.update a.state a.created .kConnecting = a.state := hg.insert_state
  have hnew := hg.unborn a.created (Nat.le_refl _)
  rw [Admission.insert, hs]
  refine { h with counted := ?_, atMost := ?_ }
  · show a.user.numConnected_ =
      (Nat.count (fun c => (a.state c).IsOpen) (a.created + 1) : ℕ)
    rw [Nat.count_succ, hnew, if_neg (by decide)]
    exact h.counted
  · show Nat.count (fun c => a.state c = .kConnected) (a.created + 1) ≤ K
    rw [Nat.count_succ, hnew, if_neg (by decide)]
    exact h.atMost

/-- The machine's invariant. -/
structure Fair (K : ℕ) (a : Admission) : Prop where
  gate : a.Gate
  tally : a.Tally K

/-- **Every move keeps the functors in order and the counter exact.** -/
theorem Fair.move {a' : Admission} (h : a.Fair K) (hm : Move a a') : a'.Fair K := by
  refine ⟨h.gate.move hm, ?_⟩
  have ht := h.tally
  have hg := h.gate
  have hins := ht.insert hg
  cases hm with
  | pass _ | swap _ | take _ _ _ | push _ => exact { ht with }
  | accept hn hd hr => exact { hins with }
  | acceptUp hn hd hr hfs =>
      refine hins.up (fun d => ?_) hg.insert.unborn (Nat.lt_succ_self _)
        (Function.update_self ..) _
      rw [hg.insert_state]
      exact hg.clear_of_direct hd hn hr d
  | @establish c rest fs hr hc hs hfs =>
      exact Tally.up (a := { a with rest := rest }) { ht with } (hg.clear_of_queued hr) hg.unborn
        hc hs fs
  | @forceClose c rest f hr hc hf =>
      exact Tally.close (a := { a with rest := rest }) { ht with } hc f
  | close hc hf => exact ht.close hc _

end Admission
end NetworkStructure
