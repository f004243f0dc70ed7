import NetworkStructure.Epoll
import NetworkStructure.RoundRobin
import NetworkStructure.TcpServer

/-! # The event list of the poller

`Poller::poll` takes at most `events_.size()` events out of the kernel, and doubles the size of
the list when it was full.  Reports are level-triggered: a descriptor stays on the ready list of
the epoll instance as long as it is ready, and successive calls of `epoll_wait(2)` go round the
list, so that the ready list is a queue that is served in rounds.

A descriptor that is ready is reported soon, however many others are ready, and while they come
and go; and the list does not grow above twice the number of descriptors that are ready at a
time (`poll_serves`). -/

namespace NetworkStructure

variable {ι : Type}

def kInitEventListSize : ℕ := 16

/-- `events_.size()`, and the ready list of the epoll instance. -/
abbrev EventList := RoundRobin Fd

def EventList.new : EventList := { size := kInitEventListSize }

/-- The kernel at a call of `epoll_wait(2)`: what is registered, the events that a descriptor is
ready for, and how the ready list has changed since the last call. -/
structure EpollState (ι : Type) where
  interest : InterestSet ι
  revents : Fd → Mask
  arrivals : Arrivals Fd

/-- `fillActiveChannels(numEvents, activeChannels)`: the channels and their `revents_`. -/
def fillActiveChannels (k : InterestSet ι) (events : List (Fd × Mask)) : List (ι × Mask) :=
  events.filterMap fun r => (k r.1).map fun e => (e.ptr, r.2)

namespace EventList

variable (l : EventList) (k : EpollState ι)

/-- What `epoll_wait(2)` writes into the list. -/
def events : List (Fd × Mask) := (l.served k.arrivals).map fun fd => (fd, k.revents fd)

/-- `poll`: the active channels, and the list afterwards. -/
def poll : List (ι × Mask) × EventList :=
  let numEvents := (events l k).length
  if 0 < numEvents then
    (fillActiveChannels k.interest (events l k),
      { (l.next k.arrivals) with size := if numEvents = l.size then l.size * 2 else l.size })
  else ([], { (l.next k.arrivals) with size := l.size })

/-- What is on the ready list is registered and ready, and is there once. -/
def Ready : Prop :=
  (l.waiting k.arrivals).Nodup ∧ ∀ fd ∈ l.waiting k.arrivals, ∃ e, k.interest fd = some e ∧
    k.revents fd &&& ~~~(e.events ||| EPOLLERR ||| EPOLLHUP) = 0

instance : Decidable (Ready l k) :=
  have : ∀ fd : Fd, Decidable (∃ e, k.interest fd = some e ∧
      k.revents fd &&& ~~~(e.events ||| EPOLLERR ||| EPOLLHUP) = 0) :=
    fun fd => decidableExistsSome (k.interest fd) _
  inferInstanceAs (Decidable (_ ∧ _))

/-- The calls of `poll` one after another: the active channels of each; `none` when the kernel is
not as it can be. -/
def polls (l : EventList) : List (EpollState ι) → Option (List (List (ι × Mask)) × EventList)
  | [] => some ([], l)
  | k :: ks =>
      if Ready l k then
        (polls (poll l k).2 ks).map fun r => ((poll l k).1 :: r.1, r.2)
      else none

variable {l : EventList} {k : EpollState ι} {ks : List (EpollState ι)}

/-- The size follows the rounds. -/
theorem poll_next (h : 0 < l.size) : (poll l k).2 = l.next k.arrivals := by
  have hlen : (events l k).length = (l.served k.arrivals).length := List.length_map _
  unfold poll
  rw [hlen]
  dsimp only
  split
  · rfl
  · next h0 =>
    have hne : (l.served k.arrivals).length ≠ l.size := by omega
    simp only [RoundRobin.next, if_neg hne]

/-- **What is reported** is a report that the kernel can make. -/
theorem events_valid (h : Ready l k) : ValidReport k.interest (events l k) := by
  have hsub : (l.served k.arrivals).Sublist (l.waiting k.arrivals) := List.take_sublist ..
  constructor
  · have hfst : (events l k).map Prod.fst = l.served k.arrivals := by
      rw [events, List.map_map]
      exact List.map_id _
    rw [hfst]
    exact h.1.sublist hsub
  · intro r hr
    obtain ⟨fd, hfd, rfl⟩ := List.mem_map.mp hr
    exact h.2 fd (hsub.subset hfd)

/-- `fillActiveChannels` of what is reported; nothing is active when nothing is reported. -/
theorem poll_fst : (poll l k).1 = fillActiveChannels k.interest (events l k) := by
  unfold poll
  dsimp only
  split
  · rfl
  · next h0 =>
    rw [List.eq_nil_of_length_eq_zero (Nat.eq_zero_of_not_pos h0)]
    rfl

/-- A call of `poll` is a step of the process. -/
theorem poll_step {υ : Type} {app : Application υ} {w : World υ} {k : EpollState ChannelRef}
    (hw : w.phase = .polling) (hk : k.interest = w.loop.poller_.kernel) (h : Ready l k) :
    World.Step app w (.poll (events l k)) (.ok { w with phase := .handling (poll l k).1 }) := by
  have hvalid := events_valid h
  rw [hk] at hvalid
  rw [poll_fst, hk]
  exact .poll hw hvalid

/-- The channel of a descriptor that is reported is active. -/
theorem mem_poll {fd : Fd} (hfd : fd ∈ l.served k.arrivals) {e : EpollEvent ι}
    (he : k.interest fd = some e) : (e.ptr, k.revents fd) ∈ (poll l k).1 := by
  have hmem : (fd, k.revents fd) ∈ events l k := List.mem_map_of_mem hfd
  rw [poll_fst]
  exact List.mem_filterMap.mpr ⟨_, hmem, by rw [he]; rfl⟩

/-- The calls are the rounds of the ready list; every descriptor that is served has its channel
among the active ones. -/
theorem polls_rounds (h0 : 0 < l.size) {rs : List (List (ι × Mask))} {l' : EventList}
    (h : polls l ks = some (rs, l')) :
    l' = l.after (ks.map (·.arrivals)) ∧
      ∀ r ∈ l.rounds (ks.map (·.arrivals)), ∀ fd ∈ r.2, ∃ k ∈ ks, ∃ e, k.interest fd = some e ∧
        ∃ active ∈ rs, (e.ptr, k.revents fd) ∈ active := by
  induction ks generalizing l rs with
  | nil =>
      cases h
      exact ⟨rfl, fun r hr => absurd hr List.not_mem_nil⟩
  | cons k ks ih =>
      unfold polls at h
      split at h
      · next hready =>
        obtain ⟨⟨rs₁, l₁⟩, h₁, hr⟩ := Option.map_eq_some_iff.mp h
        cases hr
        rw [poll_next h0] at h₁
        obtain ⟨hafter, hserved⟩ := ih (Nat.lt_of_lt_of_le h0 RoundRobin.le_next_size) h₁
        refine ⟨hafter, fun r hr fd hfd => ?_⟩
        rcases List.mem_cons.mp hr with rfl | hr
        · obtain ⟨e, he, -⟩ := hready.2 fd (List.mem_of_mem_take hfd)
          exact ⟨k, List.mem_cons_self .., e, he, _, List.mem_cons_self .., mem_poll hfd he⟩
        · obtain ⟨k', hk', e, he, active, ha, hm⟩ := hserved r hr fd hfd
          exact ⟨k', List.mem_cons_of_mem _ hk', e, he, active, List.mem_cons_of_mem _ ha, hm⟩
      · cases h

end EventList

open EventList in
/-- **No channel starves**: after any calls of `poll`, with at most `N` descriptors ready at a
time, the list has between 16 and `max 16 (2 * N)` places; and a descriptor that is ready, and
stays so, is reported to its channel within `n` calls where `16 * (2 ^ n - 1)` is not less than
the number of descriptors that are ready at the first of them. -/
theorem poll_serves {ks : List (EpollState ι)} {rs : List (List (ι × Mask))} {l : EventList}
    (h : polls .new ks = some (rs, l)) {N : ℕ}
    (hN : ∀ r ∈ EventList.new.rounds (ks.map (·.arrivals)), r.1.length ≤ N) :
    (kInitEventListSize ≤ l.size ∧ l.size ≤ max kInitEventListSize (2 * N)) ∧
      ∀ (k : EpollState ι) ks' rs' l', polls l (k :: ks') = some (rs', l') →
        ∀ fd ∈ l.waiting k.arrivals,
        (l.waiting k.arrivals).length ≤ kInitEventListSize * (2 ^ (ks'.length + 1) - 1) →
        (∀ k' ∈ ks', k'.arrivals.stays fd = true) →
        ∃ k' ∈ k :: ks', ∃ e, k'.interest fd = some e ∧
          ∃ active ∈ rs', (e.ptr, k'.revents fd) ∈ active := by
  have hnew : 0 < EventList.new.size := Nat.zero_lt_succ _
  obtain ⟨rfl, -⟩ := polls_rounds hnew h
  set l := EventList.new.after (ks.map (·.arrivals))
  have hsize : kInitEventListSize ≤ l.size ∧ l.size ≤ max kInitEventListSize (2 * N) :=
    RoundRobin.size_le hN
  refine ⟨hsize, ?_⟩
  intro k ks' rs' l' h' fd hfd hlen hstays
  have hl : 0 < l.size := Nat.lt_of_lt_of_le (Nat.zero_lt_succ _) hsize.1
  obtain ⟨-, hserved⟩ := polls_rounds hl h'
  obtain ⟨pre, post, hw⟩ := List.append_of_mem hfd
  have hlt : pre.length + l.size < l.size * 2 ^ ((ks'.map (·.arrivals)).length + 1) := by
    rw [hw, List.length_append, List.length_cons] at hlen
    rw [List.length_map]
    have hpow : 2 ^ (ks'.length + 1) = 2 ^ (ks'.length + 1) - 1 + 1 := by
      have := Nat.two_pow_pos (ks'.length + 1)
      omega
    have hmul := Nat.mul_le_mul_right (2 ^ (ks'.length + 1) - 1) hsize.1
    rw [hpow, Nat.mul_add, Nat.mul_one]
    omega
  have hall : ∀ b ∈ ks'.map (·.arrivals), b.stays fd = true := by
    intro b hb
    obtain ⟨k', hk', rfl⟩ := List.mem_map.mp hb
    exact hstays k' hk'
  obtain ⟨r, hr, hfd⟩ := RoundRobin.served_of_lt hw hall hlt
  exact hserved r hr fd hfd

/-- Descriptors become readable, and stay so. -/
def crowd (joining : List Fd) : EpollState Fd where
  interest fd := some ⟨EPOLLIN, fd⟩
  revents _ := EPOLLIN
  arrivals := { stays := fun _ => true, joining }

/-- With 20 descriptors ready the list has doubled once; then 30 more become ready, and the last of
them is reported within three calls. -/
theorem poll_serves_crowd : ∃ rs l rs' l', EventList.polls .new [crowd (List.range 20)] =
      some (rs, l) ∧ (16 ≤ l.size ∧ l.size ≤ 40) ∧
    EventList.polls l [crowd (List.range' 20 30), crowd [], crowd []] = some (rs', l') ∧
    ∃ active ∈ rs', (49, EPOLLIN) ∈ active := by
  obtain ⟨rs, hearly⟩ : ∃ rs, EventList.polls .new [crowd (List.range 20)] =
      some (rs, (EventList.poll .new (crowd (List.range 20))).2) := ⟨_, rfl⟩
  obtain ⟨⟨rs', l'⟩, hlate⟩ : ∃ r, EventList.polls (EventList.poll .new (crowd (List.range 20))).2
      [crowd (List.range' 20 30), crowd [], crowd []] = some r := ⟨_, rfl⟩
  obtain ⟨hsize, hserved⟩ := poll_serves hearly (N := 20) (by decide)
  refine ⟨rs, _, rs', l', hearly, hsize, hlate, ?_⟩
  obtain ⟨k', hk', e, he, active, ha, hm⟩ :=
    hserved _ _ _ _ hlate 49 (by decide) (by decide) (by simp [crowd])
  obtain ⟨joining, rfl⟩ : ∃ joining, k' = crowd joining := by
    simp only [List.mem_cons, List.not_mem_nil, or_false] at hk'
    rcases hk' with rfl | rfl | rfl <;> exact ⟨_, rfl⟩
  cases he
  exact ⟨active, ha, hm⟩

end NetworkStructure
