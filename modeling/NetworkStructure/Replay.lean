import NetworkStructure.TcpServer

/-! # Replaying a run

Whether a step can be taken is decidable, and its outcome is computed: `World.replay` executes a
list of actions, and what it executes is a run (`run_of_replay`). -/

namespace NetworkStructure

variable {υ : Type} (app : Application υ)

namespace World

variable (w : World υ)

instance (c : ConnId) : Decidable (w.Live c) := inferInstanceAs (Decidable (_ ∧ _))

theorem lookup_iff_entry (c : ConnId) :
    (∃ name, w.server.connections_.lookup name = some c) ↔
      ∃ e ∈ w.server.connections_.entries, e.2 = c := by
  constructor
  · rintro ⟨name, h⟩
    exact ⟨⟨name, c⟩, AList.mem_lookup_iff.mp h, rfl⟩
  · rintro ⟨⟨name, _⟩, h, rfl⟩
    exact ⟨name, AList.mem_lookup_iff.mpr h⟩

instance (c : ConnId) : Decidable (w.Owned app c) :=
  have : Decidable (∃ name, w.server.connections_.lookup name = some c) :=
    decidable_of_iff _ (w.lookup_iff_entry c).symm
  inferInstanceAs (Decidable (_ ∨ _ ∨ _))

instance : Decidable (w.Settled app) :=
  decidable_of_iff (∀ c < w.created, w.Live c → w.Owned app c)
    ⟨fun h c hl => h c hl.1 hl, fun h c _ hl => h c hl⟩

instance (fd : Fd) : Decidable (w.IsOpen fd) :=
  have : Decidable (∃ c, w.Live c ∧ (w.conns c).channel_.fd_ = fd) :=
    decidable_of_iff (∃ c < w.created, w.Live c ∧ (w.conns c).channel_.fd_ = fd)
      ⟨fun ⟨c, _, h⟩ => ⟨c, h⟩, fun ⟨c, h⟩ => ⟨c, h.1.1, h⟩⟩
  inferInstanceAs (Decidable (_ ∨ _ ∨ _))

/-- The outcome of a step, if it can be taken. -/
def next (a : ServerAction) : Option (Except Fault (World υ)) :=
  match a, w.phase with
  | .poll report, .polling =>
      if ValidReport w.loop.poller_.kernel report then
        some (.ok { w with phase := .handling (w.activeChannels report) })
      else none
  | .handleEvent accepted read, .handling ((channel, revents) :: rest) =>
      if ∀ a ∈ accepted, ¬ w.IsOpen a.1 then
        some ({ w with phase := .handling rest }.handleEvent app channel revents accepted read)
      else none
  | .doPendingFunctors, .handling [] => some (.ok { w with
      phase := .functors [] w.loop.pendingFunctors_
      loop := { w.loop with callingPendingFunctors_ := true, pendingFunctors_ := [] } })
  | .runFunctor, .functors ran (f :: rest) =>
      some ({ w with phase := .functors (ran ++ [f]) rest }.runFunctor app f)
  | .endFunctors, .functors _ [] => some (.ok { w with
      phase := .polling, loop := { w.loop with callingPendingFunctors_ := false } })
  | .queueInLoop thread n, _ => some (.ok { w with loop := w.loop.queueInLoop thread (.user n) })
  | .destroy c, _ => if w.Live c ∧ ¬ w.Owned app c then some (.ok (w.destroy c)) else none
  | _, _ => none

theorem step_of_next {a : ServerAction} {t : Except Fault (World υ)}
    (h : w.next app a = some t) : Step app w a t := by
  unfold next at h
  split at h
  · next report hp =>
    split at h
    · next hr =>
      cases h
      exact .poll hp hr
    · cases h
  · next accepted read channel revents rest hp =>
    split at h
    · next ha =>
      cases h
      exact .handleEvent hp fun a he => ha a he
    · cases h
  · next hp =>
    cases h
    exact .doPendingFunctors hp
  · next ran f rest hp =>
    cases h
    exact .runFunctor hp
  · next ran hp =>
    cases h
    exact .endFunctors hp
  · cases h
    exact .queueInLoop _ _
  · split at h
    · next hl =>
      cases h
      exact .destroy hl.1 hl.2
    · cases h
  · cases h

/-- Executing a list of actions. -/
def replay : Except Fault (World υ) → List ServerAction → Option (Except Fault (World υ))
  | t, [] => some t
  | .error _, _ :: _ => none
  | .ok w, a :: ls =>
      match a with
      | .destroy c => (w.next app (.destroy c)).bind (replay · ls)
      | a => if w.Settled app then (w.next app a).bind (replay · ls) else none

theorem run_of_replay {s t : Except Fault (World υ)} {ls : List ServerAction}
    (h : replay app s ls = some t) : Run (ServerStep app) s ls t := by
  induction ls generalizing s with
  | nil =>
      cases s <;> · cases h; exact .nil _
  | cons a ls ih =>
      cases s with
      | error e => cases h
      | ok w =>
          have key : ∀ o, o = w.next app a → o.bind (replay app · ls) = some t →
              ((∃ c, a = .destroy c) ∨ w.Settled app) →
              Run (ServerStep app) (.ok w) (a :: ls) t := by
            rintro o ho hb hset
            obtain ⟨s', hs', hr⟩ := Option.bind_eq_some_iff.mp hb
            exact .cons ⟨w, rfl, w.step_of_next app (ho ▸ hs'), hset⟩ (ih hr)
          unfold replay at h
          split at h
          · exact key _ rfl h (.inl ⟨_, rfl⟩)
          · split at h
            · next hset => exact key _ rfl h (.inr hset)
            · cases h

/-- A list of actions that takes the process to a world with the property `P`. -/
theorem exists_run_ok (P : World υ → Prop) [DecidablePred P] (s : Except Fault (World υ))
    (ls : List ServerAction)
    (h : (replay app s ls).any (fun t => match t with
      | .ok w => decide (P w)
      | .error _ => false) = true) : ∃ w, Run (ServerStep app) s ls (.ok w) ∧ P w := by
  obtain ⟨t, ht, hp⟩ := (Option.any_eq_true _ _).mp h
  cases t with
  | error e => cases hp
  | ok w => exact ⟨w, run_of_replay app ht, of_decide_eq_true hp⟩

/-- A list of actions that ends in the fault `e`. -/
theorem exists_run_error {e : Fault} {s : Except Fault (World υ)} {ls : List ServerAction}
    (h : (replay app s ls).any (fun t => match t with
      | .ok _ => false
      | .error e' => decide (e' = e)) = true) : Run (ServerStep app) s ls (.error e) := by
  obtain ⟨t, ht, hp⟩ := (Option.any_eq_true _ _).mp h
  cases t with
  | ok w => cases hp
  | error e' => exact of_decide_eq_true hp ▸ run_of_replay app ht

end World
end NetworkStructure
