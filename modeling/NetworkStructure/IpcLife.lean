import NetworkStructure.IpcPeer
import NetworkStructure.SocketLife

/-! # The life of an IPC

An `IPC` opens its listening socket in the constructor, and its thread accepts clients and closes
those that close.  The thread can be stopped and started again; it then has a new epoll instance,
which knows of no client.  The destructor closes the listening socket and the client in `ipcFd`.

In all this no socket is closed that is not open.  But the other clients are left: the sockets that
stay open are those of the clients that are connected at the end, except for the one in `ipcFd`
(`ipc_life`); and a client that is connected when the thread is started again is not heard any
more, and stays. -/

namespace NetworkStructure

/-- `~IPC()`.  The calls on descriptor -1 fail, and 0 is taken for none. -/
def IPC.destroy (s : IPC) : List Syscall :=
  (closeSocketFd s.ipcFd).2 ++ (closeSocketFd s.socketFd).2

inductive IpcLifeAction where
  | step (a : SocketAction)
  /-- `StopThread()` and `Starthread()`. -/
  | restart
deriving Repr

namespace IpcThread

/-- The epoll instance of a new thread. -/
def restarted (s : IpcThread) : IpcThread :=
  { s with
    kernel := Descriptors.run { opened := s.kernel.opened }
      (s.ipc.socketFd.map add_event).toList }

def lifeAct (s : IpcThread) : IpcLifeAction → Option IpcThread
  | .step a => s.act a
  | .restart => if s.AtHead then some s.restarted else none

/-- The calls of a step. -/
def syscalls (s : IpcThread) : IpcLifeAction → List Syscall
  | .step (.event accepted read) =>
      match s.events with
      | [] => []
      | (fd, revents) :: _ => (s.ipc.event fd revents accepted read).2
  | .step (.epoll_wait _) => []
  | .restart => (s.ipc.socketFd.map add_event).toList

/-- The calls of the steps from `s` on. -/
def trace : IpcThread → List IpcLifeAction → List Syscall
  | _, [] => []
  | s, a :: ls =>
      match s.lifeAct a with
      | none => []
      | some t => s.syscalls a ++ t.trace ls

end IpcThread

def IpcLifeStep (s : IpcThread) (a : IpcLifeAction) (t : IpcThread) : Prop := s.lifeAct a = some t

namespace IpcThread

/-- The sockets that are open. -/
def held (s : IpcThread) : Finset Fd := s.kernel.opened ∪ s.ipc.socketFd.toFinset

/-- The invariant of every run. -/
structure Tended (s : IpcThread) : Prop where
  watched : s.Watched
  apart : ∀ fd ∈ s.kernel.opened, some fd ≠ s.ipc.socketFd
  /-- What is in `ipcFd` is a client that is open. -/
  ipcFd : ∀ fd, s.ipc.ipcFd = some fd → fd ∈ s.kernel.opened

/-- What a step does: it closes only what is open, and what it opens is new. -/
structure Moves (s : IpcThread) (a : IpcLifeAction) (t : IpcThread) : Prop where
  tended : t.Tended
  socketFd : t.ipc.socketFd = s.ipc.socketFd
  proper : Proper s.held (handles (s.syscalls a))
  held : heldAfter s.held (handles (s.syscalls a)) = t.held

variable {s t u : IpcThread} {a : IpcLifeAction} {ls : List IpcLifeAction} {fd : Fd}
  {revents : Mask} {accepted : Option Fd} {read : ReadResult}

theorem mem_held : fd ∈ s.held ↔ fd ∈ s.kernel.opened ∨ some fd = s.ipc.socketFd := by
  rw [held, Finset.mem_union, Option.mem_toFinset, Option.mem_def]
  exact or_congr_right eq_comm

/-- A step is a restart, a report or an event. -/
theorem lifeStep_cases (hs : IpcLifeStep s a t) :
    (a = .restart ∧ s.AtHead ∧ t = s.restarted) ∨
    (∃ report, a = .step (.epoll_wait report) ∧ ValidReport s.kernel.interest report ∧
      t = { s with events := s.kernel.harvest report }) ∨
    (∃ accepted read fd revents rest, a = .step (.event accepted read) ∧
      s.events = (fd, revents) :: rest ∧
      (∀ c ∈ accepted, c ∉ s.kernel.opened ∧ some c ≠ s.ipc.socketFd) ∧
      t = { ipc := (s.ipc.event fd revents accepted read).1
            kernel := s.kernel.run (s.ipc.event fd revents accepted read).2
            events := rest
            exited := (s.ipc.event fd revents accepted read).2.any isExit }) := by
  unfold IpcLifeStep lifeAct at hs
  cases a with
  | restart =>
      obtain ⟨hh, hs⟩ := Option.ite_none_right_eq_some.mp hs
      exact .inl ⟨rfl, hh, (Option.some.inj hs).symm⟩
  | step a =>
      cases a with
      | epoll_wait report =>
          obtain ⟨hr, hs⟩ := Option.ite_none_right_eq_some.mp hs
          exact .inr (.inl ⟨report, rfl, hr.2.1, (Option.some.inj hs).symm⟩)
      | event accepted read =>
          dsimp only [act] at hs
          split at hs
          · cases hs
          · next fd revents rest he =>
            obtain ⟨hc, hs⟩ := Option.ite_none_right_eq_some.mp hs
            exact .inr (.inr ⟨accepted, read, fd, revents, rest, rfl, he, hc.2.1,
              (Option.some.inj hs).symm⟩)

/-- What is reported is what is registered. -/
theorem Tended.harvest (h : s.Tended) {report : List (Fd × Mask)}
    (hr : ValidReport s.kernel.interest report) : s.kernel.harvest report = report :=
  Descriptors.harvest_eq (fun fd e he => (h.watched.interest fd e he).1) hr

/-- **One event.** -/
theorem Tended.event {rest : List (Fd × Mask)} {r : IPC × List Syscall} {exited : Bool}
    (h : s.Tended) (he : s.events = (fd, revents) :: rest)
    (ha : ∀ c ∈ accepted, c ∉ s.kernel.opened ∧ some c ≠ s.ipc.socketFd)
    (hr : Handled s fd revents accepted read r)
    (ht : t = { ipc := r.1, kernel := s.kernel.run r.2, events := rest, exited := exited }) :
    t.Tended ∧ t.ipc.socketFd = s.ipc.socketFd ∧ Proper s.held (handles r.2) ∧
      heldAfter s.held (handles r.2) = t.held := by
  subst ht
  cases hr with
  | accepted c hl hc =>
      obtain ⟨hfree, hne⟩ := ha c hc
      refine ⟨⟨h.watched.event he rfl ?_ ?_, ?_, ?_⟩, rfl, ⟨?_, trivial⟩, ?_⟩
      · exact fun d hd _ => Finset.mem_insert_of_mem hd
      · intro d e hd
        rcases interest_add_event hd with hd | ⟨rfl, hp⟩
        · exact .inl ⟨hd, fun hdf => .inl (hdf ▸ hl)⟩
        · exact .inr ⟨hp, Finset.mem_insert_self d _⟩
      · intro d hd
        rcases Finset.mem_insert.mp hd with hdc | hd
        · exact hdc ▸ hne
        · exact h.apart d hd
      · intro d hd
        rw [← Option.some.inj hd]
        exact Finset.mem_insert_self c _
      · exact fun hm => (mem_held.mp hm).elim hfree hne
      · exact (Finset.insert_union ..).symm
  | failed hl hc =>
      refine ⟨⟨h.watched.event he rfl ?_ ?_, h.apart, fun d hd => by cases hd⟩, rfl, trivial, rfl⟩
      · exact fun d hd _ => hd
      · exact fun d e hd => .inl ⟨hd, fun hdf => .inl (hdf ▸ hl)⟩
  | closed hl htest hread =>
      have hcl : Closes s.kernel fd
          (.read fd 512 read :: delete_event fd :: [.shutdown fd, .close fd]) :=
        closes_terminated read (.inl rfl)
      have hev := h.watched.events (fd, revents) (by rw [he]; exact List.mem_cons_self)
      have ho := hev.resolve_left hl
      have hfd : fd ∉ s.ipc.socketFd.toFinset := by
        rw [Option.mem_toFinset, Option.mem_def]
        exact fun hm => hl hm.symm
      refine ⟨⟨h.watched.event he rfl ?_ ?_, ?_, fun d hd => by cases hd⟩, rfl,
        ⟨Finset.mem_union_left _ ho, trivial⟩, ?_⟩
      · intro d hd hne
        rw [hcl.opened]
        exact Finset.mem_erase_of_ne_of_mem hne hd
      · exact fun d e hd => .inl ⟨(hcl.interest d e hd).1, fun hdf =>
          absurd hdf (hcl.interest d e hd).2⟩
      · intro d hd
        rw [hcl.opened] at hd
        exact h.apart d (Finset.mem_of_mem_erase hd)
      · show (s.kernel.opened ∪ s.ipc.socketFd.toFinset).erase fd =
          s.kernel.opened.erase fd ∪ s.ipc.socketFd.toFinset
        rw [Finset.erase_union_distrib, Finset.erase_eq_of_notMem hfd]
  | nothing calls hl hread hc =>
      have hk : s.kernel.run calls = s.kernel ∧ handles calls = [] := by
        rcases hc with rfl | rfl <;> exact ⟨rfl, rfl⟩
      rw [hk.2, hk.1]
      refine ⟨⟨h.watched.event he rfl (fun d hd _ => hd) ?_, h.apart, h.ipcFd⟩, rfl, trivial, rfl⟩
      intro d e hd
      refine .inl ⟨hd, fun hdf => ?_⟩
      subst hdf
      exact h.watched.events (d, revents) (by rw [he]; exact List.mem_cons_self)

theorem restarted_opened : s.restarted.kernel.opened = s.kernel.opened := by
  unfold restarted
  cases s.ipc.socketFd <;> rfl

/-- The new epoll instance knows of the listening socket alone. -/
theorem restarted_interest {d : Fd} {e : EpollEvent Fd}
    (h : s.restarted.kernel.interest d = some e) : e.ptr = d ∧ some d = s.ipc.socketFd := by
  cases hs : s.ipc.socketFd with
  | none =>
      rw [restarted, hs] at h
      cases h
  | some fd =>
      rw [restarted, hs] at h
      rcases interest_add_event (k := { opened := s.kernel.opened }) h with h | ⟨rfl, hp⟩
      · cases h
      · exact ⟨hp, rfl⟩

theorem handles_add_event (o : Option Fd) : handles (o.map add_event).toList = [] := by
  cases o <;> rfl

theorem Tended.restarted (h : s.Tended) (hh : s.AtHead) : Moves s .restart s.restarted where
  tended := {
    watched := {
      interest d e hd := ⟨(restarted_interest hd).1, .inl (restarted_interest hd).2⟩
      events r hr := by
        have hnil : s.restarted.events = [] := hh.1
        rw [hnil] at hr
        cases hr
      nodup := by
        have hnil : s.restarted.events = [] := hh.1
        rw [hnil]
        exact .nil }
    apart fd hfd := h.apart fd (restarted_opened ▸ hfd)
    ipcFd fd hfd := by
      rw [restarted_opened]
      exact h.ipcFd fd hfd }
  socketFd := rfl
  proper := by
    rw [syscalls, handles_add_event]
    trivial
  held := by
    rw [syscalls, handles_add_event, heldAfter_nil, IpcThread.held, IpcThread.held,
      restarted_opened]
    rfl

/-- **One step.** -/
theorem Tended.step (h : s.Tended) (hs : IpcLifeStep s a t) : Moves s a t := by
  rcases lifeStep_cases hs with ⟨rfl, hh, rfl⟩ | ⟨report, rfl, hr, rfl⟩ |
    ⟨accepted, read, fd, revents, rest, rfl, he, ha, ht⟩
  · exact h.restarted hh
  · refine ⟨⟨⟨h.watched.interest, ?_, ?_⟩, h.apart, h.ipcFd⟩, rfl, trivial, rfl⟩
    · rw [h.harvest hr]
      intro r hm
      obtain ⟨e, he, -⟩ := hr.2 r hm
      exact (h.watched.interest r.1 e he).2
    · rw [h.harvest hr]
      exact hr.1
  · obtain ⟨ht, hfix, hproper, hheld⟩ := h.event he ha event_handled ht
    refine ⟨ht, hfix, ?_, ?_⟩ <;> simp only [syscalls, he]
    · exact hproper
    · exact hheld

theorem Tended.run (h : s.Tended) (run : Run IpcLifeStep s ls t) :
    t.Tended ∧ t.ipc.socketFd = s.ipc.socketFd ∧ Proper s.held (handles (s.trace ls)) ∧
      heldAfter s.held (handles (s.trace ls)) = t.held := by
  induction run with
  | nil s => exact ⟨h, rfl, trivial, rfl⟩
  | @cons s u t a ls hs hrun ih =>
      have hm := h.step hs
      obtain ⟨ht, hfix, hproper, hheld⟩ := ih hm.tended
      have htrace : s.trace (a :: ls) = s.syscalls a ++ u.trace ls := by
        simp only [trace, show s.lifeAct a = some u from hs]
      rw [htrace, handles_append, proper_append, heldAfter_append, hm.held]
      exact ⟨ht, hfix.trans hm.socketFd, ⟨hm.proper, hproper⟩, hheld⟩

/-! ### Clients that are forgotten -/

/-- The client is open, but no event of it is or will be reported. -/
structure Forgotten (s : IpcThread) (c : Fd) : Prop where
  opened : c ∈ s.kernel.opened
  interest : s.kernel.interest c = none
  events : ∀ r ∈ s.events, r.1 ≠ c

variable {c : Fd}

theorem Tended.forgotten_restarted (h : s.Tended) (hh : s.AtHead) (hc : c ∈ s.kernel.opened) :
    s.restarted.Forgotten c where
  opened := by rwa [restarted_opened]
  interest := by
    by_contra hne
    obtain ⟨e, he⟩ := Option.ne_none_iff_exists'.mp hne
    exact h.apart c hc (restarted_interest he).2
  events r hr := by
    have hnil : s.restarted.events = [] := hh.1
    rw [hnil] at hr
    cases hr

theorem Forgotten.event {rest : List (Fd × Mask)} {r : IPC × List Syscall} {exited : Bool}
    (h : s.Forgotten c) (he : s.events = (fd, revents) :: rest)
    (ha : ∀ c ∈ accepted, c ∉ s.kernel.opened ∧ some c ≠ s.ipc.socketFd)
    (hr : Handled s fd revents accepted read r) :
    Forgotten { ipc := r.1, kernel := s.kernel.run r.2, events := rest, exited := exited } c := by
  have hne : fd ≠ c := h.events (fd, revents) (by rw [he]; exact List.mem_cons_self)
  have hrest : ∀ r ∈ rest, r.1 ≠ c := fun r hr =>
    h.events r (by rw [he]; exact List.mem_cons_of_mem _ hr)
  cases hr with
  | accepted d hl hd =>
      have hdc : c ≠ d := fun hcd => (ha d hd).1 (hcd ▸ h.opened)
      refine ⟨Finset.mem_insert_of_mem h.opened, ?_, hrest⟩
      by_contra hsome
      obtain ⟨e, hi⟩ := Option.ne_none_iff_exists'.mp hsome
      rcases interest_add_event hi with hi | ⟨hcd, -⟩
      · exact absurd (h.interest.symm.trans hi) (Option.some_ne_none e).symm
      · exact hdc hcd
  | failed hl hd => exact ⟨h.opened, h.interest, hrest⟩
  | closed hl htest hread =>
      have hcl : Closes s.kernel fd
          (.read fd 512 read :: delete_event fd :: [.shutdown fd, .close fd]) :=
        closes_terminated read (.inl rfl)
      refine ⟨?_, ?_, hrest⟩
      · rw [hcl.opened]
        exact Finset.mem_erase_of_ne_of_mem (Ne.symm hne) h.opened
      · by_contra hsome
        obtain ⟨e, hi⟩ := Option.ne_none_iff_exists'.mp hsome
        have hi := (hcl.interest c e hi).1
        exact absurd (h.interest.symm.trans hi) (Option.some_ne_none e).symm
  | nothing calls hl hread hcalls =>
      have hk : s.kernel.run calls = s.kernel := by
        rcases hcalls with rfl | rfl <;> rfl
      rw [hk]
      exact ⟨h.opened, h.interest, hrest⟩

/-- **It stays forgotten**, whatever the thread does. -/
theorem Forgotten.step (ht : s.Tended) (h : s.Forgotten c) (hs : IpcLifeStep s a t) :
    t.Forgotten c := by
  rcases lifeStep_cases hs with ⟨rfl, hh, rfl⟩ | ⟨report, rfl, hr, rfl⟩ |
    ⟨accepted, read, fd, revents, rest, rfl, he, ha, rfl⟩
  · exact ht.forgotten_restarted hh h.opened
  · refine ⟨h.opened, h.interest, ?_⟩
    rw [ht.harvest hr]
    intro r hm hrc
    obtain ⟨e, he, -⟩ := hr.2 r hm
    rw [hrc, h.interest] at he
    cases he
  · exact h.event he ha event_handled

theorem Forgotten.run (ht : s.Tended) (h : s.Forgotten c) (run : Run IpcLifeStep s ls t) :
    t.Forgotten c := by
  have hkeep : ∀ (s : IpcThread) a t, s.Tended ∧ s.Forgotten c → IpcLifeStep s a t →
      t.Tended ∧ t.Forgotten c :=
    fun s a t h hs => ⟨(h.1.step hs).tended, h.2.step h.1 hs⟩
  exact (run.invariant hkeep ⟨ht, h⟩).2

/-! ### The end -/

theorem tended_start (socketFd : Fd) : (start socketFd).Tended where
  watched := (kept_start socketFd).watched
  apart fd hfd := absurd hfd (Finset.notMem_empty fd)
  ipcFd fd hfd := by cases hfd

end IpcThread

theorem handles_closeSocketFd (o : Option Fd) :
    handles (closeSocketFd o).2 = (o.filter (0 < ·)).toList.map .release := by
  cases o with
  | none => rfl
  | some fd =>
      by_cases h0 : 0 < fd
      · rw [closeSocketFd_of_pos h0, Option.filter_some, if_pos (decide_eq_true h0)]
        rfl
      · obtain rfl := Nat.eq_zero_of_not_pos h0
        rfl

open IpcThread

/-- **The life of an `IPC`** whose listening socket is not descriptor 0, with any number of starts
of its thread: no socket is closed that is not open, and what stays open after the destructor are
the clients that are connected, but for the one in `ipcFd`.  The clients that are connected when the
thread is started again are forgotten from then on, whatever happens. -/
theorem ipc_life {socketFd : Fd} (h0 : 0 < socketFd) {ls : List IpcLifeAction} {t : IpcThread}
    (run : Run IpcLifeStep (start socketFd) ls t) :
    let life := .acquire socketFd :: handles ((start socketFd).trace ls) ++ handles t.ipc.destroy
    Proper ∅ life ∧ heldAfter ∅ life = t.kernel.opened \ (t.ipc.ipcFd.filter (0 < ·)).toFinset ∧
      ∀ done s rest, Run IpcLifeStep (start socketFd) done s →
        Run IpcLifeStep s (.restart :: rest) t → ∀ c ∈ s.kernel.opened, t.Forgotten c := by
  intro life
  obtain ⟨ht, hfix, hproper, hheld⟩ := (tended_start socketFd).run run
  have hsocket : t.ipc.socketFd = some socketFd := hfix
  have hopen : t.held = insert socketFd t.kernel.opened := by
    rw [IpcThread.held, hsocket, Finset.union_comm]
    rfl
  have hfree : socketFd ∉ t.kernel.opened := fun hm => ht.apart socketFd hm hsocket.symm
  set last := t.ipc.ipcFd.filter (0 < ·)
  have hlast : ∀ fd, fd ∈ last.toList → fd ∈ t.kernel.opened := by
    intro fd hm
    have hm := Option.mem_toList.mp hm
    exact ht.ipcFd fd (Option.mem_filter_iff.mp hm).1
  have hdestroy : handles t.ipc.destroy = (last.toList ++ [socketFd]).map .release := by
    rw [IPC.destroy, handles_append, handles_closeSocketFd, handles_closeSocketFd, hsocket,
      Option.filter_some, if_pos (decide_eq_true h0), List.map_append]
    rfl
  have hloop : Proper ∅ (.acquire socketFd :: handles ((start socketFd).trace ls)) ∧
      heldAfter ∅ (.acquire socketFd :: handles ((start socketFd).trace ls)) = t.held :=
    ⟨⟨Finset.notMem_empty socketFd, hproper⟩, hheld⟩
  refine ⟨?_, ?_, fun done s rest hdone hrest => ?_⟩
  · rw [proper_append, hloop.2, hdestroy, proper_releaseAll]
    refine ⟨hloop.1, ?_, fun fd hm => ?_⟩
    · have hnd : last.toList.Nodup := by
        cases last <;> simp
      exact hnd.append (List.nodup_singleton socketFd)
        (List.disjoint_singleton.mpr fun hm => hfree (hlast socketFd hm))
    · rw [hopen]
      rcases List.mem_append.mp hm with hm | hm
      · exact Finset.mem_insert_of_mem (hlast fd hm)
      · obtain rfl := List.mem_singleton.mp hm
        exact Finset.mem_insert_self fd _
  · rw [heldAfter_append, hloop.2, hdestroy, heldAfter_releaseAll, hopen]
    ext fd
    have hne : fd ∈ t.kernel.opened → fd ≠ socketFd := fun hm he => hfree (he ▸ hm)
    simp only [Finset.mem_sdiff, Finset.mem_insert, List.mem_toFinset, List.mem_append,
      Option.mem_toList, List.mem_singleton, Option.mem_toFinset]
    tauto
  · obtain ⟨hs, -⟩ := (tended_start socketFd).run hdone
    intro c hc
    cases hrest with
    | cons hstep hrest =>
        obtain ⟨hh, hstep⟩ := Option.ite_none_right_eq_some.mp hstep
        obtain rfl := Option.some.inj hstep
        exact (hs.forgotten_restarted hh hc).run (hs.restarted hh).tended hrest

/-- A client is connected. -/
def firstThread : List IpcLifeAction :=
  [.step (.epoll_wait [(3, EPOLLIN)]), .step (.event (some 5) (.count 0))]

/-- The thread is started again, and another client comes. -/
def secondThread : List IpcLifeAction :=
  [.restart, .step (.epoll_wait [(3, EPOLLIN)]), .step (.event (some 6) (.count 0))]

/-- The first one is forgotten, and left. -/
theorem ipc_life_left : ∃ t : IpcThread, t.AtHead ∧ t.Forgotten 5 ∧
    heldAfter ∅ (.acquire 3 :: handles ((start 3).trace (firstThread ++ secondThread)) ++
      handles t.ipc.destroy) = {5} := by
  obtain ⟨s, done, h5, hrest⟩ := exists_run lifeAct
    (fun s => 5 ∈ s.kernel.opened ∧ (secondThread.foldlM lifeAct s).any (fun t =>
      decide (t.AtHead ∧ t.kernel.opened = {5, 6} ∧ t.ipc.ipcFd = some 6)) = true)
    (start 3) firstThread (by decide +kernel)
  obtain ⟨t, run, hh, ho, hi⟩ := exists_run lifeAct
    (fun t => t.AtHead ∧ t.kernel.opened = {5, 6} ∧ t.ipc.ipcFd = some 6) s secondThread hrest
  obtain ⟨-, hleft, hforgotten⟩ := ipc_life (by decide) (done.append run)
  refine ⟨t, hh, hforgotten firstThread s _ done run 5 h5, hleft.trans ?_⟩
  rw [ho, hi]
  decide

end NetworkStructure
