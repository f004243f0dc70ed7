import NetworkStructure.FdBooks
import NetworkStructure.Ipc

/-! # Whom IpcWrite writes to

`IPCThread` serves any number of clients, but `IPC` has one member for them, `ipcFd`: every accept
stores the new client there, and every client that closes sets it to -1, whichever one it was.
Here the thread runs against the kernel of `FdBooks.lean`, which knows which clients are open.

`ipcFd` is right as long as a client only closes when it is alone: then the last one that came is
the one in `ipcFd`, and the last one that goes clears it (`ipcPeer_iff`).  A client on descriptor
0 is the other exception, as `IpcWrite` asks for a positive descriptor. -/

namespace NetworkStructure

/-- `IpcWrite(buff, len)`: what is written, and to which descriptor. -/
def IPC.ipcWrite (s : IPC) (buff : List UInt8) : Option (Fd × List UInt8) :=
  match s.ipcFd with
  | none => none
  | some fd => if 0 < fd then some (fd, buff) else none

/-- The thread; the events of the last report that are still to be handled, and whether it has
ended the process. -/
structure IpcThread where
  ipc : IPC
  kernel : Descriptors := {}
  events : List (Fd × Mask) := []
  exited : Bool := false

namespace IpcThread

/-- The thread is about to call `epoll_wait`. -/
def AtHead (s : IpcThread) : Prop := s.events = [] ∧ s.exited = false

instance (s : IpcThread) : Decidable s.AtHead := inferInstanceAs (Decidable (_ ∧ _))

def isExit : Syscall → Bool
  | .exit _ => true
  | _ => false

/-- A step of the thread; `none` when it is not possible. -/
def act (s : IpcThread) : SocketAction → Option IpcThread
  | .epoll_wait report =>
      if s.AtHead ∧ ValidReport s.kernel.interest report ∧ report.length ≤ MAX_EVENTS then
        some { s with events := s.kernel.harvest report }
      else none
  | .event accepted read =>
      match s.events with
      | [] => none
      | (fd, revents) :: rest =>
          let r := s.ipc.event fd revents accepted read
          if s.exited = false ∧
              (∀ c ∈ accepted, c ∉ s.kernel.opened ∧ some c ≠ s.ipc.socketFd) ∧
              read.atMost 512 = true then
            some { ipc := r.1, kernel := s.kernel.run r.2, events := rest,
                   exited := r.2.any isExit }
          else none

/-- `ipcFd` is a client that is open, or -1 when there is none, and `IpcWrite` writes to a client
that is open whenever there is one. -/
structure Tracks (s : IpcThread) : Prop where
  none_iff : s.ipc.ipcFd = none ↔ s.kernel.opened = ∅
  opened : ∀ fd, s.ipc.ipcFd = some fd → fd ∈ s.kernel.opened
  reaches : s.kernel.opened.Nonempty →
    ∀ buff, ∃ fd ∈ s.kernel.opened, s.ipc.ipcWrite buff = some (fd, buff)

/-- The event, with these answers, does not lose a client: nobody is accepted on descriptor 0,
and no client closes while another is open. -/
def CleanEvent (s : IpcThread) (fd : Fd) (revents : Mask) (accepted : Option Fd)
    (read : ReadResult) : Prop :=
  if some fd = s.ipc.socketFd then accepted ≠ some 0
  else Mask.test revents EPOLLIN = true → read = .count 0 → ∀ d ∈ s.kernel.opened, d = fd

def Clean (s : IpcThread) : SocketAction → Prop
  | .epoll_wait _ => True
  | .event accepted read => ∀ r ∈ s.events.head?, s.CleanEvent r.1 r.2 accepted read

instance (s : IpcThread) (fd : Fd) (revents : Mask) (accepted : Option Fd) (read : ReadResult) :
    Decidable (s.CleanEvent fd revents accepted read) := by
  unfold CleanEvent
  infer_instance

instance (s : IpcThread) (a : SocketAction) : Decidable (s.Clean a) :=
  match a with
  | .epoll_wait _ => isTrue trivial
  | .event accepted read =>
      inferInstanceAs (Decidable (∀ r ∈ s.events.head?, s.CleanEvent r.1 r.2 accepted read))

end IpcThread

def IpcStep (s : IpcThread) (a : SocketAction) (t : IpcThread) : Prop := s.act a = some t

namespace IpcThread

variable {s t : IpcThread} {a : SocketAction} {fd c : Fd} {revents : Mask} {accepted : Option Fd}
  {read : ReadResult}

/-! ### The member and the clients -/

theorem tracks_of_empty (hi : s.ipc.ipcFd = none) (hk : s.kernel.opened = ∅) : s.Tracks where
  none_iff := iff_of_true hi hk
  opened fd h := by
    rw [hi] at h
    cases h
  reaches h := by
    rw [hk] at h
    exact absurd h Finset.not_nonempty_empty

/-- `ipcFd` is cleared: it is right if nobody is left. -/
theorem tracks_none_iff (hi : s.ipc.ipcFd = none) : s.Tracks ↔ s.kernel.opened = ∅ :=
  ⟨fun h => h.none_iff.mp hi, tracks_of_empty hi⟩

/-- `ipcFd` is set to a client that is open: it is right unless that is descriptor 0. -/
theorem tracks_some_iff (hi : s.ipc.ipcFd = some c) (hc : c ∈ s.kernel.opened) :
    s.Tracks ↔ c ≠ 0 := by
  constructor
  · intro h hz
    obtain ⟨fd, -, hw⟩ := h.reaches ⟨c, hc⟩ []
    rw [IPC.ipcWrite, hi, hz] at hw
    cases hw
  · intro hz
    refine ⟨iff_of_false ?_ (Finset.ne_empty_of_mem hc), fun fd h => ?_, fun _ buff => ?_⟩
    · rw [hi]
      exact Option.some_ne_none c
    · rwa [← Option.some.inj (hi.symm.trans h)]
    · refine ⟨c, hc, ?_⟩
      rw [IPC.ipcWrite, hi]
      exact if_pos (Nat.pos_of_ne_zero hz)

/-- What the member and the clients are decides it. -/
theorem tracks_congr (hi : t.ipc.ipcFd = s.ipc.ipcFd) (hk : t.kernel.opened = s.kernel.opened) :
    t.Tracks ↔ s.Tracks := by
  have hw : ∀ buff, t.ipc.ipcWrite buff = s.ipc.ipcWrite buff := by
    intro buff
    rw [IPC.ipcWrite, IPC.ipcWrite, hi]
  constructor
  · rintro ⟨h1, h2, h3⟩
    rw [hi, hk] at h1
    simp only [hi, hk, hw] at h2 h3
    exact ⟨h1, h2, h3⟩
  · rintro ⟨h1, h2, h3⟩
    rw [← hi, ← hk] at h1
    simp only [← hi, ← hk, ← hw] at h2 h3
    exact ⟨h1, h2, h3⟩

/-! ### One event -/

/-- What is registered with epoll, and what is reported by it, is the listening socket or a
client that is open; each is reported once. -/
structure Watched (s : IpcThread) : Prop where
  interest : ∀ fd e, s.kernel.interest fd = some e →
    e.ptr = fd ∧ (some fd = s.ipc.socketFd ∨ fd ∈ s.kernel.opened)
  events : ∀ r ∈ s.events, some r.1 = s.ipc.socketFd ∨ r.1 ∈ s.kernel.opened
  nodup : (s.events.map Prod.fst).Nodup

/-- What handling an event comes to. -/
inductive Handled (s : IpcThread) (fd : Fd) (revents : Mask) (accepted : Option Fd)
    (read : ReadResult) : IPC × List Syscall → Prop
  /-- A client has come. -/
  | accepted (c : Fd) (hl : some fd = s.ipc.socketFd) (ha : accepted = some c) :
      Handled s fd revents accepted read
        ({ s.ipc with ipcFd := some c }, [.accept s.ipc.socketFd (some c), add_event c])
  /-- `accept` has failed, and the process ends. -/
  | failed (hl : some fd = s.ipc.socketFd) (ha : accepted = none) :
      Handled s fd revents accepted read
        ({ s.ipc with ipcFd := none }, [.accept s.ipc.socketFd none, .exit 1])
  /-- A client has closed. -/
  | closed (hl : some fd ≠ s.ipc.socketFd) (he : Mask.test revents EPOLLIN = true)
      (hr : read = .count 0) :
      Handled s fd revents accepted read
        ({ s.ipc with ipcFd := none },
          [.read fd 512 read, delete_event fd, .shutdown fd, .close fd])
  /-- Something is read and thrown away, or nothing. -/
  | nothing (calls : List Syscall) (hl : some fd ≠ s.ipc.socketFd)
      (hr : Mask.test revents EPOLLIN = true → read ≠ .count 0)
      (hc : calls = [.read fd 512 read] ∨ calls = []) :
      Handled s fd revents accepted read (s.ipc, calls)

theorem event_handled :
    Handled s fd revents accepted read (s.ipc.event fd revents accepted read) := by
  unfold IPC.event
  split
  · next hl =>
    cases accepted with
    | none => exact .failed hl rfl
    | some c => exact .accepted c hl rfl
  · next hl =>
    split
    · next he =>
      cases read with
      | failed e => exact .nothing _ hl (fun _ => ReadResult.noConfusion) (.inl rfl)
      | count n =>
          cases n with
          | zero => exact .closed hl he rfl
          | succ n => exact .nothing _ hl (fun _ h => by cases h) (.inl rfl)
    · next he => exact .nothing _ hl (fun h => absurd h he) (.inr rfl)

/-- The registrations after the event of `fd`, where `fd` itself may be closed. -/
theorem Watched.event {rest : List (Fd × Mask)} {k : Descriptors} {ipc : IPC} {exited : Bool}
    (h : s.Watched) (he : s.events = (fd, revents) :: rest)
    (hl : ipc.socketFd = s.ipc.socketFd)
    (hkept : ∀ d ∈ s.kernel.opened, d ≠ fd → d ∈ k.opened)
    (hint : ∀ d e, k.interest d = some e →
      s.kernel.interest d = some e ∧ (d = fd → some d = s.ipc.socketFd ∨ d ∈ k.opened) ∨
        e.ptr = d ∧ d ∈ k.opened) :
    Watched { ipc := ipc, kernel := k, events := rest, exited := exited } := by
  have hnd := h.nodup
  rw [he, List.map_cons, List.nodup_cons] at hnd
  refine ⟨fun d e hd => ?_, fun r hr => ?_, hnd.2⟩
  · rw [hl]
    rcases hint d e hd with ⟨hk, hself⟩ | ⟨hp, ho⟩
    · obtain ⟨hp, ho⟩ := h.interest d e hk
      refine ⟨hp, ?_⟩
      by_cases hdf : d = fd
      · exact hself hdf
      · exact ho.imp_right fun ho => hkept d ho hdf
    · exact ⟨hp, .inr ho⟩
  · rw [hl]
    have hne : r.1 ≠ fd := by
      intro hrf
      have hm : r.1 ∈ rest.map Prod.fst := List.mem_map_of_mem hr
      exact hnd.1 (hrf ▸ hm)
    have ho := h.events r (by rw [he]; exact List.mem_cons_of_mem _ hr)
    exact ho.imp_right fun ho => hkept r.1 ho hne

/-- The thread that has not ended the process keeps its books right. -/
structure Kept (s : IpcThread) : Prop where
  tracks : s.exited = false → s.Tracks
  watched : s.Watched

/-- **One event**: `ipcFd` is right after it exactly when it is clean. -/
theorem Kept.event {rest : List (Fd × Mask)} {r : IPC × List Syscall} (h : s.Kept)
    (hrun : s.exited = false) (he : s.events = (fd, revents) :: rest)
    (hr : Handled s fd revents accepted read r)
    (ht : t = { ipc := r.1, kernel := s.kernel.run r.2, events := rest,
                exited := r.2.any isExit }) :
    ((t.exited = false → t.Tracks) ↔ s.CleanEvent fd revents accepted read) ∧ t.Watched := by
  have htr := h.tracks hrun
  subst ht
  cases hr with
  | accepted c hl ha =>
      have hclean : s.CleanEvent fd revents accepted read ↔ c ≠ 0 := by
        rw [CleanEvent, if_pos hl, ha, ne_eq, Option.some.injEq]
      have ho : c ∈ (s.kernel.run [.accept s.ipc.socketFd (some c), add_event c]).opened :=
        Finset.mem_insert_self c s.kernel.opened
      refine ⟨?_, h.watched.event he rfl ?_ ?_⟩
      · rw [hclean]
        exact (forall_prop_of_true rfl).trans (tracks_some_iff rfl ho)
      · exact fun d hd _ => Finset.mem_insert_of_mem hd
      · intro d e hd
        rcases interest_add_event hd with hd | ⟨rfl, hp⟩
        · exact .inl ⟨hd, fun hdf => .inl (hdf ▸ hl)⟩
        · exact .inr ⟨hp, Finset.mem_insert_self d _⟩
  | failed hl ha =>
      refine ⟨iff_of_true (fun hx => by cases hx) ?_, h.watched.event he rfl ?_ ?_⟩
      · rw [CleanEvent, if_pos hl, ha]
        exact (Option.some_ne_none 0).symm
      · exact fun d hd _ => hd
      · exact fun d e hd => .inl ⟨hd, fun hdf => .inl (hdf ▸ hl)⟩
  | closed hl htest hread =>
      have hcl : Closes s.kernel fd
          (.read fd 512 read :: delete_event fd :: [.shutdown fd, .close fd]) :=
        closes_terminated read (.inl rfl)
      have hclean : s.CleanEvent fd revents accepted read ↔ ∀ d ∈ s.kernel.opened, d = fd := by
        simp only [CleanEvent, if_neg hl, htest, hread, forall_const]
      have hempty : s.kernel.opened.erase fd = ∅ ↔ ∀ d ∈ s.kernel.opened, d = fd := by
        rw [Finset.eq_empty_iff_forall_notMem]
        simp only [Finset.mem_erase, not_and]
        exact ⟨fun h d hd => by_contra fun hne => h d hne hd, fun h d hne hd => hne (h d hd)⟩
      refine ⟨?_, h.watched.event he rfl ?_ ?_⟩
      · rw [hclean, ← hempty, ← hcl.opened]
        exact (forall_prop_of_true rfl).trans (tracks_none_iff rfl)
      · intro d hd hne
        rw [hcl.opened]
        exact Finset.mem_erase_of_ne_of_mem hne hd
      · exact fun d e hd => .inl ⟨(hcl.interest d e hd).1, fun hdf =>
          absurd hdf (hcl.interest d e hd).2⟩
  | nothing calls hl hread hc =>
      have hclean : s.CleanEvent fd revents accepted read := by
        rw [CleanEvent, if_neg hl]
        exact fun htest hr => absurd hr (hread htest)
      have hk : s.kernel.run calls = s.kernel := by
        rcases hc with rfl | rfl <;> rfl
      refine ⟨iff_of_true (fun _ => ?_) hclean, h.watched.event he rfl ?_ ?_⟩
      · apply (tracks_congr (s := s) ?_ ?_).mpr htr
        · rfl
        · exact congrArg Descriptors.opened hk
      · intro d hd _
        rw [hk]
        exact hd
      · intro d e hd
        rw [hk] at hd ⊢
        refine .inl ⟨hd, fun hdf => ?_⟩
        subst hdf
        exact h.watched.events (d, revents) (by rw [he]; exact List.mem_cons_self)

/-- **One step.** -/
theorem Kept.step (h : s.Kept) (hs : IpcStep s a t) :
    ((t.exited = false → t.Tracks) ↔ s.Clean a) ∧ t.Watched := by
  unfold IpcStep act at hs
  cases a with
  | epoll_wait report =>
      dsimp only at hs
      split at hs
      · next hr =>
        cases hs
        have heq := Descriptors.harvest_eq (fun fd e he => (h.watched.interest fd e he).1) hr.2.1
        refine ⟨iff_of_true (fun hx => ?_) trivial, h.watched.interest, ?_, ?_⟩
        · apply (tracks_congr (s := s) ?_ ?_).mpr (h.tracks hx)
          · rfl
          · rfl
        · rw [heq]
          intro r hm
          obtain ⟨e, he, -⟩ := hr.2.1.2 r hm
          exact (h.watched.interest r.1 e he).2
        · rw [heq]
          exact hr.2.1.1
      · cases hs
  | event accepted read =>
      dsimp only at hs
      split at hs
      · cases hs
      · next fd revents rest he =>
        split at hs
        · next hc =>
          have hclean : s.Clean (.event accepted read) ↔
              s.CleanEvent fd revents accepted read := by
            simp [Clean, he]
          rw [hclean]
          exact h.event hc.1 he event_handled (Option.some.inj hs).symm
        · cases hs

/-! ### Runs -/

/-- The thread at the beginning of its loop. -/
def start (socketFd : Fd) : IpcThread where
  ipc := { socketFd := some socketFd }
  kernel := Descriptors.run {} [add_event socketFd]

theorem kept_start (socketFd : Fd) : (start socketFd).Kept where
  tracks _ := tracks_of_empty rfl rfl
  watched := by
    refine ⟨fun d e hd => ?_, fun r hr => absurd hr List.not_mem_nil, .nil⟩
    rcases interest_add_event hd with hd | ⟨rfl, hp⟩
    · cases hd
    · exact ⟨hp, .inl rfl⟩

end IpcThread

open IpcThread

/-- **The peer of the unix-domain socket**: in every state that is reached by clean steps, at the
head of the loop as between two events, `ipcFd` is a client that is open, or -1 when there is none.
The runs whose steps are clean are those in which it is right after every step. -/
theorem ipcPeer_iff (socketFd : Fd) (ls : List SocketAction) (t : IpcThread) :
    (RunWith IpcStep (fun s a _ => s.Clean a) (start socketFd) ls t → t.AtHead → t.Tracks) ∧
      (RunWith IpcStep (fun _ _ t => t.exited = false → t.Tracks) (start socketFd) ls t ↔
        RunWith IpcStep (fun s a _ => s.Clean a) (start socketFd) ls t) := by
  have hkeep : ∀ (s : IpcThread) a t, s.Kept → IpcStep s a t → s.Clean a → t.Kept :=
    fun s a t h hs hc => ⟨(h.step hs).1.mpr hc, (h.step hs).2⟩
  constructor
  · intro run hh
    exact (RunWith.invariant hkeep run (kept_start socketFd)).tracks hh.2
  · exact runWith_iff hkeep (fun s a t h hs => (h.step hs).1) (kept_start socketFd)

/-- One client comes and goes, then another comes. -/
theorem ipcPeer_iff_example :
    ∃ t : IpcThread, t.ipc.ipcFd = some 5 ∧ t.kernel.opened = {5} ∧ t.Tracks := by
  obtain ⟨t, run, hh, hi, ho⟩ := exists_runWith act Clean
    (fun t => t.AtHead ∧ t.ipc.ipcFd = some 5 ∧ t.kernel.opened = {5}) (start 3)
    [.epoll_wait [(3, EPOLLIN)], .event (some 5) (.count 0), .epoll_wait [(5, EPOLLIN)],
      .event none (.count 0), .epoll_wait [(3, EPOLLIN)], .event (some 5) (.count 0)]
    (by decide +kernel)
  exact ⟨t, hi, ho, (ipcPeer_iff 3 _ t).1 run hh⟩

/-- Two clients come and the first one goes, which takes `ipcFd` from the second. -/
theorem not_ipcPeer : ∃ t : IpcThread, Run IpcStep (start 3)
      [.epoll_wait [(3, EPOLLIN)], .event (some 5) (.count 0), .epoll_wait [(3, EPOLLIN)],
        .event (some 6) (.count 0), .epoll_wait [(5, EPOLLIN)], .event none (.count 0)] t ∧
    t.AtHead ∧ t.kernel.opened = {6} ∧ t.ipc.ipcFd = none ∧ t.ipc.ipcWrite [1] = none ∧
    ¬ t.Tracks := by
  obtain ⟨t, run, hh, ho, hi, hw⟩ := exists_run act
    (fun t => t.AtHead ∧ t.kernel.opened = {6} ∧ t.ipc.ipcFd = none ∧ t.ipc.ipcWrite [1] = none)
    (start 3)
    [.epoll_wait [(3, EPOLLIN)], .event (some 5) (.count 0), .epoll_wait [(3, EPOLLIN)],
      .event (some 6) (.count 0), .epoll_wait [(5, EPOLLIN)], .event none (.count 0)]
    (by decide +kernel)
  refine ⟨t, run, hh, ho, hi, hw, fun h => ?_⟩
  rw [h.none_iff.mp hi] at ho
  exact absurd ho (by decide)

end NetworkStructure
