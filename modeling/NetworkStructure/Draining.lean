import NetworkStructure.EdgeTriggered
import NetworkStructure.FdBooks
import NetworkStructure.Ipc

/-! # What the socket threads leave behind

`NoneConcurrentThread`, `ConcurrentThread` and `IPCThread` register their descriptors with
`EPOLLET` and answer each event with one `accept` or one `read` of 512 bytes.  That is enough as
long as one connection, or no more than 512 bytes, have arrived for a report, or more arrives
before the report is handled; otherwise the rest waits until something else happens to arrive
(`edgeTriggered_drained`). -/

namespace NetworkStructure

open EdgeThread

/-! ### TcpServerSocket -/

namespace FdManager

variable {m : FdManager} {n : ℕ} {c d : Fd}

theorem insertOrClose_result (h : (m.insertOrClose n c).1 = some d) : d = c := by
  unfold insertOrClose at h
  split at h
  · exact (Option.some.inj h).symm
  · cases h

theorem insertOrClose_calls :
    ∀ call ∈ (m.insertOrClose n c).2.2, call = .shutdown c ∨ call = .close c := by
  intro call hm
  unfold insertOrClose close at hm
  split at hm
  · cases hm
  · dsimp only at hm
    split at hm
    · simpa using hm
    · cases hm

/-- What follows an `accept` concerns the new descriptor. -/
theorem insertOrClose_tail {c : Fd} : ∀ call ∈ (m.insertOrClose n c).2.2 ++
    ((m.insertOrClose n c).1.map add_event).toList,
      call = add_event c ∨ call = .shutdown c ∨ call = .close c := by
  intro call hm
  rcases List.mem_append.mp hm with hm | hm
  · exact .inr (insertOrClose_calls call hm)
  · cases hr : (m.insertOrClose n c).1 with
    | none =>
        rw [hr] at hm
        cases hm
    | some d =>
        rw [hr, insertOrClose_result hr] at hm
        exact .inl (List.mem_singleton.mp hm)

end FdManager

namespace TcpServerSocket

/-- There is a list of descriptors, and only `ConcurrentThread` has an interface socket. -/
structure Manned (s : TcpServerSocket) : Prop where
  dev : s.pDevFdVec_ ≠ none
  type : s.serverType = .TCP_SERVER_TYPE_NONE_CONCURRENT → s.pInterfaceSocket = none

/-- Of the `n` connections or bytes that wait everything is taken: one connection, which is
accepted, or what one `read` reads; the end of the file and a reset close the socket. -/
def takes : Takes TcpServerSocket := fun s n fd revents accepted read =>
  if s.Listens fd then n ≤ 1 ∧ (accepted = none → n = 0)
  else Mask.test revents EPOLLIN = true → match read with
    | .count m => m = 0 ∨ n ≤ m
    | .failed e => e = .ECONNRESET ∨ n = 0

instance : ∀ s n fd revents accepted read,
    Decidable (takes s n fd revents accepted read) := fun s n fd revents accepted read => by
  unfold takes
  cases read <;> infer_instance

end TcpServerSocket

/-! ### The answers to an event -/

section Answers

variable {fd : Fd} {revents : Mask} {accepted : Option Fd} {read : ReadResult} {n : ℕ}
  {calls tail : List Syscall}

/-- The calls attend to the event, and they take everything exactly when `enough`. -/
def Answers (fd : Fd) (revents : Mask) (n : ℕ) (calls : List Syscall) (enough : Prop) : Prop :=
  Attends fd revents calls ∧ (enough ↔ TakesAll fd n calls)

theorem answers_accept (fd : Fd) (revents : Mask) (n : ℕ) (accepted : Option Fd)
    {tail : List Syscall}
    (hc : ∀ c ∈ tail, ∃ d, accepted = some d ∧ (c = add_event d ∨ c = .shutdown d ∨ c = .close d)) :
    Answers fd revents n (.accept (some fd) accepted :: tail)
      (n ≤ 1 ∧ (accepted = none → n = 0)) := by
  refine ⟨.accept fun c hm => .inr (hc c hm), ?_⟩
  rw [takesAll_accept hc]
  cases accepted with
  | none =>
      simp only [Syscall.fetched, forall_const]
      omega
  | some d => simp [Syscall.fetched]

theorem answers_read (fd : Fd) (revents : Mask) (n : ℕ) (read : ReadResult) :
    Answers fd revents n [.read fd 512 read] (n ≤ Syscall.fetched (.read fd 512 read)) :=
  ⟨.read (List.forall_mem_nil _) (.inl rfl), takesAll_read.symm⟩

/-- The socket is released, and what is left on it does not matter. -/
theorem answers_release (hc : ∀ c ∈ tail, c = delete_event fd ∨ c = .shutdown fd ∨ c = .close fd)
    (hd : delete_event fd ∈ tail) {enough : Prop} (he : enough) :
    Answers fd revents n (.read fd 512 read :: tail) enough :=
  ⟨.read hc (.inr hd), iff_of_true he (.inr (.inr (.inl (List.mem_cons_of_mem _ hd))))⟩

theorem answers_nothing (hr : Mask.test revents EPOLLIN = false) {enough : Prop} (he : enough) :
    Answers fd revents n [] enough := ⟨.idle hr, iff_of_true he (.inl rfl)⟩

/-- The event of a client in the threads of `TcpServerSocket`, which differ in how they close the
socket. -/
theorem answers_client (fd : Fd) (revents : Mask) (n : ℕ) (read : ReadResult)
    {closing : List Syscall}
    (hc : ∀ c ∈ closing, c = delete_event fd ∨ c = .shutdown fd ∨ c = .close fd)
    (hd : delete_event fd ∈ closing) :
    Answers fd revents n
      (match read with
        | .failed e =>
            if e = .ECONNRESET then [.read fd 512 read, .close fd, delete_event fd]
            else [.read fd 512 read]
        | .count 0 => .read fd 512 read :: closing
        | .count (_ + 1) => [.read fd 512 read])
      (match read with
        | .count m => m = 0 ∨ n ≤ m
        | .failed e => e = .ECONNRESET ∨ n = 0) := by
  cases read with
  | failed e =>
      dsimp only
      split
      · next he => exact answers_release (by simp) (by simp) (.inl he)
      · next he =>
        have := answers_read fd revents n (.failed e)
        simpa [he, Syscall.fetched] using this
  | count m =>
      cases m with
      | zero => exact answers_release hc hd (.inl rfl)
      | succ m =>
          have := answers_read fd revents n (.count (m + 1))
          simpa [Syscall.fetched] using this

end Answers

namespace TcpServerSocket

variable {s : TcpServerSocket} {fd : Fd} {revents : Mask} {accepted : Option Fd}
  {read : ReadResult} {n : ℕ}

/-- `Accept` and the registration of the client. -/
theorem accept_answers (revents : Mask) (n : ℕ) (accepted : Option Fd)
    (h : s.pDevFdVec_ ≠ none) (hfd : some fd = s.socketFd) :
    Answers fd revents n
      ((s.accept accepted).2.2 ++ ((s.accept accepted).1.map add_event).toList)
      (n ≤ 1 ∧ (accepted = none → n = 0)) := by
  obtain ⟨m, hm⟩ := Option.ne_none_iff_exists'.mp h
  cases accepted with
  | none =>
      rw [accept_none hm, ← hfd]
      exact answers_accept fd revents n none (List.forall_mem_nil _)
  | some d =>
      rw [accept_some hm, ← hfd]
      exact answers_accept fd revents n (some d)
        fun c hc => ⟨d, rfl, FdManager.insertOrClose_tail c hc⟩

theorem ifcAccept_answers (revents : Mask) (n : ℕ) (accepted : Option Fd)
    {i : TcpInterfaceSocket} (hfd : some fd = i.socketFd) :
    Answers fd revents n
      ((i.accept accepted).2.2 ++ ((i.accept accepted).1.map add_event).toList)
      (n ≤ 1 ∧ (accepted = none → n = 0)) := by
  unfold TcpInterfaceSocket.accept
  rw [← hfd]
  cases accepted with
  | none => exact answers_accept fd revents n none (List.forall_mem_nil _)
  | some d =>
      exact answers_accept fd revents n (some d)
        fun c hc => ⟨d, rfl, FdManager.insertOrClose_tail c hc⟩

theorem noneConcurrentEvent_answers (h : s.Manned)
    (ht : s.serverType = .TCP_SERVER_TYPE_NONE_CONCURRENT) :
    Answers fd revents n (s.noneConcurrentEvent fd revents accepted read).2
      (takes s n fd revents accepted read) := by
  unfold noneConcurrentEvent takes
  split
  · next hfd =>
    rw [if_pos (.inl hfd)]
    have hcalls := accept_answers revents n accepted h.dev hfd
    dsimp only
    cases hr : (s.accept accepted).1 <;> simpa [hr] using hcalls
  · next hfd =>
    have hnot : ¬ s.Listens fd := by
      rintro (hl | hl)
      · exact hfd hl
      · rw [h.type ht] at hl
        cases hl
    rw [if_neg hnot]
    split
    · next hr =>
      have hcalls := answers_client fd revents n read
        (fun c (hm : c ∈ [delete_event fd, .shutdown fd, .close fd]) => by simpa using hm) (by simp)
      simp only [hr, forall_const]
      convert hcalls using 1
      cases read with
      | failed e => exact apply_ite Prod.snd _ _ _
      | count m => cases m <;> rfl
    · next hr => exact answers_nothing (Bool.eq_false_iff.mpr hr) fun he => absurd he hr

/-- What is closed in `ConcurrentThread`. -/
theorem terminated_calls (s : TcpServerSocket) (fd : Fd) :
    ∀ c ∈ (s.terminated fd).2, c = .shutdown fd ∨ c = .close fd := by
  intro c hm
  unfold terminated at hm
  split at hm
  · simpa using hm
  · split at hm
    · cases hm
    · split at hm
      · rcases List.mem_cons.mp hm with rfl | hm
        · exact .inl rfl
        · unfold TcpInterfaceSocket.close FdManager.close at hm
          dsimp only at hm
          split at hm
          · simpa using hm
          · cases hm
      · cases hm

theorem concurrentEvent_answers (h : s.Manned) :
    Answers fd revents n (s.concurrentEvent fd revents accepted read).2
      (takes s n fd revents accepted read) := by
  unfold concurrentEvent takes
  split
  · next hfd =>
    rw [if_pos (.inl hfd)]
    have hcalls := accept_answers revents n accepted h.dev hfd
    dsimp only
    cases hr : (s.accept accepted).1 <;> simpa [hr] using hcalls
  · next hfd =>
    split
    · next hifc =>
      rw [if_pos (.inr hifc)]
      cases hi : s.pInterfaceSocket with
      | none =>
          rw [hi] at hifc
          cases hifc
      | some i =>
          rw [hi] at hifc
          have hcalls := ifcAccept_answers revents n accepted hifc
          dsimp only
          cases hr : (i.accept accepted).1 <;> simpa [hr] using hcalls
    · next hifc =>
      have hnot : ¬ s.Listens fd := not_or.mpr ⟨hfd, hifc⟩
      rw [if_neg hnot]
      split
      · next hr =>
        have hcalls := answers_client fd revents n read
          (List.forall_mem_cons.mpr ⟨.inl rfl, fun c hm => .inr (terminated_calls s fd c hm)⟩)
          (List.mem_cons_self ..)
        simp only [hr, forall_const]
        convert hcalls using 1
        cases read with
        | failed e => exact apply_ite Prod.snd _ _ _
        | count m => cases m <;> rfl
      · next hr => exact answers_nothing (Bool.eq_false_iff.mpr hr) fun he => absurd he hr

theorem Manned.of {t : TcpServerSocket} (h : s.Manned) (hd : t.pDevFdVec_ ≠ none)
    (ht : t.serverType = s.serverType)
    (hi : s.pInterfaceSocket = none → t.pInterfaceSocket = none) : t.Manned :=
  ⟨hd, fun hn => hi (h.type (ht ▸ hn))⟩

theorem Manned.accept (h : s.Manned) (answer : Option Fd) : (s.accept answer).2.1.Manned := by
  obtain ⟨m, hm⟩ := Option.ne_none_iff_exists'.mp h.dev
  cases answer with
  | none =>
      rw [accept_none hm]
      exact h.of h.dev rfl id
  | some d =>
      rw [accept_some hm]
      exact h.of (Option.some_ne_none _) rfl id

theorem Manned.checkFd (h : s.Manned) (fd : Fd) : (s.checkFd fd).2.Manned := by
  obtain ⟨m, hm⟩ := Option.ne_none_iff_exists'.mp h.dev
  unfold TcpServerSocket.checkFd
  rw [hm]
  exact h.of (Option.some_ne_none _) rfl id

theorem Manned.terminated (h : s.Manned) (fd : Fd) : (s.terminated fd).1.Manned := by
  unfold TcpServerSocket.terminated
  split
  · exact h.checkFd fd
  · split
    · exact h
    · next i hi =>
      split
      · exact h.of h.dev rfl fun hn => nomatch hi.symm.trans hn
      · exact h

theorem Manned.event (h : s.Manned) : (s.event fd revents accepted read).1.Manned := by
  unfold TcpServerSocket.event
  cases ht : s.serverType with
  | TCP_SERVER_TYPE_NONE_CONCURRENT =>
      dsimp only
      unfold noneConcurrentEvent
      split
      · have := h.accept accepted
        dsimp only
        split <;> exact this
      · split
        · split
          · split <;> exact h
          · exact h.checkFd fd
          · exact h
        · exact h
  | TCP_SERVER_TYPE_CONCURRENT =>
      dsimp only
      unfold concurrentEvent
      split
      · have := h.accept accepted
        dsimp only
        split <;> exact this.of this.dev rfl id
      · split
        · split
          · exact h
          · next i hi =>
            dsimp only
            split <;> exact h.of h.dev rfl fun hn => nomatch hi.symm.trans hn
        · split
          · split
            · split <;> exact h
            · exact h.terminated fd
            · exact h
          · exact h

/-- Both threads attend to each event by one call. -/
theorem event_answers (h : s.Manned) :
    Answers fd revents n (s.event fd revents accepted read).2
      (takes s n fd revents accepted read) := by
  unfold event
  cases ht : s.serverType with
  | TCP_SERVER_TYPE_CONCURRENT => exact concurrentEvent_answers h
  | TCP_SERVER_TYPE_NONE_CONCURRENT => exact noneConcurrentEvent_answers h ht

theorem attentive : Attentive TcpServerSocket.event Manned takes where
  keeps _ _ _ _ h := h.event
  attends _ _ _ _ h := (event_answers (n := 0) h).1
  takes_iff _ _ _ _ _ h := (event_answers h).2

end TcpServerSocket

/-! ### IPC -/

namespace IPC

/-- A failing accept ends the process; an error of `read(2)` leaves what there is. -/
def takes : Takes IPC := fun s n fd revents accepted read =>
  if some fd = s.socketFd then accepted = none ∨ n ≤ 1
  else Mask.test revents EPOLLIN = true → match read with
    | .count m => m = 0 ∨ n ≤ m
    | .failed _ => n = 0

instance : ∀ s n fd revents accepted read,
    Decidable (takes s n fd revents accepted read) := fun s n fd revents accepted read => by
  unfold takes
  cases read <;> infer_instance

theorem event_answers (s : IPC) (n : ℕ) (fd : Fd) (revents : Mask) (accepted : Option Fd)
    (read : ReadResult) : Answers fd revents n (s.event fd revents accepted read).2
      (takes s n fd revents accepted read) := by
  unfold event takes
  split
  · next hfd =>
    unfold accept
    rw [← hfd]
    cases accepted with
    | none =>
        refine ⟨.accept (by simp), ?_⟩
        simp [TakesAll]
    | some d =>
        have h := answers_accept fd revents n (some d)
          (fun c (hm : c ∈ [add_event d]) => ⟨d, rfl, .inl (List.mem_singleton.mp hm)⟩)
        simpa using h
  · next hfd =>
    split
    · next hr =>
      simp only [hr, forall_const]
      cases read with
      | failed e =>
          have h := answers_read fd revents n (.failed e)
          simpa [Syscall.fetched] using h
      | count m =>
          cases m with
          | zero => exact answers_release (by simp) (by simp) (.inl rfl)
          | succ m =>
              have h := answers_read fd revents n (.count (m + 1))
              simpa [Syscall.fetched] using h
    · next hr => exact answers_nothing (Bool.eq_false_iff.mpr hr) fun he => absurd he hr

theorem attentive : Attentive IPC.event (fun _ => True) takes where
  keeps _ _ _ _ _ := trivial
  attends fd revents accepted read _ := (event_answers _ 0 fd revents accepted read).1
  takes_iff n fd revents accepted read _ := (event_answers _ n fd revents accepted read).2

end IPC

/-! ### Runs -/

/-- The threads of `TcpServerSocket` at the beginning of their loop. -/
def TcpServerSocket.listening (s : TcpServerSocket) (socketFd ifcFd : Fd) :
    EdgeThread TcpServerSocket where
  state := (SocketThread.start s socketFd ifcFd).socket
  kernel := { (SocketThread.start s socketFd ifcFd).kernel with }

/-- `IPCThread` at the beginning of its loop. -/
def IPC.listening (socketFd : Fd) : EdgeThread IPC where
  state := { socketFd := some socketFd }
  kernel := { Descriptors.run {} [add_event socketFd] with }

theorem TcpServerSocket.watchful_listening {n : ℤ} {type : TcpServerType}
    (hn : ¬ (n > 1 ∧ type = .TCP_SERVER_TYPE_CONCURRENT)) (socketFd ifcFd : Fd) :
    ((TcpServerSocket.new n type).2.listening socketFd ifcFd).Watchful Manned ∧
      ((TcpServerSocket.new n type).2.listening socketFd ifcFd).Caught := by
  have hkept := SocketThread.kept_start hn socketFd ifcFd
  obtain ⟨m, hm, -⟩ := hkept.ready.dev
  refine ⟨⟨⟨?_, hkept.ready.type⟩, ?_, .nil, nofun, nofun⟩, fun _ _ _ _ _ => rfl⟩
  · exact fun hnone => nomatch hm.symm.trans hnone
  · exact fun fd e he => (hkept.watched.interest fd e he).1

theorem IPC.watchful_listening (socketFd : Fd) :
    (IPC.listening socketFd).Watchful (fun _ => True) ∧ (IPC.listening socketFd).Caught := by
  refine ⟨⟨trivial, fun fd e he => ?_, .nil, nofun, nofun⟩, fun _ _ _ _ _ => rfl⟩
  rcases interest_add_event he with he | ⟨-, hp⟩
  · cases he
  · exact hp

/-- **Edge-triggered draining**: in the runs of the three threads whose steps are all prompt,
nothing is left behind when the thread returns to `epoll_wait`; and the prompt runs are those
that leave nothing behind after any step. -/
theorem edgeTriggered_drained {n : ℤ} {type : TcpServerType}
    (hn : ¬ (n > 1 ∧ type = .TCP_SERVER_TYPE_CONCURRENT)) (socketFd ifcFd ipcFd : Fd)
    (ls : List EdgeAction) :
    (∀ t : EdgeThread TcpServerSocket,
      (RunWith (fun s a t => s.act TcpServerSocket.event a = some t)
          (fun s a _ => s.Prompt TcpServerSocket.takes a)
          ((TcpServerSocket.new n type).2.listening socketFd ifcFd) ls t →
        t.AtHead → t.Drained) ∧
      (RunWith (fun s a t => s.act TcpServerSocket.event a = some t) (fun _ _ t => t.Caught)
          ((TcpServerSocket.new n type).2.listening socketFd ifcFd) ls t ↔
        RunWith (fun s a t => s.act TcpServerSocket.event a = some t)
          (fun s a _ => s.Prompt TcpServerSocket.takes a)
          ((TcpServerSocket.new n type).2.listening socketFd ifcFd) ls t)) ∧
    ∀ t : EdgeThread IPC,
      (RunWith (fun s a t => s.act IPC.event a = some t) (fun s a _ => s.Prompt IPC.takes a)
          (IPC.listening ipcFd) ls t →
        t.AtHead → t.Drained) ∧
      (RunWith (fun s a t => s.act IPC.event a = some t) (fun _ _ t => t.Caught)
          (IPC.listening ipcFd) ls t ↔
        RunWith (fun s a t => s.act IPC.event a = some t) (fun s a _ => s.Prompt IPC.takes a)
          (IPC.listening ipcFd) ls t) := by
  obtain ⟨hw, hc⟩ := TcpServerSocket.watchful_listening hn socketFd ifcFd
  obtain ⟨hw', hc'⟩ := IPC.watchful_listening ipcFd
  exact ⟨fun _ => TcpServerSocket.attentive.drained_iff hw hc,
    fun _ => IPC.attentive.drained_iff hw' hc'⟩

/-- A client of `ConcurrentThread` connects and sends 512 bytes, and 100 more before they are
read. -/
theorem edgeTriggered_drained_example : ∃ t : EdgeThread TcpServerSocket,
    t.AtHead ∧ t.kernel.waiting 7 = 100 ∧ t.kernel.outstanding 7 = true ∧ t.Drained := by
  obtain ⟨t, run, hh, hw, ho⟩ := exists_runWith
    (fun s a => s.act TcpServerSocket.event a) (fun s a => s.Prompt TcpServerSocket.takes a)
    (fun t => t.AtHead ∧ t.kernel.waiting 7 = 100 ∧ t.kernel.outstanding 7 = true)
    ((TcpServerSocket.new 0 .TCP_SERVER_TYPE_CONCURRENT).2.listening 3 4)
    [.arrive 3 1, .epoll_wait [(3, EPOLLIN)], .event (some 7) (.count 0), .arrive 7 512,
      .epoll_wait [(7, EPOLLIN)], .arrive 7 100, .event none (.count 512)]
    (by decide +kernel)
  exact ⟨t, hh, hw, ho,
    ((edgeTriggered_drained (by decide) 3 4 5 _).1 t).1 run hh⟩

/-- Two clients that are reported at once, or 513 bytes: each of the threads leaves the second
client, or the last byte, behind. -/
theorem not_edgeTriggered_drained :
    (∀ type, ∃ t, Run (fun s a t => s.act TcpServerSocket.event a = some t)
        ((TcpServerSocket.new 0 type).2.listening 3 4)
        [.arrive 3 2, .epoll_wait [(3, EPOLLIN)], .event (some 7) (.count 0)] t ∧
      t.AtHead ∧ ¬ t.Drained) ∧
    (∀ type, ∃ t, Run (fun s a t => s.act TcpServerSocket.event a = some t)
        ((TcpServerSocket.new 0 type).2.listening 3 4)
        [.arrive 3 1, .epoll_wait [(3, EPOLLIN)], .event (some 7) (.count 0), .arrive 7 513,
          .epoll_wait [(7, EPOLLIN)], .event none (.count 512)] t ∧
      t.AtHead ∧ ¬ t.Drained) ∧
    ∃ t, Run (fun s a t => s.act IPC.event a = some t) (IPC.listening 3)
        [.arrive 3 2, .epoll_wait [(3, EPOLLIN)], .event (some 7) (.count 0)] t ∧
      t.AtHead ∧ ¬ t.Drained := by
  have hleft : ∀ {σ : Type} {t : EdgeThread σ} (fd : Fd), t.kernel.interest fd ≠ none →
      t.kernel.outstanding fd = false → t.kernel.waiting fd ≠ 0 → ¬ t.Drained :=
    fun fd hi ho hw hd => hw (hd fd hi ho)
  refine ⟨fun type => ?_, fun type => ?_, ?_⟩
  · obtain ⟨t, run, hh, hi, ho, hw⟩ := exists_run (fun s a => s.act TcpServerSocket.event a)
      (fun t => t.AtHead ∧ t.kernel.interest 3 ≠ none ∧ t.kernel.outstanding 3 = false ∧
        t.kernel.waiting 3 ≠ 0) ((TcpServerSocket.new 0 type).2.listening 3 4)
      [.arrive 3 2, .epoll_wait [(3, EPOLLIN)], .event (some 7) (.count 0)]
      (by cases type <;> decide +kernel)
    exact ⟨t, run, hh, hleft 3 hi ho hw⟩
  · obtain ⟨t, run, hh, hi, ho, hw⟩ := exists_run (fun s a => s.act TcpServerSocket.event a)
      (fun t => t.AtHead ∧ t.kernel.interest 7 ≠ none ∧ t.kernel.outstanding 7 = false ∧
        t.kernel.waiting 7 ≠ 0) ((TcpServerSocket.new 0 type).2.listening 3 4)
      [.arrive 3 1, .epoll_wait [(3, EPOLLIN)], .event (some 7) (.count 0), .arrive 7 513,
        .epoll_wait [(7, EPOLLIN)], .event none (.count 512)]
      (by cases type <;> decide +kernel)
    exact ⟨t, run, hh, hleft 7 hi ho hw⟩
  · obtain ⟨t, run, hh, hi, ho, hw⟩ := exists_run (fun s a => s.act IPC.event a)
      (fun t => t.AtHead ∧ t.kernel.interest 3 ≠ none ∧ t.kernel.outstanding 3 = false ∧
        t.kernel.waiting 3 ≠ 0) (IPC.listening 3)
      [.arrive 3 2, .epoll_wait [(3, EPOLLIN)], .event (some 7) (.count 0)]
      (by decide +kernel)
    exact ⟨t, run, hh, hleft 3 hi ho hw⟩

end NetworkStructure
