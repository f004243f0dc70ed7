import NetworkStructure.Ledger
import NetworkStructure.Run
import NetworkStructure.TcpServerSocket

/-! # The books of the socket threads

`pDevFdVec_` and `pIfcFdVec_` are the books that a `TcpServerSocket` keeps of the clients it has
accepted.  Here the threads run against a kernel that knows which of these sockets are open and
what is registered with epoll; `accept(2)` and `read(2)` may answer anything that they can.

The books are a ledger of the open sockets.  A client that comes is entered, and one that goes
is erased and closed, but a reset closes the socket and leaves the entry.  Descriptor 0, which
the code takes for none, is a second case: `Close` does not close it and `CheckFd` does not find
it.  The ledger stays balanced exactly as long as none of this happens (`fdBooks_iff`). -/

namespace NetworkStructure

/-! ### The thread -/

/-- A `TcpServerSocket` whose thread is running: the events of the last report that are still to
be handled. -/
structure SocketThread where
  socket : TcpServerSocket
  kernel : Descriptors := {}
  events : List (Fd × Mask) := []

/-- The thread is about to call `epoll_wait`. -/
def SocketThread.AtHead (s : SocketThread) : Prop := s.events = []

instance (s : SocketThread) : Decidable s.AtHead := inferInstanceAs (Decidable (_ = _))

inductive SocketAction where
  | epoll_wait (report : List (Fd × Mask))
  | event (accepted : Option Fd) (read : ReadResult)
deriving Repr

namespace TcpServerSocket

variable (s : TcpServerSocket)

def devFds : List Fd := (s.pDevFdVec_.map (·.fdVec_)).getD []

def ifcFds : List Fd := (s.pInterfaceSocket.map (·.pIfcFdVec_.fdVec_)).getD []

/-- A listening socket of the thread. -/
def Listens (fd : Fd) : Prop :=
  some fd = s.socketFd ∨ some fd = s.pInterfaceSocket.bind (·.socketFd)

instance (fd : Fd) : Decidable (s.Listens fd) := inferInstanceAs (Decidable (_ ∨ _))

end TcpServerSocket

/-- A step of the thread; `none` when it is not possible.  `epoll_wait` reports what is
registered, `accept(2)` answers with a descriptor that is not open, and `read(2)` reads what
fits. -/
def SocketThread.act (s : SocketThread) : SocketAction → Option SocketThread
  | .epoll_wait report =>
      if s.AtHead ∧ ValidReport s.kernel.interest report ∧ report.length ≤ MAX_EVENTS then
        some { s with events := s.kernel.harvest report }
      else none
  | .event accepted read =>
      match s.events with
      | [] => none
      | (fd, revents) :: rest =>
          let r := s.socket.event fd revents accepted read
          if (∀ c ∈ accepted, c ∉ s.kernel.opened ∧ ¬ s.socket.Listens c) ∧
              read.atMost 512 = true then
            some { socket := r.1, kernel := s.kernel.run r.2, events := rest }
          else none

def SocketStep (s : SocketThread) (a : SocketAction) (t : SocketThread) : Prop := s.act a = some t

/-- The books are right. -/
structure BooksOk (s : TcpServerSocket) (k : Descriptors) : Prop where
  /-- The descriptors held are pairwise distinct, in each list and across the two. -/
  distinct : (s.devFds ++ s.ifcFds).Nodup
  devMax : s.devFds.length ≤ s.maxConnections
  ifcMax : ∀ i, s.pInterfaceSocket = some i → i.pIfcFdVec_.fdVec_.length ≤ i.maxConnections
  /-- They are the accepted sockets that are open. -/
  exact : ∀ fd, fd ∈ s.devFds ++ s.ifcFds ↔ fd ∈ k.opened

/-- The event, with these answers, does not unbalance the books: a client on descriptor 0 is not
refused, no client is reset, and, in `NoneConcurrentThread`, no client on descriptor 0 closes. -/
def TcpServerSocket.CleanEvent (s : TcpServerSocket) (fd : Fd) (revents : Mask)
    (accepted : Option Fd) (read : ReadResult) : Prop :=
  if some fd = s.socketFd then accepted = some 0 → s.devFds.length < s.maxConnections
  else if some fd = s.pInterfaceSocket.bind (·.socketFd) then
    accepted = some 0 →
      ∀ i ∈ s.pInterfaceSocket, i.pIfcFdVec_.fdVec_.length < i.maxConnections
  else
    Mask.test revents EPOLLIN = true → read ≠ .failed .ECONNRESET ∧
      (s.serverType = .TCP_SERVER_TYPE_NONE_CONCURRENT → read = .count 0 → fd ≠ 0)

instance (s : TcpServerSocket) (fd : Fd) (revents : Mask) (accepted : Option Fd)
    (read : ReadResult) : Decidable (s.CleanEvent fd revents accepted read) := by
  unfold TcpServerSocket.CleanEvent
  infer_instance

/-- The step is clean. -/
def SocketThread.Clean (s : SocketThread) : SocketAction → Prop
  | .epoll_wait _ => True
  | .event accepted read =>
      ∀ r ∈ s.events.head?, s.socket.CleanEvent r.1 r.2 accepted read

instance (s : SocketThread) (a : SocketAction) : Decidable (s.Clean a) :=
  match a with
  | .epoll_wait _ => isTrue trivial
  | .event accepted read => inferInstanceAs
      (Decidable (∀ r ∈ s.events.head?, s.socket.CleanEvent r.1 r.2 accepted read))

/-! ### Admitting a client -/

section Admit

variable {m : FdManager} {k : Descriptors} {n : ℕ} {rest : List Fd} {c : Fd}

/-- What becomes of a client that is accepted, where `rest` are the entries of the other list:
the books stay balanced unless the client has descriptor 0 and there is no room. -/
structure Admitted (m : FdManager) (k : Descriptors) (n : ℕ) (rest : List Fd) (c : Fd)
    (r : Option Fd × FdManager × List Syscall) : Prop where
  maxSize_ : r.2.1.maxSize_ = n
  atMost : r.2.1.fdVec_.length ≤ n
  balanced : Balanced (r.2.1.fdVec_ ++ rest) (k.run r.2.2).opened ↔
    (c = 0 → m.fdVec_.length < n)
  kept : k.opened ⊆ (k.run r.2.2).opened
  result : ∀ d, r.1 = some d → d = c ∧ c ∈ (k.run r.2.2).opened
  interest : ∀ fd e, (k.run r.2.2).interest fd = some e → k.interest fd = some e

theorem insertOrClose_spec (hs : m.maxSize_ = n) (hl : m.fdVec_.length ≤ n)
    (hb : Balanced (m.fdVec_ ++ rest) k.opened) (hc : c ∉ k.opened) (listenFd : Option Fd) :
    Admitted m k n rest c
      ((m.insertOrClose n c).1, (m.insertOrClose n c).2.1,
        .accept listenFd (some c) :: (m.insertOrClose n c).2.2) := by
  have hm : c ∉ m.fdVec_ := fun hm => hc ((hb.mem c).mp (List.mem_append_left _ hm))
  rcases Nat.lt_or_ge m.fdVec_.length n with hlt | hge
  · rw [FdManager.insertOrClose_of_room hlt hs]
    have hp : (c :: (m.fdVec_ ++ rest)).Perm (m.fdVec_ ++ [c] ++ rest) := by
      rw [List.append_assoc]
      exact List.perm_middle.symm
    constructor
    case maxSize_ => exact hs
    case atMost =>
        rw [List.length_append]
        exact hlt
    case balanced => exact iff_of_true ((hb.enter hc).perm hp) fun _ => hlt
    case kept => exact Finset.subset_insert c k.opened
    case result =>
        rintro d ⟨⟩
        exact ⟨rfl, Finset.mem_insert_self c k.opened⟩
    case interest => exact fun _ _ h => h
  · rcases Nat.eq_zero_or_pos c with rfl | h0
    · rw [FdManager.insertOrClose_zero hge]
      constructor
      case maxSize_ => exact hs
      case atMost => exact hl
      case balanced =>
          refine iff_of_false (fun h => hc (hb.open_iff.mp h)) fun h => ?_
          exact Nat.not_lt.mpr hge (h rfl)
      case kept => exact Finset.subset_insert 0 k.opened
      case result => exact fun _ h => nomatch h
      case interest => exact fun _ _ h => h
    · rw [FdManager.insertOrClose_of_full hge h0 hm]
      have ho : (k.run [.accept listenFd (some c), .shutdown c, .close c]).opened = k.opened :=
        Finset.erase_insert hc
      constructor
      case maxSize_ => exact hs
      case atMost => exact hl
      case balanced =>
          rw [ho]
          exact iff_of_true hb fun h => absurd h (Nat.ne_of_gt h0)
      case kept => rw [ho]
      case result => exact fun _ h => nomatch h
      case interest =>
          intro fd e h
          by_cases hd : fd = c
          · subst hd
            simp [Descriptors.run, Descriptors.call] at h
          · simpa [Descriptors.run, Descriptors.call, hd] using h

end Admit

/-! ### Handling an event -/

namespace TcpServerSocket

/-- The managers are there and have the capacity that the server allows. -/
structure Ready (s : TcpServerSocket) : Prop where
  dev : ∃ m, s.pDevFdVec_ = some m ∧ m.maxSize_ = s.maxConnections
  ifc : ∀ i, s.pInterfaceSocket = some i → i.pIfcFdVec_.maxSize_ = i.maxConnections
  type : s.serverType = .TCP_SERVER_TYPE_NONE_CONCURRENT → s.pInterfaceSocket = none

end TcpServerSocket

variable {s : TcpServerSocket} {k : Descriptors} {fd : Fd} {revents : Mask} {accepted : Option Fd}
  {read : ReadResult}

theorem BooksOk.balanced (h : BooksOk s k) : Balanced (s.devFds ++ s.ifcFds) k.opened :=
  ⟨h.distinct, h.exact⟩

/-- Within the limits the books are right when they are balanced. -/
theorem booksOk_iff (hd : s.devFds.length ≤ s.maxConnections)
    (hi : ∀ i, s.pInterfaceSocket = some i → i.pIfcFdVec_.fdVec_.length ≤ i.maxConnections) :
    BooksOk s k ↔ Balanced (s.devFds ++ s.ifcFds) k.opened :=
  ⟨BooksOk.balanced, fun h => ⟨h.nodup, hd, hi, h.mem⟩⟩

/-- What the handler of an event on `fd` does to the books and the interest set; they are right
afterwards exactly when `clean`. -/
structure Handling (s : TcpServerSocket) (k : Descriptors) (fd : Fd)
    (r : TcpServerSocket × List Syscall) (clean : Prop) : Prop where
  ready : r.1.Ready
  listens : r.1.Listens = s.Listens
  books : BooksOk r.1 (k.run r.2) ↔ clean
  /-- No other socket is closed. -/
  kept : ∀ d ∈ k.opened, d ≠ fd → d ∈ (k.run r.2).opened
  interest : ∀ d e, (k.run r.2).interest d = some e →
    (k.interest d = some e ∧ (d = fd → s.Listens d ∨ d ∈ (k.run r.2).opened)) ∨
      e.ptr = d ∧ d ∈ (k.run r.2).opened

/-- An event that is handled without a change. -/
theorem handling_nothing (hs : s.Ready) (hb : BooksOk s k) (hf : s.Listens fd ∨ fd ∈ k.opened)
    {calls : List Syscall} (hr : k.run calls = k) {clean : Prop} (hc : clean) :
    Handling s k fd (s, calls) clean where
  ready := hs
  listens := rfl
  books := by rw [hr]; exact iff_of_true hb hc
  kept d hd _ := by rw [hr]; exact hd
  interest d e h := by
    rw [hr] at h ⊢
    exact .inl ⟨h, fun he => he ▸ hf⟩

theorem interest_add_event {c d : Fd} {e : EpollEvent Fd}
    (h : (k.call (add_event c)).interest d = some e) :
    k.interest d = some e ∨ d = c ∧ e.ptr = d := by
  by_cases hd : d = c
  · subst hd
    cases hk : k.interest d with
    | none =>
        simp [Descriptors.call, add_event, epoll_ctl, hk] at h
        exact .inr ⟨rfl, h ▸ rfl⟩
    | some e' =>
        simp [Descriptors.call, add_event, epoll_ctl, hk] at h
        exact .inl (h ▸ rfl)
  · cases hk : k.interest c <;>
      simp [Descriptors.call, add_event, epoll_ctl, hk, hd] at h <;> exact .inl h

@[simp] theorem call_add_event_opened (c : Fd) :
    (k.call (add_event c)).opened = k.opened := rfl

theorem run_append (calls : List Syscall) (c : Syscall) :
    k.run (calls ++ [c]) = (k.run calls).call c := by
  simp [Descriptors.run, List.foldl_append]

/-- The event of a listening socket, where a client is accepted. -/
theorem Admitted.handling {m : FdManager} {n : ℕ} {rest : List Fd} {c : Fd}
    {r : Option Fd × FdManager × List Syscall} (h : Admitted m k n rest c r)
    (hl : s.Listens fd) {t : TcpServerSocket} (hr : t.Ready) (hs : t.Listens = s.Listens)
    (hb : ∀ k', BooksOk t k' ↔ Balanced (r.2.1.fdVec_ ++ rest) k'.opened) :
    Handling s k fd (t, r.2.2 ++ (r.1.map add_event).toList) (c = 0 → m.fdVec_.length < n) := by
  cases hd : r.1 with
  | none =>
      rw [Option.map_none, Option.toList_none, List.append_nil]
      constructor
      case ready => exact hr
      case listens => exact hs
      case books => rw [hb, h.balanced]
      case kept => exact fun d hd _ => h.kept hd
      case interest =>
          intro d e he
          exact .inl ⟨h.interest d e he, fun hd => .inl (hd ▸ hl)⟩
  | some d =>
      obtain ⟨rfl, hc⟩ := h.result d hd
      rw [Option.map_some, Option.toList_some]
      constructor
      case ready => exact hr
      case listens => exact hs
      case books => rw [hb, run_append, call_add_event_opened, h.balanced]
      case kept =>
          intro d hd _
          rw [run_append, call_add_event_opened]
          exact h.kept hd
      case interest =>
          intro d e he
          rw [run_append] at he ⊢
          rcases interest_add_event he with he | ⟨rfl, hp⟩
          · exact .inl ⟨h.interest d e he, fun hd => .inl (hd ▸ hl)⟩
          · exact .inr ⟨hp, hc⟩

/-- `TcpServerSocket::Accept`, called for an event of the server's socket; the threads leave
different values in `connFd`. -/
theorem accept_handling (hs : s.Ready) (hb : BooksOk s k) (hl : s.Listens fd)
    (ha : ∀ c, accepted = some c → c ∉ k.opened) (connFd : Option Fd) :
    Handling s k fd ({ (s.accept accepted).2.1 with connFd := connFd },
        (s.accept accepted).2.2 ++ ((s.accept accepted).1.map add_event).toList)
      (accepted = some 0 → s.devFds.length < s.maxConnections) := by
  obtain ⟨m, hm, hmax⟩ := hs.dev
  have hdev : s.devFds = m.fdVec_ := by simp [TcpServerSocket.devFds, hm]
  have hbal := hb.balanced
  have hlen := hb.devMax
  rw [hdev] at hbal hlen
  cases accepted with
  | none =>
      rw [TcpServerSocket.accept_none hm]
      constructor
      case ready => exact ⟨hs.dev, hs.ifc, hs.type⟩
      case listens => rfl
      case books =>
          exact iff_of_true ⟨hb.distinct, hb.devMax, hb.ifcMax, hb.exact⟩ fun h => nomatch h
      case kept => exact fun d hd _ => hd
      case interest => exact fun d e he => .inl ⟨he, fun hd => .inl (hd ▸ hl)⟩
  | some c =>
      have h := insertOrClose_spec hmax hlen hbal (ha c rfl) s.socketFd
      rw [TcpServerSocket.accept_some hm, hdev]
      have hh := h.handling (t := { s with
        connFd := connFd
        pDevFdVec_ := some (m.insertOrClose s.maxConnections c).2.1 }) hl
        ⟨⟨_, rfl, h.maxSize_⟩, hs.ifc, hs.type⟩ rfl
        (fun k' => booksOk_iff h.atMost hb.ifcMax)
      simpa using hh

/-- `TcpInterfaceSocket::Accept`. -/
theorem ifcAccept_handling {i : TcpInterfaceSocket} (hi : s.pInterfaceSocket = some i)
    (hs : s.Ready) (hb : BooksOk s k) (hl : s.Listens fd)
    (ha : ∀ c, accepted = some c → c ∉ k.opened) :
    Handling s k fd ({ s with
        connFd := none
        pInterfaceSocket := some (i.accept accepted).2.1 },
        (i.accept accepted).2.2 ++ ((i.accept accepted).1.map add_event).toList)
      (accepted = some 0 → i.pIfcFdVec_.fdVec_.length < i.maxConnections) := by
  have hifc : s.ifcFds = i.pIfcFdVec_.fdVec_ := by simp [TcpServerSocket.ifcFds, hi]
  have hmax := hs.ifc i hi
  have hlen := hb.ifcMax i hi
  have hbal := hb.balanced.perm List.perm_append_comm
  rw [hifc] at hbal
  have hlis : ∀ j : TcpInterfaceSocket, j.socketFd = i.socketFd →
      TcpServerSocket.Listens { s with connFd := none, pInterfaceSocket := some j } =
        s.Listens := by
    intro j hj
    funext d
    simp [TcpServerSocket.Listens, hi, hj]
  have htype : s.serverType ≠ .TCP_SERVER_TYPE_NONE_CONCURRENT := fun ht => by
    rw [hs.type ht] at hi
    cases hi
  cases accepted with
  | none =>
      constructor
      case ready => exact ⟨hs.dev, fun j hj => Option.some.inj hj ▸ hmax, fun ht => absurd ht htype⟩
      case listens => exact hlis _ rfl
      case books =>
          refine iff_of_true ⟨?_, hb.devMax, fun j hj => Option.some.inj hj ▸ hlen, ?_⟩
            fun h => nomatch h
          · have := hb.distinct
            rwa [hifc] at this
          · have := hb.exact
            rwa [hifc] at this
      case kept => exact fun d hd _ => hd
      case interest => exact fun d e he => .inl ⟨he, fun hd => .inl (hd ▸ hl)⟩
  | some c =>
      have h := insertOrClose_spec hmax hlen hbal (ha c rfl) i.socketFd
      have hh := h.handling (t := { s with
          connFd := none
          pInterfaceSocket := some (i.accept (some c)).2.1 }) hl
        ⟨hs.dev, fun j hj => Option.some.inj hj ▸ h.maxSize_, fun ht => absurd ht htype⟩
        (hlis _ rfl)
        (fun k' => (booksOk_iff (s := { s with
            connFd := none
            pInterfaceSocket := some (i.accept (some c)).2.1 }) hb.devMax
          fun j hj => Option.some.inj hj ▸ h.atMost).trans (balanced_perm List.perm_append_comm))
      simpa [TcpInterfaceSocket.accept] using hh

/-- The calls close the socket of the event, and it is no longer registered. -/
structure Closes (k : Descriptors) (fd : Fd) (calls : List Syscall) : Prop where
  opened : (k.run calls).opened = k.opened.erase fd
  interest : ∀ d e, (k.run calls).interest d = some e → k.interest d = some e ∧ d ≠ fd

theorem interest_delete_event {d : Fd} {e : EpollEvent Fd}
    (h : (k.call (delete_event fd)).interest d = some e) : k.interest d = some e := by
  by_cases hd : d = fd
  · subst hd
    cases hk : k.interest d <;> simp [Descriptors.call, delete_event, epoll_ctl, hk] at h
  · cases hk : k.interest fd <;>
      simpa [Descriptors.call, delete_event, epoll_ctl, hk, hd] using h

theorem interest_close {d : Fd} {e : EpollEvent Fd}
    (h : (k.call (.close fd)).interest d = some e) : k.interest d = some e ∧ d ≠ fd := by
  by_cases hd : d = fd
  · subst hd
    simp [Descriptors.call] at h
  · exact ⟨by simpa [Descriptors.call, hd] using h, hd⟩

/-- A client is reset: the descriptor is closed before it is taken from the interest set. -/
theorem closes_reset (r : ReadResult) : Closes k fd [.read fd 512 r, .close fd, delete_event fd] :=
  ⟨rfl, fun _ _ h => interest_close (k := k) (interest_delete_event h)⟩

/-- A client has closed: the descriptor is taken from the interest set and closed. -/
theorem closes_terminated (r : ReadResult) {calls : List Syscall}
    (hc : calls = [.shutdown fd, .close fd] ∨ calls = [.shutdown fd, .shutdown fd, .close fd]) :
    Closes k fd (.read fd 512 r :: delete_event fd :: calls) := by
  have h : Closes k fd [delete_event fd, .close fd] :=
    ⟨rfl, fun _ _ h => ⟨interest_delete_event (interest_close h).1, (interest_close h).2⟩⟩
  rcases hc with rfl | rfl
  · exact ⟨h.opened, h.interest⟩
  · exact ⟨h.opened, h.interest⟩

theorem Closes.handling {calls : List Syscall} (h : Closes k fd calls) {t : TcpServerSocket}
    (hr : t.Ready) (hs : t.Listens = s.Listens) {clean : Prop}
    (hb : BooksOk t (k.run calls) ↔ clean) : Handling s k fd (t, calls) clean where
  ready := hr
  listens := hs
  books := hb
  kept d hd hne := by
    rw [h.opened]
    exact Finset.mem_erase_of_ne_of_mem hne hd
  interest d e he := .inl ⟨(h.interest d e he).1, fun hd => absurd hd (h.interest d e he).2⟩

/-- The socket is closed and its entry stays. -/
theorem Closes.not_booksOk {calls : List Syscall} (h : Closes k fd calls) (hb : BooksOk s k)
    (hf : fd ∈ k.opened) : ¬ BooksOk s (k.run calls) := by
  rw [booksOk_iff hb.devMax hb.ifcMax, h.opened, hb.balanced.close_iff]
  exact fun hn => hn hf

/-- The entry of the socket is found among those of the server. -/
theorem Closes.handling_dev {calls : List Syscall} (h : Closes k fd calls) (hs : s.Ready)
    (hb : BooksOk s k) {m : FdManager} (hm : s.pDevFdVec_ = some m) (hf : fd ∈ m.fdVec_)
    {clean : Prop} (hc : clean) :
    Handling s k fd
      ({ s with pDevFdVec_ := some { m with fdVec_ := m.fdVec_.erase fd } }, calls) clean := by
  have hdev : s.devFds = m.fdVec_ := by simp [TcpServerSocket.devFds, hm]
  obtain ⟨m', hm', hmax⟩ := hs.dev
  obtain rfl : m = m' := Option.some.inj (hm.symm.trans hm')
  have hlen := hb.devMax
  have hbal := hb.balanced.erase fd
  rw [hdev] at hlen hbal
  rw [List.erase_append_left _ hf] at hbal
  refine h.handling (s := s) (t := { s with
    pDevFdVec_ := some { m with fdVec_ := m.fdVec_.erase fd } })
    ⟨⟨_, rfl, hmax⟩, hs.ifc, hs.type⟩ rfl (iff_of_true ?_ hc)
  refine (booksOk_iff ?_ ?_).mpr ?_
  · exact Nat.le_trans List.length_erase_le hlen
  · exact hb.ifcMax
  · rw [h.opened]
    exact hbal

/-- It is found among those of the interface socket. -/
theorem Closes.handling_ifc {calls : List Syscall} (h : Closes k fd calls) (hs : s.Ready)
    (hb : BooksOk s k) {i : TcpInterfaceSocket} (hi : s.pInterfaceSocket = some i)
    (hf : fd ∈ i.pIfcFdVec_.fdVec_) {clean : Prop} (hc : clean) :
    Handling s k fd ({ s with pInterfaceSocket := some { i with
      pIfcFdVec_ := { i.pIfcFdVec_ with fdVec_ := i.pIfcFdVec_.fdVec_.erase fd } } }, calls)
      clean := by
  have hifc : s.ifcFds = i.pIfcFdVec_.fdVec_ := by simp [TcpServerSocket.ifcFds, hi]
  have hbal := hb.balanced
  have hnot : fd ∉ s.devFds := fun hd =>
    (List.nodup_append.mp hb.distinct).2.2 fd hd fd (hifc ▸ hf) rfl
  have hbal := hbal.erase fd
  rw [List.erase_append_right _ hnot, hifc] at hbal
  have htype : s.serverType ≠ .TCP_SERVER_TYPE_NONE_CONCURRENT := fun ht => by
    rw [hs.type ht] at hi
    cases hi
  refine h.handling (t := { s with pInterfaceSocket := some { i with
      pIfcFdVec_ := { i.pIfcFdVec_ with fdVec_ := i.pIfcFdVec_.fdVec_.erase fd } } })
    ⟨hs.dev, ?_, fun ht => absurd ht htype⟩ ?_ (iff_of_true ?_ hc)
  · rintro j ⟨⟩
    exact hs.ifc i hi
  · funext d
    simp [TcpServerSocket.Listens, hi]
  · refine (booksOk_iff ?_ ?_).mpr ?_
    · exact hb.devMax
    · rintro j ⟨⟩
      exact Nat.le_trans List.length_erase_le (hb.ifcMax i hi)
    · rw [h.opened]
      exact hbal

/-- Reading, where nothing is closed. -/
theorem handling_read (hs : s.Ready) (hb : BooksOk s k) (hf : fd ∈ k.opened) {clean : Prop}
    (hc : clean) : Handling s k fd (s, [.read fd 512 read]) clean :=
  handling_nothing hs hb (.inr hf) rfl hc

/-- A client is reset: its socket is closed and its entry stays. -/
theorem handling_reset (hs : s.Ready) (hb : BooksOk s k) (hf : fd ∈ k.opened) {clean : Prop}
    (hc : ¬ clean) :
    Handling s k fd (s, [.read fd 512 read, .close fd, delete_event fd]) clean :=
  have h := closes_reset read
  h.handling hs rfl (iff_of_false (h.not_booksOk hb hf) hc)

/-- A client of `NoneConcurrentThread` closes. -/
theorem handling_noneConcurrent (read : ReadResult) (hs : s.Ready) (hb : BooksOk s k)
    (hf : fd ∈ k.opened) (ht : s.serverType = .TCP_SERVER_TYPE_NONE_CONCURRENT) :
    Handling s k fd
      ((s.checkFd fd).2, [.read fd 512 read, delete_event fd, .shutdown fd, .close fd])
      (fd ≠ 0) := by
  obtain ⟨m, hm, -⟩ := hs.dev
  have h : Closes k fd [.read fd 512 read, delete_event fd, .shutdown fd, .close fd] :=
    closes_terminated read (.inl rfl)
  rcases Nat.eq_zero_or_pos fd with rfl | h0
  · rw [TcpServerSocket.checkFd_of_not hm fun hp => Nat.lt_irrefl 0 hp.2]
    exact h.handling hs rfl (iff_of_false (h.not_booksOk hb hf) fun hn => hn rfl)
  · have hmem : fd ∈ m.fdVec_ := by
      have hh := (hb.exact fd).mpr hf
      simpa [TcpServerSocket.devFds, TcpServerSocket.ifcFds, hm, hs.type ht] using hh
    rw [TcpServerSocket.checkFd_of_mem hm hmem h0]
    exact h.handling_dev hs hb hm hmem (Nat.ne_of_gt h0)

/-- A client of `ConcurrentThread` closes; one on descriptor 0 is only taken from the interest
set. -/
theorem handling_concurrent (hs : s.Ready) (hb : BooksOk s k) (hf : fd ∈ k.opened) {clean : Prop}
    (hc : clean) :
    Handling s k fd
      ((s.terminated fd).1, .read fd 512 read :: delete_event fd :: (s.terminated fd).2)
      clean := by
  obtain ⟨m, hm, -⟩ := hs.dev
  rcases Nat.eq_zero_or_pos fd with rfl | h0
  · rw [TcpServerSocket.terminated_zero hm]
    constructor
    case ready => exact hs
    case listens => rfl
    case books => exact iff_of_true ⟨hb.distinct, hb.devMax, hb.ifcMax, hb.exact⟩ hc
    case kept => exact fun d hd _ => hd
    case interest =>
        exact fun d e he => .inl ⟨interest_delete_event he, fun hd => .inr (hd ▸ hf)⟩
  · by_cases hd : fd ∈ m.fdVec_
    · rw [TcpServerSocket.terminated_of_dev hm hd h0]
      exact (closes_terminated read (.inl rfl)).handling_dev hs hb hm hd hc
    · have hmem := (hb.exact fd).mpr hf
      have hnd := (List.nodup_append.mp hb.distinct).2.1
      rw [TcpServerSocket.devFds, hm, List.mem_append] at hmem
      replace hmem := hmem.resolve_left hd
      cases hi : s.pInterfaceSocket with
      | none =>
          rw [TcpServerSocket.ifcFds, hi] at hmem
          cases hmem
      | some i =>
          rw [TcpServerSocket.ifcFds, hi] at hmem hnd
          rw [TcpServerSocket.terminated_of_ifc hm hd hi hmem hnd h0]
          exact (closes_terminated read (.inr rfl)).handling_ifc hs hb hi hmem hc

/-- The event of a client in both threads, which differ in what they do when it has closed. -/
theorem handling_client {r closing : TcpServerSocket × List Syscall}
    (hr : r = match read with
      | .failed e =>
          if e = .ECONNRESET then (s, [.read fd 512 read, .close fd, delete_event fd])
          else (s, [.read fd 512 read])
      | .count 0 => closing
      | .count (_ + 1) => (s, [.read fd 512 read]))
    (hs : s.Ready) (hb : BooksOk s k) (ho : fd ∈ k.opened) {clean : Prop}
    (hreset : read = .failed .ECONNRESET → ¬ clean)
    (hclosed : read = .count 0 → Handling s k fd closing clean)
    (hother : read ≠ .failed .ECONNRESET → read ≠ .count 0 → clean) :
    Handling s k fd r clean := by
  subst hr
  cases read with
  | failed e =>
      dsimp only
      split
      · next h => exact handling_reset hs hb ho (hreset (congrArg _ h))
      · next h =>
        exact handling_read hs hb ho (hother (fun hr => h (ReadResult.failed.inj hr)) nofun)
  | count n =>
      cases n with
      | zero => exact hclosed rfl
      | succ n => exact handling_read hs hb ho (hother nofun nofun)

/-! ### Steps -/

theorem noneConcurrentEvent_handling (hs : s.Ready) (hb : BooksOk s k)
    (hf : s.Listens fd ∨ fd ∈ k.opened) (ha : ∀ c, accepted = some c → c ∉ k.opened)
    (ht : s.serverType = .TCP_SERVER_TYPE_NONE_CONCURRENT) :
    Handling s k fd (s.noneConcurrentEvent fd revents accepted read)
      (s.CleanEvent fd revents accepted read) := by
  have hi := hs.type ht
  unfold TcpServerSocket.noneConcurrentEvent TcpServerSocket.CleanEvent
  split
  · next hfd =>
    have h := accept_handling hs hb (.inl hfd) ha (s.accept accepted).2.1.connFd
    cases hr : (s.accept accepted).1 with
    | none => simpa [hr] using h
    | some c => simpa [hr] using h
  · next hfd =>
    have hifc : ¬ some fd = s.pInterfaceSocket.bind (·.socketFd) := by
      rw [hi]
      exact nofun
    rw [if_neg hifc]
    have ho : fd ∈ k.opened := hf.resolve_left fun hl => hl.elim hfd hifc
    split
    · next he =>
      apply handling_client rfl hs hb ho
      · exact fun hr hc => (hc he).1 hr
      · rintro rfl
        have h := handling_noneConcurrent (.count 0) hs hb ho ht
        simpa [he, ht] using h
      · exact fun hr h0 _ => ⟨hr, fun _ hz => absurd hz h0⟩
    · next he => exact handling_nothing hs hb (.inr ho) rfl fun h => absurd h he

theorem concurrentEvent_handling (hs : s.Ready) (hb : BooksOk s k)
    (hf : s.Listens fd ∨ fd ∈ k.opened) (ha : ∀ c, accepted = some c → c ∉ k.opened)
    (ht : s.serverType = .TCP_SERVER_TYPE_CONCURRENT) :
    Handling s k fd (s.concurrentEvent fd revents accepted read)
      (s.CleanEvent fd revents accepted read) := by
  unfold TcpServerSocket.concurrentEvent TcpServerSocket.CleanEvent
  split
  · next hfd =>
    have h := accept_handling hs hb (.inl hfd) ha none
    cases hr : (s.accept accepted).1 with
    | none => simpa [hr] using h
    | some c => simpa [hr] using h
  · next hfd =>
    split
    · next hifc =>
      cases hi : s.pInterfaceSocket with
      | none =>
          rw [hi] at hifc
          cases hifc
      | some i =>
          have h := ifcAccept_handling hi hs hb (.inr hifc) ha
          cases hr : (i.accept accepted).1 with
          | none => simpa [hr, hi] using h
          | some c => simpa [hr, hi] using h
    · next hifc =>
      have ho : fd ∈ k.opened := hf.resolve_left fun hl => hl.elim hfd hifc
      split
      · next he =>
        apply handling_client rfl hs hb ho
        · exact fun hr hc => (hc he).1 hr
        · rintro rfl
          exact handling_concurrent hs hb ho fun _ => ⟨nofun, by simp [ht]⟩
        · exact fun hr h0 _ => ⟨hr, fun _ hz => absurd hz h0⟩
      · next he => exact handling_nothing hs hb (.inr ho) rfl fun h => absurd h he

/-- **One event**: the books are right after it exactly when it is clean. -/
theorem event_handling (hs : s.Ready) (hb : BooksOk s k) (hf : s.Listens fd ∨ fd ∈ k.opened)
    (ha : ∀ c, accepted = some c → c ∉ k.opened) :
    Handling s k fd (s.event fd revents accepted read)
      (s.CleanEvent fd revents accepted read) := by
  unfold TcpServerSocket.event
  cases ht : s.serverType with
  | TCP_SERVER_TYPE_CONCURRENT => exact concurrentEvent_handling hs hb hf ha ht
  | TCP_SERVER_TYPE_NONE_CONCURRENT => exact noneConcurrentEvent_handling hs hb hf ha ht

namespace SocketThread

/-- What is registered with epoll, and what is reported by it, is a listening socket or an
accepted one that is open; each is reported once. -/
structure Watched (s : SocketThread) : Prop where
  interest : ∀ fd e, s.kernel.interest fd = some e →
    e.ptr = fd ∧ (s.socket.Listens fd ∨ fd ∈ s.kernel.opened)
  events : ∀ r ∈ s.events, s.socket.Listens r.1 ∨ r.1 ∈ s.kernel.opened
  nodup : (s.events.map Prod.fst).Nodup

/-- The invariant of the thread. -/
structure Kept (s : SocketThread) : Prop where
  ready : s.socket.Ready
  books : BooksOk s.socket s.kernel
  watched : s.Watched

variable {s t : SocketThread} {a : SocketAction}

theorem Watched.harvest (h : s.Watched) {report : List (Fd × Mask)}
    (hr : ValidReport s.kernel.interest report) :
    Watched { s with events := s.kernel.harvest report } where
  interest := h.interest
  events := by
    rw [Descriptors.harvest_eq (fun fd e he => (h.interest fd e he).1) hr]
    intro r hm
    obtain ⟨e, he, -⟩ := hr.2 r hm
    exact (h.interest r.1 e he).2
  nodup := by
    rw [Descriptors.harvest_eq (fun fd e he => (h.interest fd e he).1) hr]
    exact hr.1

/-- **One step**: the books are right after it exactly when it is clean, and then the rest of the
invariant is kept. -/
theorem Kept.step (h : s.Kept) (hs : SocketStep s a t) :
    (BooksOk t.socket t.kernel ↔ s.Clean a) ∧ (s.Clean a → t.Kept) := by
  unfold SocketStep act at hs
  cases a with
  | epoll_wait report =>
      dsimp only at hs
      split at hs
      · next hr =>
        cases hs
        exact ⟨iff_of_true h.books trivial, fun _ => ⟨h.ready, h.books, h.watched.harvest hr.2.1⟩⟩
      · cases hs
  | event accepted read =>
      dsimp only at hs
      split at hs
      · cases hs
      · next fd revents rest he =>
        split at hs
        · next hc =>
          cases hs
          have hf := h.watched.events (fd, revents) (by simp [he])
          have hh : Handling s.socket s.kernel fd (s.socket.event fd revents accepted read)
              (s.socket.CleanEvent fd revents accepted read) :=
            event_handling h.ready h.books hf fun c hac => (hc.1 c hac).1
          have hclean : s.Clean (.event accepted read) ↔
              s.socket.CleanEvent fd revents accepted read := by
            simp [SocketThread.Clean, he]
          have hnd := h.watched.nodup
          rw [he, List.map_cons, List.nodup_cons] at hnd
          rw [hclean]
          refine ⟨hh.books, fun hcl => ⟨hh.ready, hh.books.mpr hcl, ?_, ?_, hnd.2⟩⟩
          · intro d e hd
            rw [hh.listens]
            rcases hh.interest d e hd with ⟨hk, hself⟩ | ⟨hp, ho⟩
            · obtain ⟨hp, ho⟩ := h.watched.interest d e hk
              refine ⟨hp, ?_⟩
              by_cases hdf : d = fd
              · exact hself hdf
              · exact ho.imp_right fun ho => hh.kept d ho hdf
            · exact ⟨hp, .inr ho⟩
          · intro r hr
            have hne : r.1 ≠ fd := by
              intro hrf
              have hr : r ∈ rest := hr
              have hm : r.1 ∈ rest.map Prod.fst := List.mem_map_of_mem hr
              rw [hrf] at hm
              exact hnd.1 hm
            have := h.watched.events r (by rw [he]; exact List.mem_cons_of_mem _ hr)
            rw [hh.listens]
            exact this.imp_right fun ho => hh.kept r.1 ho hne
        · cases hs

/-! ### Runs -/

/-- The beginning of the threads, up to their loop: `Open` has given the sockets their
descriptors, and they are registered. -/
def start (s : TcpServerSocket) (socketFd ifcFd : Fd) : SocketThread where
  socket := { s with
    socketFd := some socketFd
    pInterfaceSocket := s.pInterfaceSocket.map fun i => { i with socketFd := some ifcFd } }
  kernel := Descriptors.run {} (match s.serverType with
    | .TCP_SERVER_TYPE_CONCURRENT => [add_event socketFd, add_event ifcFd]
    | .TCP_SERVER_TYPE_NONE_CONCURRENT => [add_event socketFd])

theorem kept_start {n : ℤ} {type : TcpServerType}
    (hn : ¬ (n > 1 ∧ type = .TCP_SERVER_TYPE_CONCURRENT)) (socketFd ifcFd : Fd) :
    (start (TcpServerSocket.new n type).2 socketFd ifcFd).Kept := by
  unfold TcpServerSocket.new
  rw [if_neg hn]
  cases type with
  | TCP_SERVER_TYPE_CONCURRENT =>
      refine ⟨⟨⟨_, rfl, rfl⟩, ?_, nofun⟩, ⟨.nil, Nat.zero_le _, ?_, ?_⟩, ?_, nofun, .nil⟩
      · rintro i ⟨⟩
        rfl
      · rintro i ⟨⟩
        exact Nat.zero_le _
      · exact fun fd => iff_of_false List.not_mem_nil (Finset.notMem_empty fd)
      · intro fd e he
        rcases interest_add_event he with he | ⟨rfl, hp⟩
        · rcases interest_add_event he with he | ⟨rfl, hp⟩
          · cases he
          · exact ⟨hp, .inl (.inl rfl)⟩
        · exact ⟨hp, .inl (.inr rfl)⟩
  | TCP_SERVER_TYPE_NONE_CONCURRENT =>
      refine ⟨⟨⟨_, rfl, rfl⟩, nofun, fun _ => rfl⟩, ⟨.nil, Nat.zero_le _, nofun, ?_⟩, ?_, nofun,
        .nil⟩
      · exact fun fd => iff_of_false List.not_mem_nil (Finset.notMem_empty fd)
      · intro fd e he
        rcases interest_add_event he with he | ⟨rfl, hp⟩
        · cases he
        · exact ⟨hp, .inl (.inl rfl)⟩

end SocketThread

/-- **The books of both threads**, of a server that the constructor has initialised: they are right
in every state that is reached by clean steps, at the head of the loop as between two events.  The
condition is exact: the runs whose steps are clean are those in which the books are right after
every step. -/
theorem fdBooks_iff {n : ℤ} {type : TcpServerType}
    (hn : ¬ (n > 1 ∧ type = .TCP_SERVER_TYPE_CONCURRENT)) (socketFd ifcFd : Fd)
    (ls : List SocketAction) (t : SocketThread) :
    (RunWith SocketStep (fun s a _ => s.Clean a)
        (SocketThread.start (TcpServerSocket.new n type).2 socketFd ifcFd) ls t →
      BooksOk t.socket t.kernel) ∧
    (RunWith SocketStep (fun _ _ t => BooksOk t.socket t.kernel)
        (SocketThread.start (TcpServerSocket.new n type).2 socketFd ifcFd) ls t ↔
      RunWith SocketStep (fun s a _ => s.Clean a)
        (SocketThread.start (TcpServerSocket.new n type).2 socketFd ifcFd) ls t) := by
  have hinit := SocketThread.kept_start hn socketFd ifcFd
  have hkeep : ∀ (s : SocketThread) a t, s.Kept → SocketStep s a t → s.Clean a → t.Kept :=
    fun s a t h hs hc => (h.step hs).2 hc
  constructor
  · intro h
    exact (RunWith.invariant hkeep h hinit).books
  · exact runWith_iff hkeep (fun s a t h hs => (h.step hs).1) hinit

/-- `ConcurrentThread` accepts a client of the server and one of the interface socket, and the
first one closes. -/
theorem fdBooks_iff_example :
    ∃ t : SocketThread, t.AtHead ∧ t.socket.devFds = [] ∧ t.socket.ifcFds = [8] ∧
      BooksOk t.socket t.kernel := by
  obtain ⟨t, run, hh, hd, hi⟩ := exists_runWith SocketThread.act SocketThread.Clean
    (fun t => t.AtHead ∧ t.socket.devFds = [] ∧ t.socket.ifcFds = [8])
    (SocketThread.start (TcpServerSocket.new 0 .TCP_SERVER_TYPE_CONCURRENT).2 3 4)
    [.epoll_wait [(3, EPOLLIN), (4, EPOLLIN)], .event (some 7) (.count 0),
      .event (some 8) (.count 0), .epoll_wait [(7, EPOLLIN)], .event none (.count 0)]
    (by decide +kernel)
  exact ⟨t, hh, hd, hi,
    (fdBooks_iff (by decide) 3 4 _ t).1 run⟩

/-- `NoneConcurrentThread` accepts a client, which resets the connection: its entry stays, and
the next client is refused, although nobody is there. -/
theorem not_fdBooks :
    ∃ t : SocketThread, Run SocketStep
        (SocketThread.start (TcpServerSocket.new 0 .TCP_SERVER_TYPE_NONE_CONCURRENT).2 3 4)
        [.epoll_wait [(3, EPOLLIN)], .event (some 5) (.count 0), .epoll_wait [(5, EPOLLIN)],
          .event none (.failed .ECONNRESET)] t ∧
      t.AtHead ∧ ¬ BooksOk t.socket t.kernel := by
  obtain ⟨t, run, hh, hd, ho⟩ := exists_run SocketThread.act
    (fun t => t.AtHead ∧ 5 ∈ t.socket.devFds ∧ 5 ∉ t.kernel.opened)
    (SocketThread.start (TcpServerSocket.new 0 .TCP_SERVER_TYPE_NONE_CONCURRENT).2 3 4)
    [.epoll_wait [(3, EPOLLIN)], .event (some 5) (.count 0), .epoll_wait [(5, EPOLLIN)],
      .event none (.failed .ECONNRESET)]
    (by decide +kernel)
  exact ⟨t, run, hh, fun h => ho ((h.exact 5).mp (List.mem_append_left _ hd))⟩

end NetworkStructure
