import NetworkStructure.MyServer

/-! # Several servers in one process

`MyServer::onConnection` remembers in a static variable that the host has been chosen.  A static
variable belongs to the process and not to the object: all servers of a process share it, while
each has its own `hostPtr_`.  Here any number of them run on the connection events of each other;
a server is compared with itself in a process of its own.

The first server that admits a connection takes the flag, and gets its host; every other server
that admits one has none for good.  So the servers are isolated exactly in the histories in which
connections come up on one of them only (`isolated_iff`). -/

namespace NetworkStructure

/-- The servers of a process and the static variable. -/
structure MyServers (ι : Type*) where
  servers : ι → MyServer
  flag : Bool := true

/-- The connection callback of a server: the connection it is called for, and the connections
as they are then. -/
structure ServerEvent (ι : Type*) where
  server : ι
  conn : ConnId
  conns : ConnId → TcpConnection

def ServerEvent.isUp {ι : Type*} (e : ServerEvent ι) : Bool := (e.conns e.conn).connected

namespace MyServers

variable {ι : Type*} [DecidableEq ι]

/-- `onConnection` of the server, with the flag of the process. -/
def onConnection (s : MyServers ι) (e : ServerEvent ι) : MyServers ι :=
  let r := MyServer.onConnection e.conn { s.servers e.server with flag := s.flag } e.conns
  { servers := Function.update s.servers e.server r.1, flag := r.1.flag }

def run (s : MyServers ι) (events : List (ServerEvent ι)) : MyServers ι :=
  events.foldl onConnection s

/-- The servers are constructed with these limits. -/
def start (kMaxConnections_ : ι → ℤ) : MyServers ι where
  servers i := { kMaxConnections_ := kMaxConnections_ i }

/-- The host of the server is the first connection that it has admitted, as it is when the server
runs on its own events alone. -/
def Isolated (kMaxConnections_ : ι → ℤ) (events : List (ServerEvent ι)) (i : ι) : Prop :=
  let s := ((start kMaxConnections_).run events).servers i
  let alone := ((start kMaxConnections_).run (events.filter (·.server = i))).servers i
  s.hostPtr_ = s.admitted.head? ∧ s.hostPtr_ = alone.hostPtr_

variable {s t : MyServers ι} {e : ServerEvent ι} {i : ι} {events : List (ServerEvent ι)}
  {k : ι → ℤ}

theorem run_append_one : s.run (events ++ [e]) = (s.run events).onConnection e := by
  unfold run
  rw [List.foldl_append]
  rfl

/-! ### One event -/

/-- The other servers see nothing of it but the flag. -/
theorem onConnection_other (h : i ≠ e.server) : (s.onConnection e).servers i = s.servers i :=
  Function.update_of_ne h ..

theorem onConnection_self : (s.onConnection e).servers e.server =
    (MyServer.onConnection e.conn { s.servers e.server with flag := s.flag } e.conns).1 :=
  Function.update_self ..

/-- The count, the limit and the connections admitted, on which the flag has no influence. -/
def books (s : MyServers ι) (i : ι) : ℤ × ℤ × List ConnId :=
  ((s.servers i).numConnected_, (s.servers i).kMaxConnections_, (s.servers i).admitted)

theorem onConnection_down (h : e.isUp = false) :
    (s.onConnection e).servers e.server = MyServer.down { s.servers e.server with flag := s.flag } ∧
      (s.onConnection e).flag = s.flag := by
  have hn : ¬ (e.conns e.conn).connected = true := by
    rw [show (e.conns e.conn).connected = false from h]
    exact Bool.false_ne_true
  refine ⟨?_, ?_⟩
  · rw [onConnection_self, MyServer.onConnection, if_neg hn]
  · unfold onConnection MyServer.onConnection
    rw [if_neg hn]
    rfl

theorem onConnection_up (h : e.isUp = true) :
    ∃ connected, (s.onConnection e).servers e.server =
        MyServer.up { s.servers e.server with flag := s.flag } e.conn connected ∧
      (s.onConnection e).flag =
        (MyServer.up { s.servers e.server with flag := s.flag } e.conn connected).flag := by
  have hc : (e.conns e.conn).connected = true := h
  refine ⟨(s.servers e.server).admitted.filter fun d => (e.conns d).connected, ?_, ?_⟩
  · rw [onConnection_self, MyServer.onConnection, if_pos hc]
  · unfold onConnection MyServer.onConnection
    rw [if_pos hc]

theorem books_onConnection (s : MyServers ι) (e : ServerEvent ι) :
    (s.onConnection e).books e.server =
      if e.isUp = true then
        ((s.servers e.server).numConnected_ + 1, (s.servers e.server).kMaxConnections_,
          if (s.servers e.server).numConnected_ + 1 > (s.servers e.server).kMaxConnections_
          then (s.servers e.server).admitted else (s.servers e.server).admitted ++ [e.conn])
      else
        ((s.servers e.server).numConnected_ - 1, (s.servers e.server).kMaxConnections_,
          (s.servers e.server).admitted) := by
  unfold books
  split
  · next h =>
    obtain ⟨connected, hs, -⟩ := onConnection_up (s := s) h
    rw [hs, MyServer.up_numConnected_, MyServer.up_kMaxConnections_, MyServer.up_admitted]
  · next h =>
    rw [(onConnection_down (s := s) (Bool.eq_false_iff.mpr h)).1]
    rfl

/-- What a server admits depends on its own events alone. -/
theorem books_run_filter (s : MyServers ι) (events : List (ServerEvent ι)) (i : ι) :
    (s.run events).books i = (s.run (events.filter (·.server = i))).books i := by
  induction events using List.reverseRecOn with
  | nil => rfl
  | append_singleton events e ih =>
      rw [List.filter_append, run_append_one]
      by_cases h : e.server = i
      · subst h
        rw [List.filter_cons_of_pos (by simp), List.filter_nil, run_append_one,
          books_onConnection, books_onConnection]
        unfold books at ih
        simp only [Prod.mk.injEq] at ih
        rw [ih.1, ih.2.1, ih.2.2]
      · have hother := onConnection_other (s := s.run events) (fun hi : i = e.server => h hi.symm)
        rw [List.filter_cons_of_neg (by simpa using h), List.filter_nil, List.append_nil, ← ih]
        unfold books
        rw [hother]

/-! ### Who has the flag -/

/-- What the servers have done after the events: the flag is set until the first connection
comes up on one of them, which is its host, and no other server ever has one. -/
structure Shared (k : ι → ℤ) (events : List (ServerEvent ι)) (s : MyServers ι) : Prop where
  limit : ∀ i, (s.servers i).kMaxConnections_ = k i
  idle : ∀ i, (s.servers i).admitted = [] ↔ ∀ e ∈ events, e.isUp = true → e.server ≠ i
  count : ∀ i, (s.servers i).admitted = [] → (s.servers i).numConnected_ ≤ 0
  unused : s.flag = true → ∀ i, (s.servers i).admitted = [] ∧ (s.servers i).hostPtr_ = none
  taken : s.flag = false → ∃ h, (s.servers h).admitted ≠ [] ∧
    (s.servers h).hostPtr_ = (s.servers h).admitted.head? ∧
    ∀ i, i ≠ h → (s.servers i).hostPtr_ = none

omit [DecidableEq ι] in
theorem shared_start : Shared k [] (start k) where
  limit _ := rfl
  idle _ := iff_of_true rfl fun _ he => absurd he List.not_mem_nil
  count _ _ := Int.le_refl 0
  unused _ _ := ⟨rfl, rfl⟩
  taken h := Bool.noConfusion (show true = false from h)

/-- What a server has admitted, whichever event comes. -/
theorem Shared.idle_step (h : Shared k events s) (hk : ∀ i, 1 ≤ k i) (i : ι) :
    (((s.onConnection e).servers i).kMaxConnections_ = k i) ∧
    (((s.onConnection e).servers i).admitted = [] ↔
      ∀ e' ∈ events ++ [e], e'.isUp = true → e'.server ≠ i) ∧
    (((s.onConnection e).servers i).admitted = [] →
      ((s.onConnection e).servers i).numConnected_ ≤ 0) := by
  have hsplit : (∀ e' ∈ events ++ [e], e'.isUp = true → e'.server ≠ i) ↔
      (s.servers i).admitted = [] ∧ (e.isUp = true → e.server ≠ i) := by
    rw [h.idle i, List.forall_mem_append, List.forall_mem_singleton]
  rw [hsplit]
  by_cases hi : i = e.server
  · subst hi
    have hb := books_onConnection s e
    have hlim := h.limit e.server
    have hk := hk e.server
    have hcount := h.count e.server
    unfold books at hb
    split at hb
    · next hup =>
      simp only [Prod.mk.injEq] at hb
      obtain ⟨-, hmax, hadm⟩ := hb
      have hne : ((s.onConnection e).servers e.server).admitted ≠ [] := by
        rw [hadm]
        split
        · next hfull =>
          intro hnil
          have := hcount hnil
          omega
        · exact List.append_ne_nil_of_right_ne_nil _ (List.cons_ne_nil _ _)
      exact ⟨hmax.trans hlim, iff_of_false hne fun hn => hn.2 hup rfl, fun hn => absurd hn hne⟩
    · next hup =>
      simp only [Prod.mk.injEq] at hb
      obtain ⟨hnum, hmax, hadm⟩ := hb
      rw [hnum, hmax, hadm]
      refine ⟨hlim, ⟨fun hn => ⟨hn, fun hu => absurd hu hup⟩, And.left⟩, fun hn => ?_⟩
      have := hcount hn
      omega
  · rw [onConnection_other hi]
    exact ⟨h.limit i, ⟨fun hn => ⟨hn, fun _ he => hi he.symm⟩, And.left⟩, h.count i⟩

/-- The flag, the hosts and the connections admitted stay, or a connection is admitted. -/
theorem onConnection_cases (s : MyServers ι) (e : ServerEvent ι) :
    ((s.onConnection e).flag = s.flag ∧ ∀ i,
      ((s.onConnection e).servers i).admitted = (s.servers i).admitted ∧
      ((s.onConnection e).servers i).hostPtr_ = (s.servers i).hostPtr_) ∨
    ((s.onConnection e).flag = false ∧
      ((s.onConnection e).servers e.server).admitted =
        (s.servers e.server).admitted ++ [e.conn] ∧
      ((s.onConnection e).servers e.server).hostPtr_ =
        if s.flag then some e.conn else (s.servers e.server).hostPtr_) := by
  have hsame : ∀ i, (i = e.server →
      ((s.onConnection e).servers e.server).admitted = (s.servers e.server).admitted ∧
      ((s.onConnection e).servers e.server).hostPtr_ = (s.servers e.server).hostPtr_) →
      ((s.onConnection e).servers i).admitted = (s.servers i).admitted ∧
      ((s.onConnection e).servers i).hostPtr_ = (s.servers i).hostPtr_ := by
    intro i h
    by_cases hi : i = e.server
    · subst hi
      exact h rfl
    · rw [onConnection_other hi]
      exact ⟨rfl, rfl⟩
  by_cases hup : e.isUp = true
  · obtain ⟨connected, hs, hf⟩ := onConnection_up (s := s) hup
    rw [MyServer.up_flag] at hf
    rw [hs, MyServer.up_admitted, MyServer.up_hostPtr_]
    by_cases hfull : (s.servers e.server).numConnected_ + 1 >
        (s.servers e.server).kMaxConnections_
    · refine .inl ⟨hf.trans (if_pos hfull), fun i => hsame i fun _ => ?_⟩
      rw [hs, MyServer.up_admitted, MyServer.up_hostPtr_, if_pos hfull, if_pos hfull]
      exact ⟨rfl, rfl⟩
    · exact .inr ⟨hf.trans (if_neg hfull), if_neg hfull, if_neg hfull⟩
  · obtain ⟨hs, hf⟩ := onConnection_down (s := s) (Bool.eq_false_iff.mpr hup)
    refine .inl ⟨hf, fun i => hsame i fun _ => ?_⟩
    rw [hs]
    exact ⟨rfl, rfl⟩

/-- The flag, whichever event comes. -/
theorem Shared.flag_step (h : Shared k events s) :
    ((s.onConnection e).flag = true → ∀ i, ((s.onConnection e).servers i).admitted = [] ∧
      ((s.onConnection e).servers i).hostPtr_ = none) ∧
    ((s.onConnection e).flag = false → ∃ j, ((s.onConnection e).servers j).admitted ≠ [] ∧
      ((s.onConnection e).servers j).hostPtr_ = ((s.onConnection e).servers j).admitted.head? ∧
      ∀ i, i ≠ j → ((s.onConnection e).servers i).hostPtr_ = none) := by
  rcases onConnection_cases s e with ⟨hf, hsame⟩ | ⟨hf, hadm, hhost⟩
  · simp only [hf, fun i => (hsame i).1, fun i => (hsame i).2]
    exact ⟨h.unused, h.taken⟩
  · rw [hf]
    refine ⟨Bool.noConfusion, fun _ => ?_⟩
    cases hs : s.flag with
    | true =>
        -- the first connection of all: its server gets the host
        rw [(h.unused hs _).1, List.nil_append] at hadm
        rw [hs, if_pos rfl] at hhost
        refine ⟨e.server, ?_, ?_, fun i hi => ?_⟩
        · rw [hadm]
          exact List.cons_ne_nil _ _
        · rw [hadm, hhost]
          rfl
        · rw [onConnection_other hi]
          exact (h.unused hs i).2
    | false =>
        rw [hs, if_neg Bool.false_ne_true] at hhost
        obtain ⟨j, hne, hj, hothers⟩ := h.taken hs
        refine ⟨j, ?_, ?_, fun i hi => ?_⟩
        · by_cases hje : j = e.server
          · rw [hje, hadm]
            exact List.append_ne_nil_of_right_ne_nil _ (List.cons_ne_nil _ _)
          · rwa [onConnection_other hje]
        · by_cases hje : j = e.server
          · subst hje
            rw [hadm, hhost, hj, List.head?_append_of_ne_nil _ hne]
          · rwa [onConnection_other hje]
        · by_cases hie : i = e.server
          · subst hie
            rw [hhost]
            exact hothers _ hi
          · rw [onConnection_other hie]
            exact hothers i hi

theorem Shared.onConnection (h : Shared k events s) (hk : ∀ i, 1 ≤ k i) :
    Shared k (events ++ [e]) (s.onConnection e) where
  limit i := (h.idle_step hk i).1
  idle i := (h.idle_step hk i).2.1
  count i := (h.idle_step hk i).2.2
  unused := h.flag_step.1
  taken := h.flag_step.2

theorem shared_run (hk : ∀ i, 1 ≤ k i) (events : List (ServerEvent ι)) :
    Shared k events ((start k).run events) := by
  induction events using List.reverseRecOn with
  | nil => exact shared_start
  | append_singleton events e ih =>
      rw [run_append_one]
      exact ih.onConnection hk

/-- All servers have the host that they should have exactly when only one has admitted
connections. -/
theorem Shared.hosts_iff (h : Shared k events s) :
    (∀ i, (s.servers i).hostPtr_ = (s.servers i).admitted.head?) ↔
      ∀ e ∈ events, ∀ e' ∈ events, e.isUp = true → e'.isUp = true → e.server = e'.server := by
  have hadmits : ∀ e ∈ events, e.isUp = true → (s.servers e.server).admitted ≠ [] :=
    fun e he hu hn => (h.idle e.server).mp hn e he hu rfl
  cases hf : s.flag with
  | true =>
      refine iff_of_true (fun i => ?_) fun e he _ _ hu _ => ?_
      · rw [(h.unused hf i).1, (h.unused hf i).2]
        rfl
      · exact absurd (h.unused hf e.server).1 (hadmits e he hu)
  | false =>
      obtain ⟨j, hne, hj, hothers⟩ := h.taken hf
      constructor
      · intro hall
        have heq : ∀ e ∈ events, e.isUp = true → e.server = j := by
          intro e he hu
          by_contra hn
          have hnone := (hall e.server).symm.trans (hothers e.server hn)
          exact hadmits e he hu (List.head?_eq_none_iff.mp hnone)
        intro e he e' he' hu hu'
        rw [heq e he hu, heq e' he' hu']
      · intro hone i
        by_cases hi : i = j
        · rw [hi, hj]
        · rw [hothers i hi, eq_comm, List.head?_eq_none_iff, h.idle i]
          -- the server that has admitted a connection has had an event
          obtain ⟨e, he⟩ := not_forall.mp fun hn => hne ((h.idle j).mpr hn)
          simp only [not_forall, ne_eq, not_not] at he
          obtain ⟨he, hu, hej⟩ := he
          intro e' he' hu' he'i
          exact hi (he'i.symm.trans ((hone e' he' e he hu' hu).trans hej))

end MyServers

open MyServers

variable {ι : Type*} [DecidableEq ι]

/-- **The servers of a process are isolated**, each with the first connection that it admitted as
its host, as when it runs alone, exactly when connections come up on one of them only. -/
theorem isolated_iff (k : ι → ℤ) (hk : ∀ i, 1 ≤ k i) (events : List (ServerEvent ι)) :
    (∀ i, Isolated k events i) ↔
      ∀ e ∈ events, ∀ e' ∈ events, e.isUp = true → e'.isUp = true → e.server = e'.server := by
  rw [← (shared_run hk events).hosts_iff]
  refine ⟨fun h i => (h i).1, fun h i => ⟨h i, ?_⟩⟩
  have halone := (shared_run hk (events.filter (·.server = i))).hosts_iff.mpr (by
    intro e he e' he' _ _
    have h1 := of_decide_eq_true (List.mem_filter.mp he).2
    have h2 := of_decide_eq_true (List.mem_filter.mp he').2
    rw [h1, h2])
  have hbooks := books_run_filter (start k) events i
  unfold books at hbooks
  simp only [Prod.mk.injEq] at hbooks
  rw [h i, halone i, hbooks.2.2]

/-- The connection callback of the server, called for connection 0 that is up. -/
def upEvent (i : ι) : ServerEvent ι where
  server := i
  conn := 0
  conns _ := { TcpConnection.new [] 0 false [] with state_ := .kConnected }

/-- Of two servers one is used. -/
theorem isolated_iff_example : Isolated (fun _ : Bool => 1) [upEvent true, upEvent true] true ∧
    Isolated (fun _ : Bool => 1) [upEvent true, upEvent true] false := by
  have h := (isolated_iff (fun _ : Bool => 1) (fun _ => by decide)
    [upEvent true, upEvent true]).mpr (by decide)
  exact ⟨h true, h false⟩

/-- Both are used: the second one has admitted a connection and has no host. -/
theorem not_isolated :
    let s := ((start fun _ : Bool => 1).run [upEvent true, upEvent false]).servers false
    ¬ Isolated (fun _ : Bool => 1) [upEvent true, upEvent false] false ∧
      s.admitted = [0] ∧ s.hostPtr_ = none := by
  unfold Isolated
  decide +kernel

end NetworkStructure
