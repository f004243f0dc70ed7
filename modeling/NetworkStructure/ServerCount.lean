import NetworkStructure.Run
import NetworkStructure.TcpServerSocket

/-! # How many concurrent servers there are

`TcpServerSocket.cpp` counts the servers of type `TCP_SERVER_TYPE_CONCURRENT` in a static
variable.  The constructor refuses to initialise one when there are too many, and says that the
system supports one; the destructor decrements the counter and keeps it from becoming negative.

The constructor tests `numOfConcurrentServer > 1` before it increments, so that it initialises a
second server; and the destructor counts down for an object that was refused as well.  While at
most one server is wanted at a time neither is seen, and the accounts are right; they are wrong
as soon as a server is constructed beside another (`concurrentServers_iff`). -/

namespace NetworkStructure

namespace TcpServerSocket

/-- What the destructor does to `numOfConcurrentServer`. -/
def delete (numOfConcurrentServer : ℤ) (s : TcpServerSocket) : ℤ :=
  match s.serverType with
  | .TCP_SERVER_TYPE_CONCURRENT =>
      if numOfConcurrentServer - 1 < 0 then 0 else numOfConcurrentServer - 1
  | .TCP_SERVER_TYPE_NONE_CONCURRENT => numOfConcurrentServer

def isConcurrent (s : TcpServerSocket) : Bool := s.serverType = .TCP_SERVER_TYPE_CONCURRENT

/-- The constructor has got to its end, where it makes the manager. -/
def initialised (s : TcpServerSocket) : Bool := s.pDevFdVec_.isSome

end TcpServerSocket

/-- The static counter and the objects that are alive, the last one constructed first. -/
structure ServerObjects where
  numOfConcurrentServer : ℤ := 0
  alive : List TcpServerSocket := []

inductive ObjectAction where
  | construct (type : TcpServerType)
  | destroy (i : ℕ)
deriving DecidableEq, Repr

namespace ServerObjects

/-- A construction, or the destruction of an object that is alive. -/
def act (s : ServerObjects) : ObjectAction → Option ServerObjects
  | .construct type =>
      let r := TcpServerSocket.new s.numOfConcurrentServer type
      some { numOfConcurrentServer := r.1, alive := r.2 :: s.alive }
  | .destroy i =>
      s.alive[i]?.map fun o =>
        { numOfConcurrentServer := o.delete s.numOfConcurrentServer, alive := s.alive.eraseIdx i }

def concurrent (s : ServerObjects) : ℕ := s.alive.countP (·.isConcurrent)

/-- The concurrent servers that are alive and whose constructor has initialised them. -/
def serving (s : ServerObjects) : ℕ := s.alive.countP fun o => o.isConcurrent && o.initialised

/-- The accounts are right. -/
def Accounted (s : ServerObjects) : Prop :=
  s.numOfConcurrentServer = s.serving ∧ s.serving ≤ 1

/-- The step does not construct a concurrent server while there is another. -/
def OneAtATime (s : ServerObjects) (a : ObjectAction) : Prop :=
  a = .construct .TCP_SERVER_TYPE_CONCURRENT → s.concurrent = 0

instance (s : ServerObjects) : Decidable s.Accounted := inferInstanceAs (Decidable (_ ∧ _))

end ServerObjects

def ObjectStep (s : ServerObjects) (a : ObjectAction) (t : ServerObjects) : Prop := s.act a = some t

namespace TcpServerSocket

/-- With at most one server counted the constructor refuses nobody. -/
theorem new_of_le {n : ℤ} (h : n ≤ 1) (type : TcpServerType) :
    (new n type).2.initialised = true ∧ (new n type).2.serverType = type ∧
      (new n type).1 = n + if type = .TCP_SERVER_TYPE_CONCURRENT then 1 else 0 := by
  unfold new
  rw [if_neg (by omega)]
  cases type with
  | TCP_SERVER_TYPE_CONCURRENT => exact ⟨rfl, rfl, rfl⟩
  | TCP_SERVER_TYPE_NONE_CONCURRENT => exact ⟨rfl, rfl, (Int.add_zero n).symm⟩

end TcpServerSocket

namespace ServerObjects

variable {s t : ServerObjects} {a : ObjectAction}

/-- No server that is alive has been refused, and each is counted. -/
structure Counted (s : ServerObjects) : Prop where
  initialised : ∀ o ∈ s.alive, o.isConcurrent = true → o.initialised = true
  count : s.numOfConcurrentServer = s.concurrent

theorem Counted.accounted_iff (h : s.Counted) : s.Accounted ↔ s.concurrent ≤ 1 := by
  have heq : s.serving = s.concurrent := by
    apply List.countP_congr
    intro o ho
    have hi := h.initialised o ho
    rw [Bool.and_eq_true]
    exact ⟨And.left, fun hc => ⟨hc, hi hc⟩⟩
  unfold Accounted
  rw [heq, and_iff_right h.count]

/-- While at most one server is alive a constructor initialises its object. -/
theorem Counted.construct (h : s.Counted) (h1 : s.concurrent ≤ 1) {type : TcpServerType}
    (hs : s.act (.construct type) = some t) : t.Counted ∧
      t.concurrent = s.concurrent + if type = .TCP_SERVER_TYPE_CONCURRENT then 1 else 0 := by
  cases hs
  have hle : s.numOfConcurrentServer ≤ 1 := by
    have := h.count
    omega
  obtain ⟨hi, htype, hn⟩ := TcpServerSocket.new_of_le hle type
  have hc : (TcpServerSocket.new s.numOfConcurrentServer type).2.isConcurrent =
      decide (type = .TCP_SERVER_TYPE_CONCURRENT) := by
    rw [TcpServerSocket.isConcurrent, htype]
  have hcount := List.countP_cons (p := (·.isConcurrent)) (l := s.alive)
    (a := (TcpServerSocket.new s.numOfConcurrentServer type).2)
  simp only [hc, decide_eq_true_eq] at hcount
  refine ⟨⟨?_, ?_⟩, hcount⟩
  · intro o ho
    rcases List.mem_cons.mp ho with rfl | ho
    · exact fun _ => hi
    · exact h.initialised o ho
  · unfold concurrent
    rw [hcount, hn, h.count]
    split <;> rfl

/-- A destructor takes off the counter what it takes out of the objects. -/
theorem Counted.destroy (h : s.Counted) {i : ℕ} (hs : s.act (.destroy i) = some t) :
    t.Counted ∧ t.concurrent ≤ s.concurrent := by
  obtain ⟨o, ho, rfl⟩ := Option.map_eq_some_iff.mp hs
  obtain ⟨hlt, rfl⟩ := List.getElem?_eq_some_iff.mp ho
  have hperm : (s.alive[i] :: s.alive.eraseIdx i).Perm s.alive :=
    List.getElem_cons_eraseIdx_perm hlt
  have hcount := hperm.countP_eq (·.isConcurrent)
  rw [List.countP_cons] at hcount
  have hn := h.count
  unfold concurrent at hn ⊢
  refine ⟨⟨?_, ?_⟩, ?_⟩
  · intro o ho
    exact h.initialised o ((List.eraseIdx_subset) ho)
  · unfold concurrent
    simp only [TcpServerSocket.delete, TcpServerSocket.isConcurrent] at hcount hn ⊢
    split
    · next htype =>
        simp only [htype, decide_true, if_true] at hcount
        split <;> omega
    · next htype =>
        simp only [htype, decide_eq_true_eq, reduceCtorEq, if_false] at hcount
        omega
  · simp only
    omega

end ServerObjects

/-! ### The accounts over a history -/

open ServerObjects

/-- The accounts stay right over a step exactly when it keeps to one concurrent server. -/
theorem accounted_step_iff {s t : ServerObjects} {a : ObjectAction} (h : s.Counted ∧ s.Accounted)
    (hs : ObjectStep s a t) : t.Accounted ↔ s.OneAtATime a := by
  have h1 := h.1.accounted_iff.mp h.2
  cases a with
  | construct type =>
      obtain ⟨ht, hc⟩ := h.1.construct h1 hs
      rw [ht.accounted_iff, hc]
      unfold OneAtATime
      cases type with
      | TCP_SERVER_TYPE_CONCURRENT =>
          simp only [if_true, forall_const]
          omega
      | TCP_SERVER_TYPE_NONE_CONCURRENT =>
          simp only [reduceCtorEq, if_false, Nat.add_zero, ObjectAction.construct.injEq,
            false_implies, iff_true]
          exact h1
  | destroy i =>
      obtain ⟨ht, hc⟩ := h.1.destroy hs
      apply iff_of_true (ht.accounted_iff.mpr (Nat.le_trans hc h1))
      intro ha
      cases ha

theorem counted_step {s t : ServerObjects} {a : ObjectAction} (h : s.Counted ∧ s.Accounted)
    (hs : ObjectStep s a t) : t.Counted := by
  cases a with
  | construct type => exact (h.1.construct (h.1.accounted_iff.mp h.2) hs).1
  | destroy i => exact (h.1.destroy hs).1

/-- **The counter and the servers agree, and there is at most one, exactly in the histories that
construct no concurrent server while another is alive.** -/
theorem concurrentServers_iff {t : ServerObjects} {ls : List ObjectAction} :
    RunWith ObjectStep (fun _ _ t => t.Accounted) {} ls t ↔
      RunWith ObjectStep (fun s a _ => s.OneAtATime a) {} ls t := by
  have h0 : Counted {} ∧ Accounted {} :=
    ⟨⟨fun o ho => absurd ho List.not_mem_nil, rfl⟩, by decide⟩
  apply runWith_iff (I := fun s => s.Counted ∧ s.Accounted) ?_ ?_ h0
  · intro s a t h hs hone
    exact ⟨counted_step h hs, (accounted_step_iff h hs).mpr hone⟩
  · intro s a t h hs
    exact accounted_step_iff h hs

/-- The constructor initialises two servers, and when a third, which it refuses, is destroyed the
counter says one. -/
theorem not_concurrentServers :
    (∃ t, Run ObjectStep {} [.construct .TCP_SERVER_TYPE_CONCURRENT,
        .construct .TCP_SERVER_TYPE_CONCURRENT] t ∧ ¬ t.Accounted ∧ t.serving = 2) ∧
      ∃ t, Run ObjectStep {} [.construct .TCP_SERVER_TYPE_CONCURRENT,
          .construct .TCP_SERVER_TYPE_CONCURRENT, .construct .TCP_SERVER_TYPE_CONCURRENT,
          .destroy 0] t ∧
        ¬ t.Accounted ∧ t.serving = 2 ∧ t.numOfConcurrentServer = 1 :=
  ⟨exists_run act (fun t => ¬ t.Accounted ∧ t.serving = 2) {} _ (by decide +kernel),
    exists_run act (fun t => ¬ t.Accounted ∧ t.serving = 2 ∧ t.numOfConcurrentServer = 1) {} _
      (by decide +kernel)⟩

end NetworkStructure
