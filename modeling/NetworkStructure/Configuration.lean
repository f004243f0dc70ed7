import NetworkStructure.Run
import NetworkStructure.TcpServerSocket

/-! # The reader configuration of a Network

`Network::RegisterConfiguration` hands one pointer to every socket that reads a configuration,
and each of them deletes it in `UnRegisterConfiguration`, without setting its own pointer to null.
So the first `UnRegisterConfiguration` after a `RegisterConfiguration` deletes the configuration
once for each socket, leaves all of them with a dangling pointer, and no later registration takes
effect.  The configuration has a single owner exactly as long as nothing is unregistered once a
configuration has been registered (`singleOwner_iff`). -/

namespace NetworkStructure

/-! ### The code -/

namespace TcpServerSocket

variable (s : TcpServerSocket)

def registerConfiguration (pRc : ConfigPtr) : ℤ × TcpServerSocket :=
  match s.pReaderConfig with
  | none => (0, { s with pReaderConfig := some pRc })
  | some _ => (-1, s)

/-- The answer, the socket and what is deleted. -/
def unRegisterConfiguration : ℤ × TcpServerSocket × List ConfigPtr :=
  match s.pReaderConfig with
  | some p => (0, s, [p])
  | none => (-1, s, [])

end TcpServerSocket

/-- The sockets of a `Network` that a configuration is handed to; the pointers may be null. -/
structure Network where
  pTcpSocket : Option TcpServerSocket := none
  pTcpSocketConfig : Option TcpServerSocket := none
  pTcpDecoderData : Option TcpServerSocket := none

namespace Network

/-- The constructor, which leaves `pTcpDecoderData` null. -/
def new (numOfConcurrentServer : ℤ) : Network :=
  let r := TcpServerSocket.new numOfConcurrentServer .TCP_SERVER_TYPE_CONCURRENT
  { pTcpSocket := some r.2
    pTcpSocketConfig := some (TcpServerSocket.new r.1 .TCP_SERVER_TYPE_NONE_CONCURRENT).2 }

variable (n : Network)

def registerConfiguration (pRConfg : ConfigPtr) : Network where
  pTcpSocket := n.pTcpSocket.map fun s => (s.registerConfiguration pRConfg).2
  pTcpSocketConfig := n.pTcpSocketConfig.map fun s => (s.registerConfiguration pRConfg).2
  pTcpDecoderData := n.pTcpDecoderData.map fun s => (s.registerConfiguration pRConfg).2

/-- The sockets in the order in which they are called. -/
def sockets : List TcpServerSocket :=
  n.pTcpSocket.toList ++ n.pTcpSocketConfig.toList ++ n.pTcpDecoderData.toList

/-- The network and what is deleted. -/
def unRegisterConfiguration : Network × List ConfigPtr :=
  ({ pTcpSocket := n.pTcpSocket.map (·.unRegisterConfiguration.2.1)
     pTcpSocketConfig := n.pTcpSocketConfig.map (·.unRegisterConfiguration.2.1)
     pTcpDecoderData := n.pTcpDecoderData.map (·.unRegisterConfiguration.2.1) },
    n.sockets.flatMap (·.unRegisterConfiguration.2.2))

theorem sockets_registerConfiguration (p : ConfigPtr) :
    (n.registerConfiguration p).sockets =
      n.sockets.map fun s => (s.registerConfiguration p).2 := by
  simp only [sockets, registerConfiguration, List.map_append]
  cases n.pTcpSocket <;> cases n.pTcpSocketConfig <;> cases n.pTcpDecoderData <;> rfl

/-- No socket lets go of its pointer. -/
theorem unRegisterConfiguration_fst : n.unRegisterConfiguration.1 = n := by
  have h : ∀ s : TcpServerSocket, s.unRegisterConfiguration.2.1 = s := by
    intro s
    unfold TcpServerSocket.unRegisterConfiguration
    split <;> rfl
  simp only [unRegisterConfiguration, h, Option.map_id']

end Network

/-! ### Sequences of calls -/

inductive ConfigCall where
  | registerConfiguration (p : ConfigPtr)
  | unRegisterConfiguration
deriving DecidableEq, Repr

/-- A `Network` and the history of the calls: the configurations registered, those deleted, and
the first one registered since the last `UnRegisterConfiguration`. -/
structure NetworkCalls where
  network : Network
  registered : List ConfigPtr := []
  deleted : List ConfigPtr := []
  current : Option ConfigPtr := none

namespace NetworkCalls

/-- One call; every configuration that is registered is a new one. -/
def act (s : NetworkCalls) : ConfigCall → Option NetworkCalls
  | .registerConfiguration p =>
      if p ∈ s.registered ∨ p ∈ s.deleted then none
      else some { s with
        network := s.network.registerConfiguration p
        registered := s.registered ++ [p]
        current := s.current <|> some p }
  | .unRegisterConfiguration =>
      let r := s.network.unRegisterConfiguration
      some { s with network := r.1, deleted := s.deleted ++ r.2, current := none }

end NetworkCalls

def ConfigStep (s : NetworkCalls) (a : ConfigCall) (t : NetworkCalls) : Prop := s.act a = some t

namespace NetworkCalls

/-- What single ownership promises. -/
structure SingleOwner (s : NetworkCalls) : Prop where
  /-- No configuration is deleted twice. -/
  once : s.deleted.Nodup
  /-- No socket holds a pointer to one that is deleted. -/
  noDangling : ∀ x ∈ s.network.sockets, ∀ p, x.pReaderConfig = some p → p ∉ s.deleted
  /-- The first registration after an `UnRegisterConfiguration` takes effect. -/
  effect : ∀ p, s.current = some p → ∀ x ∈ s.network.sockets, x.pReaderConfig = some p

/-- Nothing is unregistered after a registration. -/
def KeepsConfiguration (s : NetworkCalls) : ConfigCall → Prop
  | .registerConfiguration _ => True
  | .unRegisterConfiguration => s.registered = []

instance (s : NetworkCalls) (a : ConfigCall) : Decidable (s.KeepsConfiguration a) :=
  match a with
  | .registerConfiguration _ => isTrue trivial
  | .unRegisterConfiguration => inferInstanceAs (Decidable (s.registered = []))

/-- What holds as long as this is so: nothing is deleted, and the sockets have the configuration
that was registered first, or none. -/
structure Held (s : NetworkCalls) : Prop where
  sockets : s.network.sockets ≠ []
  deleted : s.deleted = []
  current : ∀ x ∈ s.network.sockets, x.pReaderConfig = s.current
  registered : s.registered = [] ↔ s.current = none

variable {s t : NetworkCalls} {a : ConfigCall}

theorem Held.singleOwner (h : s.Held) : s.SingleOwner where
  once := by rw [h.deleted]; exact .nil
  noDangling := by
    intro x _ p _
    rw [h.deleted]
    exact List.not_mem_nil
  effect := by
    intro p hp x hx
    rw [h.current x hx, hp]

theorem Held.register (h : s.Held) (p : ConfigPtr) :
    Held { s with
      network := s.network.registerConfiguration p
      registered := s.registered ++ [p]
      current := s.current <|> some p } where
  sockets := by
    rw [Network.sockets_registerConfiguration]
    exact fun he => h.sockets (List.map_eq_nil_iff.mp he)
  deleted := h.deleted
  current := by
    intro x hx
    rw [Network.sockets_registerConfiguration] at hx
    obtain ⟨y, hy, rfl⟩ := List.mem_map.mp hx
    have hc := h.current y hy
    unfold TcpServerSocket.registerConfiguration
    cases hcur : s.current with
    | none =>
        rw [hcur] at hc
        rw [hc]
        rfl
    | some q =>
        rw [hcur] at hc
        rw [hc]
        exact hc
  registered := by
    apply iff_of_false (by simp)
    cases s.current <;> simp

/-- Unregistering a configuration deletes it, and the sockets keep their pointers. -/
theorem Held.not_singleOwner (h : s.Held) (hr : s.registered ≠ [])
    (hs : ConfigStep s .unRegisterConfiguration t) : ¬ t.SingleOwner := by
  intro ho
  cases hs
  obtain ⟨x, hx⟩ := List.exists_mem_of_ne_nil _ h.sockets
  obtain ⟨p, hp⟩ : ∃ p, s.current = some p :=
    Option.ne_none_iff_exists'.mp fun hn => hr (h.registered.mpr hn)
  have hc : x.pReaderConfig = some p := (h.current x hx).trans hp
  have hd : p ∈ s.deleted ++ s.network.unRegisterConfiguration.2 := by
    refine List.mem_append_right _ (List.mem_flatMap.mpr ⟨x, hx, ?_⟩)
    simp [TcpServerSocket.unRegisterConfiguration, hc]
  refine ho.noDangling x ?_ p hc hd
  rwa [Network.unRegisterConfiguration_fst]

/-- Unregistering when nothing was registered changes nothing. -/
theorem Held.unRegister (h : s.Held) (hr : s.registered = [])
    (hs : ConfigStep s .unRegisterConfiguration t) : t.Held := by
  cases hs
  have hn := h.registered.mp hr
  have hd : s.network.unRegisterConfiguration.2 = [] := by
    refine List.flatMap_eq_nil_iff.mpr fun x hx => ?_
    have hx := (h.current x hx).trans hn
    simp [TcpServerSocket.unRegisterConfiguration, hx]
  rw [hd, Network.unRegisterConfiguration_fst, List.append_nil]
  exact ⟨h.sockets, h.deleted, fun x hx => (h.current x hx).trans hn, iff_of_true hr rfl⟩

/-- **One call.** -/
theorem Held.step (h : s.Held) (hs : ConfigStep s a t) :
    (t.SingleOwner ↔ s.KeepsConfiguration a) ∧ (s.KeepsConfiguration a → t.Held) := by
  cases a with
  | registerConfiguration p =>
      unfold ConfigStep act at hs
      dsimp only at hs
      split at hs
      · cases hs
      · cases hs
        have ht := h.register p
        exact ⟨iff_of_true ht.singleOwner trivial, fun _ => ht⟩
  | unRegisterConfiguration =>
      refine ⟨⟨fun ho => ?_, fun hr => (h.unRegister hr hs).singleOwner⟩,
        fun hr => h.unRegister hr hs⟩
      by_contra hr
      exact h.not_singleOwner hr hs ho

theorem held_new (n : ℤ) : Held { network := Network.new n } where
  sockets := List.cons_ne_nil _ _
  deleted := rfl
  current := by
    intro x hx
    have hnew : ∀ (n : ℤ) type, (TcpServerSocket.new n type).2.pReaderConfig = none := by
      intro n type
      unfold TcpServerSocket.new
      split
      · rfl
      · split <;> rfl
    have hx : x ∈ [(TcpServerSocket.new n .TCP_SERVER_TYPE_CONCURRENT).2,
        (TcpServerSocket.new (TcpServerSocket.new n .TCP_SERVER_TYPE_CONCURRENT).1
          .TCP_SERVER_TYPE_NONE_CONCURRENT).2] := hx
    rcases List.mem_pair.mp hx with rfl | rfl
    · exact hnew _ _
    · exact hnew _ _
  registered := iff_of_true rfl rfl

end NetworkCalls

/-- **Single ownership of the configuration**: it holds after every call of a sequence exactly
when nothing is unregistered after a registration. -/
theorem singleOwner_iff (n : ℤ) (ls : List ConfigCall) (t : NetworkCalls) :
    RunWith ConfigStep (fun _ _ t => t.SingleOwner) { network := Network.new n } ls t ↔
      RunWith ConfigStep (fun s a _ => s.KeepsConfiguration a) { network := Network.new n } ls t :=
  runWith_iff (I := NetworkCalls.Held) (fun _ _ _ h hs hk => (NetworkCalls.Held.step h hs).2 hk)
    (fun _ _ _ h hs => (NetworkCalls.Held.step h hs).1) (NetworkCalls.held_new n)

/-- One registration and its end: the configuration is deleted twice, both sockets keep the
pointer, and the next registration has no effect. -/
theorem not_singleOwner :
    ∃ t, Run ConfigStep { network := Network.new 0 }
        [.registerConfiguration 1, .unRegisterConfiguration, .registerConfiguration 2] t ∧
      t.deleted = [1, 1] ∧ (∀ x ∈ t.network.sockets, x.pReaderConfig = some 1) ∧
      ¬ t.SingleOwner := by
  obtain ⟨t, run, hd, hx⟩ := exists_run NetworkCalls.act
    (fun t => t.deleted = [1, 1] ∧ ∀ x ∈ t.network.sockets, x.pReaderConfig = some 1)
    { network := Network.new 0 }
    [.registerConfiguration 1, .unRegisterConfiguration, .registerConfiguration 2]
    (by decide +kernel)
  refine ⟨t, run, hd, hx, fun h => ?_⟩
  have := h.once
  rw [hd] at this
  exact absurd this (by decide)

end NetworkStructure
