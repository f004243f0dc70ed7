import NetworkStructure.TcpServerSocket

/-! # What a write reports

`TcpServerSocket::SocketWrite` passes its buffer to one `send(2)`, and `SendDataAll` of the
interface socket to one for each client.  A send may take fewer bytes than it is given, and says
how many; both functions only ask whether it has failed.  `TcpConnection` keeps what a write did
not take and sends it later; here it is lost, and the result is 0 all the same.

So 0 means that everything was sent exactly when no send was short, or when a later one failed
and 0 was not returned (`reportedSuccess_iff`). -/

namespace NetworkStructure

/-- What `send(2)` may answer for `len` bytes. -/
def SendAnswer (len : ℕ) (r : ℤ) : Prop := r = -1 ∨ 1 ≤ r ∧ r ≤ len

/-- It has taken some of the bytes and not all. -/
def ShortSend (len : ℕ) (r : ℤ) : Prop := r ≠ -1 ∧ r < len

instance (len : ℕ) (r : ℤ) : Decidable (SendAnswer len r) := inferInstanceAs (Decidable (_ ∨ _))

instance (len : ℕ) (r : ℤ) : Decidable (ShortSend len r) := inferInstanceAs (Decidable (_ ∧ _))

variable {len : ℕ} {r : ℤ}

/-- A send that has not failed and is not short has taken everything. -/
theorem SendAnswer.eq_len (h : SendAnswer len r) (hr : r ≠ -1) (hs : ¬ ShortSend len r) :
    r = len := by
  have hle := (h.resolve_left hr).2
  have hge : ¬ r < len := fun hlt => hs ⟨hr, hlt⟩
  omega

theorem not_shortSend (h : r = len) : ¬ ShortSend len r := fun hs => by
  have := hs.2
  omega

/-! ### SendDataAll -/

namespace TcpInterfaceSocket

/-- The loop of `SendDataAll` over the descriptors `fds`, where `send i` is the `i`-th call of
`send(2)`. -/
def sendEach (send : ℕ → Fd → List UInt8 → ℤ) (buff : List UInt8) : ℕ → List Fd → ℤ
  | _, [] => 0
  | i, fd :: fds => if send i fd buff = -1 then -1 else sendEach send buff (i + 1) fds

/-- `SendDataAll(buff, len)`. -/
def sendDataAll (s : TcpInterfaceSocket) (send : ℕ → Fd → List UInt8 → ℤ) (buff : List UInt8) :
    ℤ :=
  sendEach send buff 0 s.pIfcFdVec_.fdVec_

variable {send : ℕ → Fd → List UInt8 → ℤ} {buff : List UInt8}

/-- The loop gets to its end when no send fails. -/
theorem sendEach_eq_zero {fds : List Fd} {i : ℕ} : sendEach send buff i fds = 0 ↔
    ∀ k fd, fds[k]? = some fd → send (i + k) fd buff ≠ -1 := by
  induction fds generalizing i with
  | nil => exact iff_of_true rfl fun k fd h => by cases h
  | cons fd fds ih =>
      unfold sendEach
      split
      · next hf => exact iff_of_false (by omega) fun h => h 0 fd rfl hf
      · next hf =>
        rw [ih]
        constructor
        · intro h k d hk
          cases k with
          | zero => exact Option.some.inj hk ▸ hf
          | succ k =>
              rw [show i + (k + 1) = i + 1 + k by omega]
              exact h k d hk
        · intro h k d hk
          rw [show i + 1 + k = i + (k + 1) by omega]
          exact h (k + 1) d hk

end TcpInterfaceSocket

/-! ### Both functions -/

/-- **A result of 0 means that everything was sent** exactly when, in `SocketWrite`, the send is
not short, and in `SendDataAll`, none is short or one fails. -/
theorem reportedSuccess_iff (s : TcpServerSocket) (i : TcpInterfaceSocket)
    (send : Option Fd → List UInt8 → ℤ) (sends : ℕ → Fd → List UInt8 → ℤ) (buff : List UInt8)
    (hsend : SendAnswer buff.length (send s.connFd buff))
    (hsends : ∀ (k : ℕ) (fd : Fd), i.pIfcFdVec_.fdVec_[k]? = some fd →
      SendAnswer buff.length (sends k fd buff)) :
    ((s.socketWrite send buff = 0 → send s.connFd buff = buff.length) ↔
      ¬ ShortSend buff.length (send s.connFd buff)) ∧
    ((i.sendDataAll sends buff = 0 → ∀ (k : ℕ) (fd : Fd), i.pIfcFdVec_.fdVec_[k]? = some fd →
        sends k fd buff = buff.length) ↔
      (∀ (k : ℕ) (fd : Fd), i.pIfcFdVec_.fdVec_[k]? = some fd →
        ¬ ShortSend buff.length (sends k fd buff)) ∨
      ∃ (k : ℕ) (fd : Fd), i.pIfcFdVec_.fdVec_[k]? = some fd ∧ sends k fd buff = -1) := by
  refine ⟨?_, ?_⟩
  · unfold TcpServerSocket.socketWrite
    constructor
    · intro h hs
      exact not_shortSend (h (if_neg hs.1)) hs
    · intro hs h0
      apply hsend.eq_len ?_ hs
      intro hf
      rw [if_pos hf] at h0
      omega
  · unfold TcpInterfaceSocket.sendDataAll
    rw [TcpInterfaceSocket.sendEach_eq_zero]
    simp only [Nat.zero_add]
    constructor
    · intro h
      by_cases hf : ∃ (k : ℕ) (fd : Fd), i.pIfcFdVec_.fdVec_[k]? = some fd ∧ sends k fd buff = -1
      · exact .inr hf
      · have hall := h fun k fd hk he => hf ⟨k, fd, hk, he⟩
        exact .inl fun k fd hk => not_shortSend (hall k fd hk)
    · rintro (hs | ⟨k, fd, hk, he⟩)
      · exact fun h0 k fd hk => (hsends k fd hk).eq_len (h0 k fd hk) (hs k fd hk)
      · exact fun h0 => absurd he (h0 k fd hk)

/-- The interface socket with its two clients on descriptors 7 and 8. -/
def twoReceivers : TcpInterfaceSocket where
  maxConnections := MAX_IFC_CONNECTIONS
  pIfcFdVec_ := { maxSize_ := MAX_IFC_CONNECTIONS, fdVec_ := [7, 8] }

/-- The sends take everything. -/
theorem reportedSuccess_iff_example :
    (TcpServerSocket.oneClient.socketWrite (fun _ b => b.length) [1, 2] = 0 → (2 : ℤ) = 2) ∧
      (twoReceivers.sendDataAll (fun _ _ b => b.length) [1, 2] = 0 →
        ∀ (k : ℕ) (fd : Fd), twoReceivers.pIfcFdVec_.fdVec_[k]? = some fd → (2 : ℤ) = 2) := by
  have hall : ∀ (k : ℕ) (fd : Fd), twoReceivers.pIfcFdVec_.fdVec_[k]? = some fd →
      SendAnswer 2 2 := fun _ _ _ => by decide
  have h := reportedSuccess_iff TcpServerSocket.oneClient twoReceivers (fun _ b => b.length)
    (fun _ _ b => b.length) [1, 2] (show SendAnswer 2 2 by decide) hall
  exact ⟨h.1.mpr (by decide), h.2.mpr (.inl fun _ _ _ => by decide)⟩

/-- One byte of two is taken, by the client of the server and by the second client of the
interface socket. -/
theorem not_reportedSuccess : SendAnswer 2 1 ∧
    ¬ (TcpServerSocket.oneClient.socketWrite (fun _ _ => 1) [1, 2] = 0 → (1 : ℤ) = 2) ∧
    ¬ (twoReceivers.sendDataAll (fun k _ _ => if k = 1 then 1 else 2) [1, 2] = 0 →
      ∀ (k : ℕ) (fd : Fd), twoReceivers.pIfcFdVec_.fdVec_[k]? = some fd →
        (if k = 1 then 1 else 2 : ℤ) = 2) := by
  refine ⟨by decide, by decide, fun h => ?_⟩
  exact absurd (h (by decide) 1 8 rfl) (by decide)

end NetworkStructure
