import Mathlib.Data.List.Basic
import Mathlib.Tactic.Common
import NetworkStructure.Run

/-! # The stop command of the child process

`ConcurrentProcess` serves its clients from a child process, which the parent stops by the three
bytes 01 02 03 over the unix-domain socket (`Stop`).  The child reads what comes into `IPCbuff`
and means to test `num == 3` before it compares the bytes, but writes `num = 3`: every message is
compared, whatever its length, and the `memset` that follows clears three bytes.

The comparison reads the first three bytes of the buffer, which a shorter message does not fill.
So a longer message that begins with the command is taken for it, and so is the first message
if it is shorter and `IPCbuff`, which is not initialised, happens to continue it; from then on
those three bytes are zero when a message is read, and nothing completes a short one
(`stopCommand_iff`). -/

namespace NetworkStructure

/-- What `Stop` sends. -/
def stopCommand : List UInt8 := [0x01, 0x02, 0x03]

/-- The buffer and the flag of the child. -/
structure ChildProcess where
  IPCbuff : List UInt8
  isThreadRunning : Bool := true
  size : IPCbuff.length = 1024

/-- What `SocketRead(IPCbuff, 512)` stores, where it answers a positive count. -/
structure IpcMessage where
  bytes : List UInt8
  nonempty : 1 ≤ bytes.length
  fits : bytes.length ≤ 512

namespace ChildProcess

/-- `IPCbuff` after a read of `bytes` into it. -/
def filled (IPCbuff bytes : List UInt8) : List UInt8 := bytes ++ IPCbuff.drop bytes.length

/-- `memset(IPCbuff, 0, num)`. -/
def cleared (IPCbuff : List UInt8) (num : ℕ) : List UInt8 :=
  List.replicate num 0 ++ IPCbuff.drop num

/-- The branch for the ipc descriptor.  The assignment in the test makes `num` three. -/
def ipcEvent (s : ChildProcess) (m : IpcMessage) : ChildProcess where
  IPCbuff := cleared (filled s.IPCbuff m.bytes) 3
  isThreadRunning :=
    if (filled s.IPCbuff m.bytes).take 3 = stopCommand then false else s.isThreadRunning
  size := by
    have hs := s.size
    have hm := m.fits
    simp only [cleared, filled, List.length_append, List.length_replicate, List.length_drop]
    omega

end ChildProcess

/-- The loop runs while the flag is set. -/
def ChildStep (s : ChildProcess) (m : IpcMessage) (t : ChildProcess) : Prop :=
  s.isThreadRunning = true ∧ t = s.ipcEvent m

namespace ChildProcess

/-- The message stops the loop exactly when it is the command. -/
def Recognises (m : IpcMessage) (t : ChildProcess) : Prop :=
  t.isThreadRunning = false ↔ m.bytes = stopCommand

variable {s t : ChildProcess} {m : IpcMessage}

theorem take_filled {buff bytes : List UInt8} {n : ℕ} :
    (filled buff bytes).take n = bytes.take n ++ (buff.drop bytes.length).take (n - bytes.length) :=
  List.take_append

/-- What the loop takes for the command: a message that begins with it, or a shorter one that
the buffer continues. -/
def Completes (buff bytes : List UInt8) : Prop :=
  bytes.length < 3 ∧ bytes ++ (buff.drop bytes.length).take (3 - bytes.length) = stopCommand

theorem stops_iff (hs : s.isThreadRunning = true) : (s.ipcEvent m).isThreadRunning = false ↔
    stopCommand <+: m.bytes ∨ Completes s.IPCbuff m.bytes := by
  have h : (s.ipcEvent m).isThreadRunning = false ↔
      (filled s.IPCbuff m.bytes).take 3 = stopCommand := by
    unfold ipcEvent
    split
    · next h => exact iff_of_true rfl h
    · next h => exact iff_of_false (by rw [hs]; exact Bool.noConfusion) h
  rw [h, take_filled]
  rcases Nat.lt_or_ge m.bytes.length 3 with hlt | hge
  · have hnot : ¬ stopCommand <+: m.bytes := fun hp => by
      have := hp.length_le
      exact absurd this (Nat.not_le.mpr hlt)
    rw [List.take_of_length_le (Nat.le_of_lt hlt)]
    exact ⟨fun h => .inr ⟨hlt, h⟩, fun h => (h.resolve_left hnot).2⟩
  · have hnot : ¬ Completes s.IPCbuff m.bytes := fun h => absurd h.1 (Nat.not_lt.mpr hge)
    rw [Nat.sub_eq_zero_of_le hge, List.take_zero, List.append_nil, or_iff_left hnot,
      List.prefix_iff_eq_take]
    exact eq_comm

/-- Nothing completes a short message once the first bytes are zero. -/
theorem not_completes_cleared {buff : List UInt8} (m : IpcMessage) :
    ¬ Completes (cleared buff 3) m.bytes := by
  rintro ⟨hlt, h⟩
  have h0 := m.nonempty
  generalize m.bytes = bytes at hlt h h0
  rcases bytes with _ | ⟨a, _ | ⟨b, _ | ⟨c, rest⟩⟩⟩
  · exact absurd h0 (by decide)
  · cases List.cons.inj (List.cons.inj h).2
    contradiction
  · cases List.cons.inj (List.cons.inj (List.cons.inj h).2).2
    contradiction
  · simp only [List.length_cons] at hlt
    omega

/-- One message: it is recognised for what it is unless it is longer than the command that it
begins with, or completed by the buffer. -/
theorem recognises_iff (hs : s.isThreadRunning = true) : Recognises m (s.ipcEvent m) ↔
    (stopCommand <+: m.bytes → m.bytes = stopCommand) ∧ ¬ Completes s.IPCbuff m.bytes := by
  have hself : m.bytes = stopCommand → stopCommand <+: m.bytes :=
    fun h => h ▸ List.prefix_refl _
  have hshort : Completes s.IPCbuff m.bytes → m.bytes ≠ stopCommand := by
    rintro ⟨hlt, -⟩ h
    rw [h] at hlt
    exact absurd hlt (by decide)
  unfold Recognises
  rw [stops_iff hs]
  constructor
  · intro h
    exact ⟨fun hp => h.mp (.inl hp), fun hc => hshort hc (h.mp (.inr hc))⟩
  · rintro ⟨hp, hc⟩
    exact ⟨fun h => hp (h.resolve_right hc), fun h => .inl (hself h)⟩

end ChildProcess

/-! ### Every message -/

open ChildProcess

variable {s t : ChildProcess} {ms : List IpcMessage}

/-- From the second message on only the length matters. -/
theorem recognises_cleared_iff (h0 : ∃ buff, s.IPCbuff = cleared buff 3) :
    RunWith ChildStep (fun _ m t => Recognises m t) s ms t ↔
      Run ChildStep s ms t ∧ ∀ m ∈ ms, stopCommand <+: m.bytes → m.bytes = stopCommand := by
  rw [← runWith_label_iff]
  apply runWith_iff (I := fun s => ∃ buff, s.IPCbuff = cleared buff 3) ?_ ?_ h0
  · rintro s m t - ⟨-, rfl⟩ -
    exact ⟨_, rfl⟩
  · rintro s m t ⟨buff, hb⟩ ⟨hs, rfl⟩
    rw [recognises_iff hs, hb]
    exact and_iff_left (not_completes_cleared m)

/-- **The child recognises the stop command, and takes nothing else for it, exactly when no
message goes on after the three bytes of the command and the first one is not a piece of the
command that the uninitialised buffer completes.** -/
theorem stopCommand_iff (run : Run ChildStep s ms t) :
    RunWith ChildStep (fun _ m t => Recognises m t) s ms t ↔
      (∀ m ∈ ms, stopCommand <+: m.bytes → m.bytes = stopCommand) ∧
        ∀ m ∈ ms.head?, ¬ Completes s.IPCbuff m.bytes := by
  cases run with
  | nil =>
      refine iff_of_true (.nil s) ⟨fun m hm => absurd hm List.not_mem_nil, fun m hm => ?_⟩
      cases hm
  | @cons _ u _ m ms hs run =>
      have hu : ∃ buff, u.IPCbuff = cleared buff 3 := ⟨_, congrArg IPCbuff hs.2⟩
      have hm : Recognises m u ↔ _ := hs.2 ▸ recognises_iff hs.1
      rw [List.forall_mem_cons, List.head?_cons]
      constructor
      · intro h
        cases h with
        | cons hq hrest =>
            obtain rfl := hq.1.2.trans hs.2.symm
            obtain ⟨hp, hc⟩ := hm.mp hq.2
            refine ⟨⟨hp, ((recognises_cleared_iff hu).mp hrest).2⟩, ?_⟩
            rintro _ ⟨⟩
            exact hc
      · rintro ⟨⟨hp, hall⟩, hc⟩
        exact .cons ⟨hs, hm.mpr ⟨hp, hc m rfl⟩⟩ ((recognises_cleared_iff hu).mpr ⟨run, hall⟩)

def stopMessage : IpcMessage := ⟨stopCommand, by decide, by decide⟩

/-- A child whose buffer still holds other bytes. -/
def leftoverChild : ChildProcess where
  IPCbuff := List.replicate 1024 3
  size := List.length_replicate

/-- A message of three bytes, a shorter one, which keeps what is left of the buffer behind it, a
longer one, and the command. -/
theorem stopCommand_iff_example :
    ∃ t : ChildProcess, t.isThreadRunning = false ∧
      RunWith ChildStep (fun _ m t => Recognises m t) leftoverChild
        [⟨[1, 2, 4], by decide, by decide⟩, ⟨[1, 2], by decide, by decide⟩,
          ⟨[9, 1, 2, 3], by decide, by decide⟩, stopMessage] t := by
  refine ⟨_, ?_, (stopCommand_iff (.cons ⟨rfl, rfl⟩ (.cons ⟨by decide +kernel, rfl⟩
    (.cons ⟨by decide +kernel, rfl⟩ (.cons ⟨by decide +kernel, rfl⟩ (.nil _)))))).mpr
      ⟨by decide, ?_⟩⟩
  · decide +kernel
  · rintro _ ⟨⟩ ⟨hlt, -⟩
    exact absurd hlt (by decide)

/-- A buffer that happens to be clear. -/
def idleChild : ChildProcess where
  IPCbuff := List.replicate 1024 0
  size := List.length_replicate

/-- The command with a byte behind it. -/
def longMessage : IpcMessage := ⟨[1, 2, 3, 4], by decide, by decide⟩

/-- A message of four bytes stops the child. -/
theorem not_stopCommand : ∃ t, Run ChildStep idleChild [longMessage] t ∧
    t.isThreadRunning = false ∧ longMessage.bytes ≠ stopCommand :=
  ⟨_, .cons ⟨rfl, rfl⟩ (.nil _), by decide +kernel, by decide⟩

end NetworkStructure
