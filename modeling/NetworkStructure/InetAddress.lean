import Mathlib.Algebra.Ring.Nat
import Mathlib.Data.List.Basic

/-! # InetAddress

An endpoint is kept as a `sockaddr_in`, with the address and the port in network byte order.  The
constructors take the text of an address; `toIpPort` writes `x.x.x.x:port` to a buffer of 32
bytes, which is enough for every endpoint (`toIpPort_endpoint`).

The constructor from a `const char *` fills the object.  The one from a `string` constructs a
temporary instead of delegating to it, so the object is left with what its memory contained
before: the two agree exactly where that was already the endpoint (`inetAddress_iff`).

`inet_pton` and `inet_ntop` are those of the C library, for IPv4, on a host that stores the low
byte of a number first. -/

namespace NetworkStructure

/-! ### Addresses -/

/-- The bytes of an address, in network byte order. -/
structure in_addr where
  b1 : UInt8
  b2 : UInt8
  b3 : UInt8
  b4 : UInt8
deriving DecidableEq, Repr

structure sockaddr_in where
  sin_family : UInt16
  sin_port : UInt16
  sin_addr : in_addr
  sin_zero : Vector UInt8 8
deriving DecidableEq, Repr

def AF_INET : UInt16 := 2
def INET_ADDRSTRLEN : ℕ := 16

/-- What `bzero` leaves. -/
def sockaddr_in.zero : sockaddr_in where
  sin_family := 0
  sin_port := 0
  sin_addr := ⟨0, 0, 0, 0⟩
  sin_zero := .replicate 8 0

/-- `%u`. -/
def unsignedText (n : ℕ) : List Char := Nat.toDigits 10 n

def in_addr.octets (a : in_addr) : List UInt8 := [a.b1, a.b2, a.b3, a.b4]

/-- The dotted quad. -/
def inet_ntop (a : in_addr) : List Char :=
  ['.'].intercalate (a.octets.map fun b => unsignedText b.toNat)

/-- Digits without a leading zero, of a number that fits into a byte. -/
def octetOf (cs : List Char) : Option UInt8 :=
  if cs ≠ [] ∧ cs.all Char.isDigit ∧ (cs.head? = some '0' → cs = ['0']) ∧
      Nat.ofDigitChars 10 cs 0 ≤ 255 then
    some (UInt8.ofNat (Nat.ofDigitChars 10 cs 0))
  else none

def inet_pton (ip : List Char) : Option in_addr :=
  match (ip.splitOn '.').mapM octetOf with
  | some [b1, b2, b3, b4] => some { b1, b2, b3, b4 }
  | _ => none

/-! ### SocketOps -/

namespace sockets

/-- `htobe16`. -/
def hostToNetwork16 (host16 : UInt16) : UInt16 :=
  UInt16.ofNat (host16.toNat % 256 * 256 + host16.toNat / 256)

/-- `be16toh`. -/
def networkToHost16 (net16 : UInt16) : UInt16 :=
  UInt16.ofNat (net16.toNat % 256 * 256 + net16.toNat / 256)

def fromIpPort (ip : List Char) (port : UInt16) (addr : sockaddr_in) : sockaddr_in :=
  let addr := { addr with sin_family := AF_INET, sin_port := hostToNetwork16 port }
  match inet_pton ip with
  | some sin_addr => { addr with sin_addr }
  | none => addr

/-- What is in the buffer; `none` where nothing has been written to it, or it is too small. -/
def toIp (size : ℕ) (addr : sockaddr_in) : Option (List Char) :=
  if addr.sin_family = AF_INET ∧ INET_ADDRSTRLEN ≤ size then some (inet_ntop addr.sin_addr)
  else none

/-- `snprintf` cuts the text so that it ends inside of the buffer. -/
def toIpPort (size : ℕ) (addr : sockaddr_in) : Option (List Char) := do
  let buf ← toIp size addr
  if size > buf.length then
    let port := networkToHost16 addr.sin_port
    some (buf ++ (':' :: unsignedText port.toNat).take (size - buf.length - 1))
  else none

end sockets

/-! ### The class -/

structure InetAddress where
  addr_ : sockaddr_in
deriving DecidableEq, Repr

namespace InetAddress

/-- `InetAddress(const char *ip, uint16_t port)`, where the memory of the object contains `mem`. -/
def ofCStr (_mem : sockaddr_in) (ip : List Char) (port : UInt16) : InetAddress where
  addr_ := sockets.fromIpPort ip port .zero

/-- `InetAddress(string ip, uint16_t port)`: another object is constructed, in the memory `temp`,
and is gone at the end of the body. -/
def ofString (mem temp : sockaddr_in) (ip : List Char) (port : UInt16) : InetAddress :=
  let _temporary := ofCStr temp ip port
  { addr_ := mem }

def toIpPort (a : InetAddress) : Option (List Char) := sockets.toIpPort 32 a.addr_

end InetAddress

/-! ### The text of an address -/

theorem octetOf_unsignedText (b : UInt8) : octetOf (unsignedText b.toNat) = some b := by
  have h : ∀ n < 256, octetOf (unsignedText n) = some (UInt8.ofNat n) := by decide +kernel
  rw [h b.toNat b.toNat_lt, UInt8.ofNat_toNat]

theorem length_unsignedText {n k : ℕ} (hk : 0 < k) (h : n < 10 ^ k) :
    (unsignedText n).length ≤ k := (Nat.length_toDigits_le_iff (by decide) hk).mpr h

theorem dot_notMem_unsignedText (n : ℕ) : '.' ∉ unsignedText n := by
  intro h
  exact absurd (Nat.isDigit_of_mem_toDigits (by decide) (by decide) h) (by decide)

/-- **The library functions are inverse** on dotted quads. -/
theorem inet_pton_inet_ntop (a : in_addr) : inet_pton (inet_ntop a) = some a := by
  have hdot : ∀ l ∈ a.octets.map fun b => unsignedText b.toNat, '.' ∉ l := by
    intro l hl
    obtain ⟨b, -, rfl⟩ := List.mem_map.mp hl
    exact dot_notMem_unsignedText b.toNat
  have hsplit := List.splitOn_intercalate '.' hdot (by simp [in_addr.octets])
  unfold inet_pton inet_ntop
  rw [hsplit]
  simp [in_addr.octets, octetOf_unsignedText]

theorem length_inet_ntop (a : in_addr) : (inet_ntop a).length ≤ 15 := by
  have h : ∀ b : UInt8, (unsignedText b.toNat).length ≤ 3 := fun b =>
    length_unsignedText (by decide) (Nat.lt_of_lt_of_le b.toNat_lt (by decide))
  have h1 := h a.b1
  have h2 := h a.b2
  have h3 := h a.b3
  have h4 := h a.b4
  simp only [inet_ntop, in_addr.octets, List.intercalate, List.map_cons, List.map_nil,
    List.intersperse, List.flatten_cons, List.flatten_nil, List.length_append, List.length_cons,
    List.length_nil]
  omega

theorem networkToHost16_hostToNetwork16 (port : UInt16) :
    sockets.networkToHost16 (sockets.hostToNetwork16 port) = port := by
  have hlt := port.toNat_lt
  obtain ⟨net, hnet⟩ : ∃ n, n = port.toNat % 256 * 256 + port.toNat / 256 := ⟨_, rfl⟩
  have hlow : net % 256 = port.toNat / 256 := by omega
  have hhigh : net / 256 = port.toNat % 256 := by omega
  unfold sockets.networkToHost16 sockets.hostToNetwork16
  rw [← hnet, UInt16.toNat_ofNat', Nat.mod_eq_of_lt (a := net) (by omega), hlow, hhigh,
    Nat.div_add_mod', UInt16.ofNat_toNat]

/-! ### Endpoints -/

/-- The endpoint with the address `a`. -/
def endpoint (a : in_addr) (port : UInt16) : sockaddr_in where
  sin_family := AF_INET
  sin_port := sockets.hostToNetwork16 port
  sin_addr := a
  sin_zero := .replicate 8 0

/-- Both objects hold the same, and each gives the text back with the port. -/
structure ConstructorsAgree (mem mem' temp : sockaddr_in) (a : in_addr) (port : UInt16) :
    Prop where
  same : InetAddress.ofString mem temp (inet_ntop a) port =
    InetAddress.ofCStr mem' (inet_ntop a) port
  string : (InetAddress.ofString mem temp (inet_ntop a) port).toIpPort =
    some (inet_ntop a ++ ':' :: unsignedText port.toNat)
  cstr : (InetAddress.ofCStr mem' (inet_ntop a) port).toIpPort =
    some (inet_ntop a ++ ':' :: unsignedText port.toNat)

section Endpoints

variable (mem mem' temp : sockaddr_in) (a : in_addr) (port : UInt16)

theorem ofCStr_eq : InetAddress.ofCStr mem (inet_ntop a) port = ⟨endpoint a port⟩ := by
  unfold InetAddress.ofCStr sockets.fromIpPort
  rw [inet_pton_inet_ntop]
  rfl

/-- Nothing is cut off. -/
theorem toIpPort_endpoint : (InetAddress.mk (endpoint a port)).toIpPort =
    some (inet_ntop a ++ ':' :: unsignedText port.toNat) := by
  have hip := length_inet_ntop a
  have hport : (unsignedText port.toNat).length ≤ 5 :=
    length_unsignedText (by decide) (Nat.lt_trans port.toNat_lt (by decide))
  have htoIp : sockets.toIp 32 (endpoint a port) = some (inet_ntop a) :=
    if_pos ⟨rfl, by decide⟩
  show sockets.toIpPort 32 (endpoint a port) = _
  unfold sockets.toIpPort
  rw [htoIp, Option.bind_eq_bind, Option.bind_some, if_pos (by omega)]
  show some (_ ++ (':' :: unsignedText (sockets.networkToHost16
    (sockets.hostToNetwork16 port)).toNat).take _) = _
  rw [networkToHost16_hostToNetwork16, List.take_of_length_le]
  rw [List.length_cons]
  omega

/-- Whatever the address, the text ends inside of the buffer. -/
theorem toIpPort_fits {addr : sockaddr_in} {size : ℕ} {text : List Char}
    (h : sockets.toIpPort size addr = some text) : text.length < size := by
  unfold sockets.toIpPort at h
  obtain ⟨buf, -, h⟩ := Option.bind_eq_some_iff.mp h
  split at h
  · next hlt =>
    cases h
    rw [List.length_append, List.length_take]
    omega
  · cases h

/-- **The constructors agree exactly where the memory of the object contained the endpoint**
before the one from a `string` is called. -/
theorem inetAddress_iff : ConstructorsAgree mem mem' temp a port ↔ mem = endpoint a port := by
  constructor
  · intro h
    have hsame := h.same
    rw [ofCStr_eq] at hsame
    exact congrArg InetAddress.addr_ hsame
  · rintro rfl
    have htext := toIpPort_endpoint a port
    refine ⟨(ofCStr_eq mem' a port).symm, htext, ?_⟩
    rw [ofCStr_eq]
    exact htext

/-- An object in zeroed memory: there is not even an address family. -/
theorem not_inetAddress : ¬ ConstructorsAgree .zero .zero .zero ⟨127, 0, 0, 1⟩ 80 ∧
    (InetAddress.ofString .zero .zero (inet_ntop ⟨127, 0, 0, 1⟩) 80).toIpPort = none := by
  constructor
  · intro h
    exact absurd h.same (by decide)
  · decide

end Endpoints
end NetworkStructure
