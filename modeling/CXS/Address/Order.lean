import CXS.Address.Basic
import CXS.Util.Memcmp

/-!
This module contains the comparison operators of `Address` from `code/address.cc`, with the address
classes as far as these see them: the memory at `getAddr` and the length `getAddrLen`.

The length of a `UnixAddress` is whatever `setAddrLen` was called with. It may go beyond `m_addr`, as
long as there is memory behind the structure.
-/

namespace CXS

def AF_UNIX : Nat := 1

structure sockaddr where
  sa_family : BitVec (8 * 2)
  sa_data : Vector UInt8 14
  deriving DecidableEq

structure sockaddr_un where
  sun_family : BitVec (8 * 2)
  sun_path : Vector UInt8 108
  deriving DecidableEq

structure UnixAddress where
  m_addr : sockaddr_un
  m_addr_len : UInt32
  behind : List UInt8
  readable : m_addr_len.toNat ≤ 110 + behind.length
  deriving DecidableEq

structure UnknownAddress where
  m_addr : sockaddr
  deriving DecidableEq

namespace UnixAddress

def MAX_PATH_LEN : Nat := 107

def sun_path_offset : Nat := 2

def new (behind : List UInt8) : UnixAddress where
  m_addr := {
    sun_family := BitVec.ofNat (8 * 2) AF_UNIX
    sun_path := Vector.replicate 108 0
  }
  m_addr_len := UInt32.ofNat (sun_path_offset + MAX_PATH_LEN)
  behind := behind
  readable := Nat.le_trans (by decide) (Nat.le_add_right 110 behind.length)

-- the length of the path with its `\0`, which an abstract path does not have
def pathLen (path : List UInt8) : UInt32 :=
  let m_addr_len := UInt32.ofNat (path.length + 1)
  if path.head? = some 0 then
    m_addr_len - 1
  else
    m_addr_len

theorem toNat_add_offset {len : UInt32} (h : ¬108 < len.toNat)
    : (len + UInt32.ofNat sun_path_offset).toNat = len.toNat + 2 := by
  have hoffset : (UInt32.ofNat sun_path_offset).toNat = 2 := by decide
  rw [UInt32.toNat_add, hoffset]
  omega

-- `UnixAddress(path)`
def ofPath (path behind : List UInt8) : Except String UnixAddress :=
  let m_addr_len := pathLen path
  if h : 108 < m_addr_len.toNat then
    .error "path is too long"
  else
    .ok {
      m_addr := {
        sun_family := BitVec.ofNat (8 * 2) AF_UNIX
        sun_path := Vector.ofFn fun i => if i < m_addr_len.toNat then (path ++ [0]).getD i 0 else 0
      }
      m_addr_len := m_addr_len + UInt32.ofNat sun_path_offset
      behind := behind
      readable := by
        rw [toNat_add_offset h]
        omega
    }

def setAddrLen (a : UnixAddress) (v : UInt32) (h : v.toNat ≤ 110 + a.behind.length) : UnixAddress :=
  { a with m_addr_len := v, readable := h }

def pathBytes (path : List UInt8) : List UInt8 :=
  if path.head? = some 0 then path else path ++ [0]

theorem toNat_pathLen {path : List UInt8} (h : path.length + 1 < 2 ^ 32)
    : (pathLen path).toNat = (pathBytes path).length := by
  have hnat : (UInt32.ofNat (path.length + 1)).toNat = path.length + 1 :=
    UInt32.toNat_ofNat_of_lt' h
  unfold pathLen pathBytes
  dsimp only
  split
  . rw [UInt32.toNat_sub, hnat]
    change (2 ^ 32 - 1 + (path.length + 1)) % 2 ^ 32 = path.length
    omega
  . rw [hnat, List.length_append, List.length_singleton]

theorem length_pathBytes_le (path : List UInt8)
    : (pathBytes path).length ≤ (path ++ [0]).length := by
  unfold pathBytes
  split
  . simp
  . exact Nat.le_refl _

theorem take_pathBytes (path : List UInt8)
    : (path ++ [0]).take (pathBytes path).length = pathBytes path := by
  unfold pathBytes
  split
  . exact List.take_left
  . exact List.take_length

theorem take_ofFn (bytes : List UInt8) {n m : Nat} (hnm : n ≤ m) (hlen : n ≤ bytes.length)
    : ((Vector.ofFn fun i : Fin m => if i < n then bytes.getD i 0 else 0).toList).take n
      = bytes.take n := by
  apply List.ext_getElem
  . simp [hnm, hlen]
  . intro i hi hi'
    have hin : i < n := by
      rw [List.length_take] at hi'
      omega
    have hib : i < bytes.length := by omega
    simp [hin, hib]

end UnixAddress

section Load

variable (order : Endian)

def sockaddr.load (addr : sockaddr) : List UInt8 :=
  order.load addr.sa_family ++ addr.sa_data.toList

def sockaddr_in.load (addr : sockaddr_in) : List UInt8 :=
  order.load (BitVec.ofNat (8 * 2) addr.sin_family) ++ order.load addr.sin_port
    ++ order.load addr.s_addr ++ addr.sin_zero.toList

def sockaddr_in6.load (addr : sockaddr_in6) : List UInt8 :=
  order.load (BitVec.ofNat (8 * 2) addr.sin6_family) ++ order.load addr.sin6_port
    ++ order.load addr.sin6_flowinfo ++ addr.sin6_addr.toList ++ order.load addr.sin6_scope_id

def sockaddr_un.load (addr : sockaddr_un) : List UInt8 :=
  order.load addr.sun_family ++ addr.sun_path.toList

@[simp]
theorem sockaddr.length_load (addr : sockaddr) : (addr.load order).length = 16 := by
  simp [sockaddr.load, Endian.length_load]

@[simp]
theorem sockaddr_in.length_load (addr : sockaddr_in) : (addr.load order).length = 16 := by
  simp [sockaddr_in.load, Endian.length_load]

@[simp]
theorem sockaddr_in6.length_load (addr : sockaddr_in6) : (addr.load order).length = 28 := by
  simp [sockaddr_in6.load, Endian.length_load]

@[simp]
theorem sockaddr_un.length_load (addr : sockaddr_un) : (addr.load order).length = 110 := by
  simp [sockaddr_un.load, Endian.length_load]

end Load

inductive Address where
  | ipv4 (a : IPv4Address)
  | ipv6 (a : IPv6Address)
  | unix (a : UnixAddress)
  | unknown (a : UnknownAddress)
  deriving DecidableEq

namespace Address

variable (order : Endian)

def getAddr (a : Address) : List UInt8 :=
  match a with
  | .ipv4 a => a.m_addr.load order
  | .ipv6 a => a.m_addr.load order
  | .unix a => a.m_addr.load order ++ a.behind
  | .unknown a => a.m_addr.load order

def getAddrLen (a : Address) : Nat :=
  match a with
  | .ipv4 _ => 16
  | .ipv6 _ => 28
  | .unix a => a.m_addr_len.toNat
  | .unknown _ => 16

def lt (a other : Address) : Bool :=
  let minlen := min a.getAddrLen other.getAddrLen
  let result := memcmp (a.getAddr order) (other.getAddr order) minlen
  if result < 0 then
    true
  else if 0 < result then
    false
  else
    decide (a.getAddrLen < other.getAddrLen)

def eq (a rhs : Address) : Bool :=
  a.getAddrLen == rhs.getAddrLen
    && memcmp (a.getAddr order) (rhs.getAddr order) a.getAddrLen == 0

def ne (a rhs : Address) : Bool :=
  !a.eq order rhs

/-- The bytes that an address is. -/
def raw (a : Address) : List UInt8 :=
  (a.getAddr order).take a.getAddrLen

theorem getAddrLen_le (a : Address) : a.getAddrLen ≤ (a.getAddr order).length := by
  cases a with
  | ipv4 a => simp [getAddr, getAddrLen]
  | ipv6 a => simp [getAddr, getAddrLen]
  | unix a => simpa [getAddr, getAddrLen] using a.readable
  | unknown a => simp [getAddr, getAddrLen]

theorem length_raw (a : Address) : (a.raw order).length = a.getAddrLen := by
  unfold raw
  rw [List.length_take]
  exact Nat.min_eq_left (a.getAddrLen_le order)

theorem take_raw (a : Address) {n : Nat} (h : n ≤ a.getAddrLen)
    : (a.raw order).take n = (a.getAddr order).take n := by
  unfold raw
  rw [List.take_take, Nat.min_eq_left h]

theorem lt_eq_true (a b : Address)
    : a.lt order b = true
      ↔ memcmp (a.getAddr order) (b.getAddr order) (min a.getAddrLen b.getAddrLen) < 0
        ∨ memcmp (a.getAddr order) (b.getAddr order) (min a.getAddrLen b.getAddrLen) = 0
          ∧ a.getAddrLen < b.getAddrLen := by
  unfold lt
  dsimp only
  split
  . next hneg => simp [hneg]
  . next hneg =>
    split
    . next hpos =>
      simp only [Bool.false_eq_true, false_iff]
      omega
    . next hpos =>
      rw [decide_eq_true_iff]
      omega

theorem lt_iff (a b : Address) : a.lt order b = true ↔ a.raw order < b.raw order := by
  have hmin : min a.getAddrLen b.getAddrLen = min (a.raw order).length (b.raw order).length := by
    rw [length_raw, length_raw]
  have hlea : min a.getAddrLen b.getAddrLen ≤ a.getAddrLen := Nat.min_le_left _ _
  have hleb : min a.getAddrLen b.getAddrLen ≤ b.getAddrLen := Nat.min_le_right _ _
  have ha := Nat.le_trans hlea (a.getAddrLen_le order)
  have hb := Nat.le_trans hleb (b.getAddrLen_le order)
  rw [lt_eq_true, memcmp_neg_iff ha hb, memcmp_eq_zero_iff ha hb, List.lt_iff_take_min hmin,
    take_raw order a hlea, take_raw order b hleb, length_raw, length_raw]

theorem eq_iff (a b : Address) : a.eq order b = true ↔ a.raw order = b.raw order := by
  unfold eq
  rw [Bool.and_eq_true, beq_iff_eq, beq_iff_eq]
  constructor
  . rintro ⟨hlen, hzero⟩
    have hb : a.getAddrLen ≤ (b.getAddr order).length := hlen ▸ b.getAddrLen_le order
    have htake := (memcmp_eq_zero_iff (a.getAddrLen_le order) hb).mp hzero
    unfold raw
    rw [htake, hlen]
  . intro h
    have hlen : a.getAddrLen = b.getAddrLen := by
      rw [← length_raw order a, ← length_raw order b, h]
    have hb : a.getAddrLen ≤ (b.getAddr order).length := hlen ▸ b.getAddrLen_le order
    refine ⟨hlen, (memcmp_eq_zero_iff (a.getAddrLen_le order) hb).mpr ?_⟩
    rw [← take_raw order a (Nat.le_refl _), ← take_raw order b (Nat.le_of_eq hlen), h]

theorem take_family (family : BitVec (8 * 2)) (rest : List UInt8) (n : Nat)
    : (order.load family ++ rest).take (n + 2) = order.load family ++ rest.take n := by
  have hlen : (order.load family).length = 2 := Endian.length_load order family
  rw [List.take_append, hlen, Nat.add_sub_cancel, List.take_of_length_le (by omega)]

theorem raw_ofPath {path behind : List UInt8} {a : UnixAddress} (hlen : path.length + 1 < 2 ^ 32)
    (h : UnixAddress.ofPath path behind = .ok a)
    : (Address.unix a).raw order
      = order.load (BitVec.ofNat (8 * 2) AF_UNIX) ++ UnixAddress.pathBytes path := by
  unfold UnixAddress.ofPath at h
  dsimp only at h
  split at h
  . cases h
  . next hle =>
    injection h with h
    have h108 : (UnixAddress.pathLen path).toNat ≤ 108 := Nat.le_of_not_lt hle
    have hpath := UnixAddress.toNat_pathLen hlen
    have hbytes := UnixAddress.length_pathBytes_le path
    rw [← hpath] at hbytes
    rw [← h]
    unfold raw getAddr getAddrLen sockaddr_un.load
    dsimp only
    rw [UnixAddress.toNat_add_offset hle, List.append_assoc, take_family,
      List.take_append_of_le_length (by simpa using h108), UnixAddress.take_ofFn _ h108 hbytes, hpath,
      UnixAddress.take_pathBytes]

theorem eq_ofPath_iff {path path' behind behind' : List UInt8} {a a' : UnixAddress}
    (hlen : path.length + 1 < 2 ^ 32) (h : UnixAddress.ofPath path behind = .ok a)
    (hlen' : path'.length + 1 < 2 ^ 32) (h' : UnixAddress.ofPath path' behind' = .ok a')
    : (Address.unix a).eq order (.unix a')
      ↔ UnixAddress.pathBytes path = UnixAddress.pathBytes path' := by
  rw [eq_iff, raw_ofPath order hlen h, raw_ofPath order hlen' h', List.append_cancel_left_eq]

theorem raw_trichotomy (a b : Address)
    : a.raw order < b.raw order ∨ a.raw order = b.raw order ∨ b.raw order < a.raw order := by
  rcases List.le_total (a.raw order) (b.raw order) with hle | hle
  . rcases List.le_iff_lt_or_eq.mp hle with hlt | heq
    . exact .inl hlt
    . exact .inr (.inl heq)
  . rcases List.le_iff_lt_or_eq.mp hle with hlt | heq
    . exact .inr (.inr hlt)
    . exact .inr (.inl heq.symm)

protected theorem lt_irrefl (a : Address) : ¬a.lt order a := by
  rw [lt_iff]
  exact List.lt_irrefl (a.raw order)

protected theorem lt_trans {a b c : Address} (hab : a.lt order b) (hbc : b.lt order c)
    : a.lt order c := by
  rw [lt_iff] at hab hbc ⊢
  exact List.lt_trans hab hbc

protected theorem lt_asymm {a b : Address} (h : a.lt order b) : ¬b.lt order a := by
  intro h'
  exact Address.lt_irrefl order a (Address.lt_trans order h h')

theorem not_eq_of_lt {a b : Address} (h : a.lt order b) : ¬a.eq order b := by
  intro heq
  rw [lt_iff, (eq_iff order a b).mp heq] at h
  exact List.lt_irrefl (b.raw order) h

protected theorem eq_comm (a b : Address) : a.eq order b = b.eq order a := by
  rw [Bool.eq_iff_iff, eq_iff, eq_iff]
  exact ⟨Eq.symm, Eq.symm⟩

theorem lt_or_eq_or_gt (a b : Address) : a.lt order b ∨ a.eq order b ∨ b.lt order a := by
  rw [lt_iff, eq_iff, lt_iff]
  exact raw_trichotomy order a b

theorem eq_iff_not_lt (a b : Address) : a.eq order b ↔ ¬a.lt order b ∧ ¬b.lt order a := by
  constructor
  . intro h
    refine ⟨?_, ?_⟩
    . intro hlt
      exact not_eq_of_lt order hlt h
    . intro hgt
      exact not_eq_of_lt order hgt (Address.eq_comm order a b ▸ h)
  . rintro ⟨hlt, hgt⟩
    rcases lt_or_eq_or_gt order a b with h | h | h
    . exact absurd h hlt
    . exact h
    . exact absurd h hgt

theorem ne_iff_lt_or_gt (a b : Address) : a.ne order b ↔ a.lt order b ∨ b.lt order a := by
  unfold ne
  rw [Bool.not_eq_true', ← Bool.not_eq_true, eq_iff_not_lt, not_and_or, not_not, not_not]

/--
The operators are a strict total order of the addresses of all classes by the `getAddrLen` bytes at
`getAddr`: exactly one of `a < b`, `b < a` and `a == b` holds.
-/
theorem lt_strict_total_order
    : (∀ a b : Address, a.eq order b ↔ a.raw order = b.raw order)
      ∧ (∀ a : Address, ¬a.lt order a)
      ∧ (∀ a b c : Address, a.lt order b → b.lt order c → a.lt order c)
      ∧ (∀ a b : Address,
          a.lt order b ∧ ¬b.lt order a ∧ ¬a.eq order b
          ∨ ¬a.lt order b ∧ b.lt order a ∧ ¬a.eq order b
          ∨ ¬a.lt order b ∧ ¬b.lt order a ∧ a.eq order b)
      ∧ ∀ a b : Address, a.eq order b ↔ ¬a.lt order b ∧ ¬b.lt order a := by
  refine ⟨eq_iff order, Address.lt_irrefl order, ?_, ?_, eq_iff_not_lt order⟩
  . intro a b c
    exact Address.lt_trans order
  . intro a b
    rcases lt_or_eq_or_gt order a b with hlt | heq | hgt
    . exact .inl ⟨hlt, Address.lt_asymm order hlt, not_eq_of_lt order hlt⟩
    . obtain ⟨hlt, hgt⟩ := (eq_iff_not_lt order a b).mp heq
      exact .inr (.inr ⟨hlt, hgt, heq⟩)
    . rw [Address.eq_comm order a b]
      exact .inr (.inl ⟨Address.lt_asymm order hgt, hgt, not_eq_of_lt order hgt⟩)

end Address
end CXS
