import CXS.ByteArray.RoundTrip

/-!
This module contains the address classes of `code/address.cc` that hold an IP address, with
`byteswapOnLittleEndian` from `code/endian.h`.

The fields of the socket address structures are the bytes in memory, and those of more than one byte
are the values that the host reads there. `order` is `CXS_BYTE_ORDER`, which is the byte order of the
host. Signed arithmetic wraps. A shift by the width of its type or more and an index past the end of
an array are undefined behaviour.
-/

namespace CXS

def byteswapOnLittleEndian {n : Nat} (order : Endian) (t : BitVec (8 * n)) : BitVec (8 * n) :=
  match order with
  | .little => byteswap t
  | .big => t

section Byteswap

variable {n : Nat}

theorem getLsbD_byteswap (value : BitVec (8 * n)) {i : Nat} (hi : i < 8 * n)
    : (byteswap value).getLsbD i = value.getLsbD (8 * (n - 1 - i / 8) + i % 8) := by
  have hlen : (bytesOf n value.toNat).length = n := length_bytesOf n _
  have hbyte : i / 8 < (bytesOf n value.toNat).reverse.length := by
    rw [List.length_reverse, hlen]
    omega
  have hreverse : (bytesOf n value.toNat).reverse.getD (i / 8) 0
      = (bytesOf n value.toNat).getD (n - 1 - i / 8) 0 := by
    rw [List.getD_eq_getElem?_getD, List.getD_eq_getElem?_getD,
      List.getElem?_reverse (by rw [hlen]; omega), hlen]
  unfold byteswap
  rw [BitVec.getLsbD_ofNat, decide_eq_true hi, Bool.true_and, testBit_ofBytes, hreverse,
    testBit_bytesOf _ (by omega) (by omega)]
  rfl

theorem byteswap_and (a b : BitVec (8 * n)) : byteswap (a &&& b) = byteswap a &&& byteswap b := by
  apply BitVec.eq_of_getLsbD_eq
  intro i hi
  rw [BitVec.getLsbD_and, getLsbD_byteswap _ hi, getLsbD_byteswap _ hi, getLsbD_byteswap _ hi,
    BitVec.getLsbD_and]

theorem byteswap_or (a b : BitVec (8 * n)) : byteswap (a ||| b) = byteswap a ||| byteswap b := by
  apply BitVec.eq_of_getLsbD_eq
  intro i hi
  rw [BitVec.getLsbD_or, getLsbD_byteswap _ hi, getLsbD_byteswap _ hi, getLsbD_byteswap _ hi,
    BitVec.getLsbD_or]

theorem byteswap_not (a : BitVec (8 * n)) : byteswap (~~~a) = ~~~byteswap a := by
  apply BitVec.eq_of_getLsbD_eq
  intro i hi
  have hplace : 8 * (n - 1 - i / 8) + i % 8 < 8 * n := by omega
  rw [BitVec.getLsbD_not, getLsbD_byteswap _ hi, getLsbD_byteswap _ hi, BitVec.getLsbD_not,
    decide_eq_true hi, decide_eq_true hplace]

variable (order : Endian)

@[simp]
theorem byteswapOnLittleEndian_self (a : BitVec (8 * n))
    : byteswapOnLittleEndian order (byteswapOnLittleEndian order a) = a := by
  cases order with
  | little => exact byteswap_byteswap a
  | big => rfl

theorem byteswapOnLittleEndian_and (a b : BitVec (8 * n))
    : byteswapOnLittleEndian order (a &&& b)
        = byteswapOnLittleEndian order a &&& byteswapOnLittleEndian order b := by
  cases order with
  | little => exact byteswap_and a b
  | big => rfl

theorem byteswapOnLittleEndian_or (a b : BitVec (8 * n))
    : byteswapOnLittleEndian order (a ||| b)
        = byteswapOnLittleEndian order a ||| byteswapOnLittleEndian order b := by
  cases order with
  | little => exact byteswap_or a b
  | big => rfl

theorem byteswapOnLittleEndian_not (a : BitVec (8 * n))
    : byteswapOnLittleEndian order (~~~a) = ~~~byteswapOnLittleEndian order a := by
  cases order with
  | little => exact byteswap_not a
  | big => rfl

end Byteswap

def AF_INET : Nat := 2

def AF_INET6 : Nat := 10

structure sockaddr_in where
  sin_family : Nat
  sin_port : BitVec (8 * 2)
  s_addr : BitVec (8 * 4)
  sin_zero : Vector UInt8 8
  deriving DecidableEq

structure sockaddr_in6 where
  sin6_family : Nat
  sin6_port : BitVec (8 * 2)
  sin6_flowinfo : BitVec (8 * 4)
  sin6_addr : Vector UInt8 16
  sin6_scope_id : BitVec (8 * 4)
  deriving DecidableEq

namespace Address

inductive Fault where
  | shiftTooWide
  | outOfBounds
  deriving DecidableEq, Repr

-- `CreateMask<T>` for a type `T` of `n` bytes. `1` is an `int`, and the width of the shift is a
-- `size_t`.
def CreateMask (n bits : Nat) : Except Fault (BitVec (8 * n)) :=
  let shift := (n * 8 + 2 ^ 64 - bits) % 2 ^ 64
  if shift < 32 then
    .ok (((1#32 <<< shift) - 1#32).signExtend (8 * n))
  else
    .error .shiftTooWide

theorem getLsbD_one_shiftLeft_sub {s i : Nat} (hs : s < 32)
    : ((1#32 <<< s) - 1#32).getLsbD i = decide (i < s) := by
  have hpow : 2 ^ s < 2 ^ 32 := Nat.pow_lt_pow_right (by decide) hs
  have hpos : 0 < 2 ^ s := Nat.two_pow_pos s
  have hshift : (1#32 <<< s).toNat = 2 ^ s := by
    rw [BitVec.toNat_shiftLeft, BitVec.toNat_ofNat, Nat.shiftLeft_eq,
      Nat.mod_eq_of_lt (show 1 < 2 ^ 32 by decide), Nat.one_mul, Nat.mod_eq_of_lt hpow]
  have hsub : ((1#32 <<< s) - 1#32).toNat = 2 ^ s - 1 := by
    rw [BitVec.toNat_sub, hshift, BitVec.toNat_ofNat, Nat.mod_eq_of_lt (show 1 < 2 ^ 32 by decide)]
    omega
  rw [BitVec.getLsbD, hsub, Nat.testBit_two_pow_sub_one]

theorem createMask_eq_ok {n bits : Nat} (hn : n ≤ 4) (hbits : bits ≤ 8 * n)
    (hshift : 8 * n - bits < 32)
    : ∃ mask, CreateMask n bits = .ok mask
      ∧ ∀ i < 8 * n, mask.getLsbD i = decide (i < 8 * n - bits) := by
  have heq : (n * 8 + 2 ^ 64 - bits) % 2 ^ 64 = 8 * n - bits := by omega
  refine ⟨((1#32 <<< (8 * n - bits)) - 1#32).signExtend (8 * n), ?_, ?_⟩
  . unfold CreateMask
    rw [heq, if_pos hshift]
  . intro i hi
    rw [BitVec.getLsbD_signExtend, decide_eq_true hi, Bool.true_and,
      if_pos (show i < 32 by omega)]
    exact getLsbD_one_shiftLeft_sub hshift

theorem and_eq_and_not_iff {w : Nat} (x m : BitVec w) : x &&& m = x &&& ~~~m ↔ x = 0#w := by
  constructor
  . intro h
    apply BitVec.eq_of_getLsbD_eq
    intro i hi
    have hbit := congrArg (fun y => y.getLsbD i) h
    simp only [BitVec.getLsbD_and, BitVec.getLsbD_not, decide_eq_true hi, Bool.true_and] at hbit
    rw [BitVec.getLsbD_zero]
    cases hx : x.getLsbD i with
    | false => rfl
    | true =>
      rw [hx] at hbit
      cases hm : m.getLsbD i <;> simp [hm] at hbit
  . intro h
    rw [h, BitVec.zero_and, BitVec.zero_and]

theorem or_not_eq_or_iff {w : Nat} (x m : BitVec w) : x ||| ~~~m = x ||| m ↔ x = BitVec.allOnes w := by
  constructor
  . intro h
    apply BitVec.eq_of_getLsbD_eq
    intro i hi
    have hbit := congrArg (fun y => y.getLsbD i) h
    simp only [BitVec.getLsbD_or, BitVec.getLsbD_not, decide_eq_true hi, Bool.true_and] at hbit
    rw [BitVec.getLsbD_allOnes, decide_eq_true hi]
    cases hx : x.getLsbD i with
    | true => rfl
    | false =>
      rw [hx] at hbit
      cases hm : m.getLsbD i <;> simp [hm] at hbit
  . intro h
    rw [h, BitVec.allOnes_or, BitVec.allOnes_or]

end Address

structure IPv4Address where
  m_addr : sockaddr_in
  deriving DecidableEq

structure IPv6Address where
  m_addr : sockaddr_in6
  deriving DecidableEq

namespace IPv4Address

variable (order : Endian)

-- `IPv4Address(ip, port)`
def new (ip : BitVec (8 * 4)) (port : BitVec (8 * 2)) : IPv4Address where
  m_addr := {
    sin_family := AF_INET
    sin_port := byteswapOnLittleEndian order port
    s_addr := byteswapOnLittleEndian order ip
    sin_zero := Vector.replicate 8 0
  }

def getPort (a : IPv4Address) : BitVec (8 * 2) :=
  byteswapOnLittleEndian order a.m_addr.sin_port

end IPv4Address

namespace IPv6Address

variable (order : Endian)

-- `IPv6Address(address, port)`
def new (address : Vector UInt8 16) (port : BitVec (8 * 2)) : IPv6Address where
  m_addr := {
    sin6_family := AF_INET6
    sin6_port := byteswapOnLittleEndian order port
    sin6_flowinfo := 0
    sin6_addr := address
    sin6_scope_id := 0
  }

def getPort (a : IPv6Address) : BitVec (8 * 2) :=
  byteswapOnLittleEndian order a.m_addr.sin6_port

end IPv6Address
end CXS
