import CXS.Address.Basic

namespace CXS
namespace IPv4Address

open Address

variable (order : Endian)

def broadCastAddress (a : IPv4Address) (prefix_len : Nat) : Except Fault (Option IPv4Address) :=
  if prefix_len > 32 then
    .ok none
  else
    (CreateMask 4 prefix_len).map fun mask =>
      let s_addr := a.m_addr.s_addr ||| byteswapOnLittleEndian order mask
      some ⟨{ a.m_addr with s_addr := s_addr }⟩

def networkAddress (a : IPv4Address) (prefix_len : Nat) : Except Fault (Option IPv4Address) :=
  if prefix_len > 32 then
    .ok none
  else
    (CreateMask 4 prefix_len).map fun mask =>
      let s_addr := a.m_addr.s_addr &&& byteswapOnLittleEndian order mask
      some ⟨{ a.m_addr with s_addr := s_addr }⟩

def subnetMask (prefix_len : Nat) : Except Fault IPv4Address :=
  (CreateMask 4 prefix_len).map fun mask =>
    ⟨{
      sin_family := AF_INET
      sin_port := 0
      s_addr := ~~~byteswapOnLittleEndian order mask
      sin_zero := Vector.replicate 8 0
    }⟩

def address (a : IPv4Address) : BitVec (8 * 4) :=
  byteswapOnLittleEndian order a.m_addr.s_addr

/--
The mask, the network and the broadcast address of the subnet of `a` with the first `prefix_len` bits.
-/
structure Subnet (a : IPv4Address) (prefix_len : Nat) (subnet naddr baddr : IPv4Address) : Prop
    where
  leading : ∀ i < 32, (subnet.address order).getMsbD i = decide (i < prefix_len)
  network : naddr.address order = a.address order &&& subnet.address order
  broadcast : baddr.address order = a.address order ||| ~~~subnet.address order
  network_keeps : naddr.m_addr.sin_family = a.m_addr.sin_family
    ∧ naddr.m_addr.sin_port = a.m_addr.sin_port
  broadcast_keeps : baddr.m_addr.sin_family = a.m_addr.sin_family
    ∧ baddr.m_addr.sin_port = a.m_addr.sin_port
  idempotent : networkAddress order naddr prefix_len = .ok (some naddr)
  le : naddr.address order ≤ a.address order ∧ a.address order ≤ baddr.address order

section

variable {order} {a : IPv4Address} {prefix_len : Nat} {host : BitVec (8 * 4)}

theorem broadCastAddress_eq (hle : prefix_len ≤ 32) (hmask : CreateMask 4 prefix_len = .ok host)
    : a.broadCastAddress order prefix_len
        = .ok (some ⟨{ a.m_addr with
            s_addr := a.m_addr.s_addr ||| byteswapOnLittleEndian order host }⟩) := by
  unfold broadCastAddress
  rw [if_neg (by omega), hmask]
  rfl

theorem networkAddress_eq (hle : prefix_len ≤ 32) (hmask : CreateMask 4 prefix_len = .ok host)
    : a.networkAddress order prefix_len
        = .ok (some ⟨{ a.m_addr with
            s_addr := a.m_addr.s_addr &&& byteswapOnLittleEndian order host }⟩) := by
  unfold networkAddress
  rw [if_neg (by omega), hmask]
  rfl

theorem subnetMask_eq (hmask : CreateMask 4 prefix_len = .ok host)
    : ∃ subnet, subnetMask order prefix_len = .ok subnet ∧ subnet.address order = ~~~host := by
  unfold subnetMask
  rw [hmask]
  refine ⟨_, rfl, ?_⟩
  unfold address
  rw [byteswapOnLittleEndian_not, byteswapOnLittleEndian_self]

theorem subnetMask_fault : subnetMask order 0 = .error .shiftTooWide := rfl

theorem and_le {w : Nat} (x m : BitVec w) : x &&& m ≤ x := by
  rw [BitVec.le_def, BitVec.toNat_and]
  exact Nat.and_le_left

theorem le_or {w : Nat} (x m : BitVec w) : x ≤ x ||| m := by
  rw [BitVec.le_def, BitVec.toNat_or]
  exact Nat.left_le_or

theorem subnet_iff_of_mask (hle : prefix_len ≤ 32) (hmask : CreateMask 4 prefix_len = .ok host)
    (hbits : ∀ i < 32, host.getLsbD i = decide (i < 32 - prefix_len)) {subnet : IPv4Address}
    (hsubnet : subnet.address order = ~~~host)
    : Subnet order a prefix_len subnet
        ⟨{ a.m_addr with s_addr := a.m_addr.s_addr &&& byteswapOnLittleEndian order host }⟩
        ⟨{ a.m_addr with s_addr := a.m_addr.s_addr ||| byteswapOnLittleEndian order host }⟩
      ↔ a.address order = 0 := by
  have hnaddr : address order ⟨{ a.m_addr with
      s_addr := a.m_addr.s_addr &&& byteswapOnLittleEndian order host }⟩
      = a.address order &&& host := by
    unfold address
    rw [byteswapOnLittleEndian_and, byteswapOnLittleEndian_self]
  have hbaddr : address order ⟨{ a.m_addr with
      s_addr := a.m_addr.s_addr ||| byteswapOnLittleEndian order host }⟩
      = a.address order ||| host := by
    unfold address
    rw [byteswapOnLittleEndian_or, byteswapOnLittleEndian_self]
  constructor
  . intro h
    have hnetwork := h.network
    rw [hnaddr, hsubnet] at hnetwork
    exact (and_eq_and_not_iff _ _).mp hnetwork
  . intro h
    constructor
    . intro i hi
      have hbit := hbits (32 - 1 - i) (by omega)
      rw [hsubnet, BitVec.getMsbD_eq_getLsbD, BitVec.getLsbD_not, hbit, decide_eq_true hi,
        decide_eq_true (show 32 - 1 - i < 32 by omega), Bool.true_and, Bool.true_and,
        ← decide_not, decide_eq_decide]
      omega
    . rw [hnaddr, hsubnet]
      exact (and_eq_and_not_iff _ _).mpr h
    . rw [hbaddr, hsubnet, BitVec.not_not]
    . exact ⟨rfl, rfl⟩
    . exact ⟨rfl, rfl⟩
    . rw [networkAddress_eq hle hmask]
      simp only [BitVec.and_assoc, BitVec.and_self]
    . rw [hnaddr, hbaddr]
      exact ⟨and_le _ _, le_or _ _⟩

end

theorem subnet_iff (order : Endian) (a : IPv4Address) {prefix_len : Nat} (hle : prefix_len ≤ 32)
    : (∃ subnet naddr baddr, subnetMask order prefix_len = .ok subnet
        ∧ a.networkAddress order prefix_len = .ok (some naddr)
        ∧ a.broadCastAddress order prefix_len = .ok (some baddr)
        ∧ Subnet order a prefix_len subnet naddr baddr)
      ↔ a.address order = 0 ∧ 1 ≤ prefix_len := by
  cases prefix_len with
  | zero =>
    rw [subnetMask_fault]
    simp
  | succ len =>
    obtain ⟨host, hmask, hbits⟩ := @createMask_eq_ok 4 (len + 1) (by decide) hle (by omega)
    obtain ⟨subnet, hsubnet, haddress⟩ := @subnetMask_eq order _ _ hmask
    have hiff := @subnet_iff_of_mask order a _ _ hle hmask hbits _ haddress
    rw [hsubnet, networkAddress_eq hle hmask, broadCastAddress_eq hle hmask, ← hiff]
    constructor
    . rintro ⟨_, _, _, hs, hn, hb, h⟩
      cases hs
      cases hn
      cases hb
      exact ⟨h, by omega⟩
    . intro h
      exact ⟨_, _, _, rfl, rfl, rfl, h.1⟩

theorem subnet_iff_any_address
    : ∃ subnet naddr baddr, subnetMask .little 24 = .ok subnet
        ∧ (new .little 0 80).networkAddress .little 24 = .ok (some naddr)
        ∧ (new .little 0 80).broadCastAddress .little 24 = .ok (some baddr)
        ∧ Subnet .little (new .little 0 80) 24 subnet naddr baddr :=
  (subnet_iff .little (new .little 0 80) (by decide)).mpr ⟨by decide, by decide⟩

-- 10.1.2.3 with 24 bits: the network address is 0.0.0.3
theorem networkAddress_keeps_host
    : ∃ naddr, (new .little 0x0a010203 80).networkAddress .little 24 = .ok (some naddr)
        ∧ naddr.address .little = 0x00000003
        ∧ ¬∃ subnet baddr, subnetMask .little 24 = .ok subnet
          ∧ Subnet .little (new .little 0x0a010203 80) 24 subnet naddr baddr := by
  refine ⟨_, rfl, by decide, ?_⟩
  rintro ⟨subnet, baddr, hsubnet, h⟩
  cases hsubnet
  have hnetwork := h.network
  revert hnetwork
  decide

end IPv4Address
end CXS
