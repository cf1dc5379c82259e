import CXS.Address.Basic

namespace CXS
namespace IPv6Address

open Address

-- `for (i : is) bytes[i] = value;`
def fill (bytes : Vector UInt8 16) (is : List Nat) (value : UInt8) : Vector UInt8 16 :=
  is.foldl (fun bytes i => bytes.setIfInBounds i value) bytes

def broadCastAddress (a : IPv6Address) (prefix_len : Nat) : Except Fault IPv6Address :=
  (CreateMask 1 (prefix_len % 8)).bind fun mask =>
    if h : prefix_len / 8 < 16 then
      let baddr := a.m_addr.sin6_addr
      let baddr := baddr.set (prefix_len / 8) (baddr[prefix_len / 8] ||| ~~~UInt8.ofBitVec mask)
      let first := prefix_len / 8 + 1
      .ok ⟨{ a.m_addr with sin6_addr := fill baddr (List.range' first (16 - first)) 0xff }⟩
    else
      .error .outOfBounds

def networkAddress (a : IPv6Address) (prefix_len : Nat) : Except Fault IPv6Address :=
  (CreateMask 1 (prefix_len % 8)).bind fun mask =>
    if h : prefix_len / 8 < 16 then
      let naddr := a.m_addr.sin6_addr
      let naddr := naddr.set (prefix_len / 8) (naddr[prefix_len / 8] &&& UInt8.ofBitVec mask)
      let first := prefix_len / 8 + 1
      .ok ⟨{ a.m_addr with sin6_addr := fill naddr (List.range' first (16 - first)) 0x00 }⟩
    else
      .error .outOfBounds

def subnetMask (prefix_len : Nat) : Except Fault IPv6Address :=
  (CreateMask 1 (prefix_len % 8)).bind fun mask =>
    if h : prefix_len / 8 < 16 then
      let subnet := Vector.replicate 16 0
      let subnet := subnet.set (prefix_len / 8) (~~~UInt8.ofBitVec mask)
      .ok ⟨{
        sin6_family := AF_INET6
        sin6_port := 0
        sin6_flowinfo := 0
        sin6_addr := fill subnet (List.range (prefix_len / 8)) 0xff
        sin6_scope_id := 0
      }⟩
    else
      .error .outOfBounds

def byte (a : IPv6Address) (i : Fin 16) : UInt8 :=
  a.m_addr.sin6_addr[i.val]

def IsMask (prefix_len : Nat) (subnet : IPv6Address) : Prop :=
  ∀ (i : Fin 16) (k : Nat), k < 8
    → (subnet.byte i).toBitVec.getMsbD k = decide (8 * i.val + k < prefix_len)

def IsNetwork (a subnet naddr : IPv6Address) : Prop :=
  ∀ i, naddr.byte i = a.byte i &&& subnet.byte i

def IsBroadcast (a subnet baddr : IPv6Address) : Prop :=
  ∀ i, baddr.byte i = a.byte i ||| ~~~subnet.byte i

def KeepsPrefix (a : IPv6Address) (prefix_len : Nat) (b : IPv6Address) : Prop :=
  ∀ i : Fin 16, 8 * i.val + 8 ≤ prefix_len → b.byte i = a.byte i

theorem getElem_fill (bytes : Vector UInt8 16) (is : List Nat) (value : UInt8) (i : Fin 16)
    : (fill bytes is value)[i.val] = if i.val ∈ is then value else bytes[i.val] := by
  unfold fill
  induction is generalizing bytes with
  | nil => simp
  | cons k is ih =>
    rw [List.foldl_cons, ih, Vector.getElem_setIfInBounds]
    simp only [List.mem_cons]
    by_cases hmem : i.val ∈ is
    . simp [hmem]
    . by_cases hik : k = i.val
      . simp [hik]
      . simp [hmem, hik, Ne.symm hik]

section

variable {a : IPv6Address} {prefix_len : Nat}

def split (prefix_len : Nat) (before boundary behind : UInt8) (i : Fin 16) : UInt8 :=
  if i.val < prefix_len / 8 then before else if i.val = prefix_len / 8 then boundary else behind

theorem getElem_fill_behind (bytes : Vector UInt8 16) (f : UInt8 → UInt8) (value : UInt8)
    (h : prefix_len / 8 < 16) (i : Fin 16)
    : (fill (bytes.set (prefix_len / 8) (f bytes[prefix_len / 8]))
          (List.range' (prefix_len / 8 + 1) (16 - (prefix_len / 8 + 1))) value)[i.val]
      = split prefix_len bytes[i.val] (f bytes[i.val]) value i := by
  have hbehind : i.val ∈ List.range' (prefix_len / 8 + 1) (16 - (prefix_len / 8 + 1))
      ↔ prefix_len / 8 < i.val := by
    have := i.isLt
    rw [List.mem_range'_1]
    omega
  unfold split
  rw [getElem_fill, Vector.getElem_set]
  simp only [hbehind]
  grind

theorem mask_eq_ok (prefix_len : Nat)
    : ∃ mask : BitVec (8 * 1), CreateMask 1 (prefix_len % 8) = .ok mask
      ∧ ∀ k < 8, mask.getLsbD k = decide (k < 8 - prefix_len % 8) :=
  @createMask_eq_ok 1 (prefix_len % 8) (by decide) (by omega) (by omega)

theorem computes (a : IPv6Address) (hlt : prefix_len < 128)
    : ∃ (host : UInt8) (subnet naddr baddr : IPv6Address),
      (∀ k < 8, host.toBitVec.getLsbD k = decide (k < 8 - prefix_len % 8))
      ∧ subnetMask prefix_len = .ok subnet
      ∧ a.networkAddress prefix_len = .ok naddr
      ∧ a.broadCastAddress prefix_len = .ok baddr
      ∧ ∀ i, subnet.byte i = split prefix_len 0xff (~~~host) 0 i
        ∧ naddr.byte i = split prefix_len (a.byte i) (a.byte i &&& host) 0 i
        ∧ baddr.byte i = split prefix_len (a.byte i) (a.byte i ||| ~~~host) 0xff i := by
  obtain ⟨mask, hmask, hbits⟩ := mask_eq_ok prefix_len
  have hboundary : prefix_len / 8 < 16 := by omega
  have hsubnet : ∃ subnet, subnetMask prefix_len = .ok subnet ∧ ∀ i, subnet.byte i
      = split prefix_len 0xff (~~~UInt8.ofBitVec mask) 0 i := by
    unfold subnetMask
    rw [hmask]
    simp only [Except.bind, dif_pos hboundary]
    refine ⟨_, rfl, ?_⟩
    intro i
    unfold byte split
    rw [getElem_fill, Vector.getElem_set]
    simp only [List.mem_range, Vector.getElem_replicate]
    grind
  have hnaddr : ∃ naddr, a.networkAddress prefix_len = .ok naddr ∧ ∀ i, naddr.byte i
      = split prefix_len (a.byte i) (a.byte i &&& UInt8.ofBitVec mask) 0 i := by
    unfold networkAddress
    rw [hmask]
    simp only [Except.bind, dif_pos hboundary]
    refine ⟨_, rfl, ?_⟩
    intro i
    exact getElem_fill_behind a.m_addr.sin6_addr (· &&& UInt8.ofBitVec mask) 0 hboundary i
  have hbaddr : ∃ baddr, a.broadCastAddress prefix_len = .ok baddr ∧ ∀ i, baddr.byte i
      = split prefix_len (a.byte i) (a.byte i ||| ~~~UInt8.ofBitVec mask) 0xff i := by
    unfold broadCastAddress
    rw [hmask]
    simp only [Except.bind, dif_pos hboundary]
    refine ⟨_, rfl, ?_⟩
    intro i
    exact getElem_fill_behind a.m_addr.sin6_addr (· ||| ~~~UInt8.ofBitVec mask) 0xff hboundary i
  obtain ⟨subnet, hsubnet, hsubnet'⟩ := hsubnet
  obtain ⟨naddr, hnaddr, hnaddr'⟩ := hnaddr
  obtain ⟨baddr, hbaddr, hbaddr'⟩ := hbaddr
  exact ⟨UInt8.ofBitVec mask, subnet, naddr, baddr, hbits, hsubnet, hnaddr, hbaddr,
    fun i => ⟨hsubnet' i, hnaddr' i, hbaddr' i⟩⟩

theorem fault (a : IPv6Address) (hge : 128 ≤ prefix_len)
    : subnetMask prefix_len = .error .outOfBounds
      ∧ a.networkAddress prefix_len = .error .outOfBounds
      ∧ a.broadCastAddress prefix_len = .error .outOfBounds := by
  obtain ⟨mask, hmask, -⟩ := mask_eq_ok prefix_len
  have hboundary : ¬prefix_len / 8 < 16 := by omega
  unfold subnetMask networkAddress broadCastAddress
  rw [hmask]
  simp only [Except.bind, dif_neg hboundary, and_self]

theorem isMask_of_split {host : UInt8} {subnet : IPv6Address}
    (hbits : ∀ k < 8, host.toBitVec.getLsbD k = decide (k < 8 - prefix_len % 8))
    (hsubnet : ∀ i, subnet.byte i = split prefix_len 0xff (~~~host) 0 i)
    : IsMask prefix_len subnet := by
  intro i k hk
  have hones : ∀ k < 8, (0xff : UInt8).toBitVec.getMsbD k = true := by decide
  have hzeros : ∀ k < 8, (0 : UInt8).toBitVec.getMsbD k = false := by decide
  rw [hsubnet]
  unfold split
  split
  . rw [hones k hk, eq_comm, decide_eq_true_eq]
    omega
  . split
    . rw [UInt8.toBitVec_not, BitVec.getMsbD_eq_getLsbD, BitVec.getLsbD_not,
        hbits (8 - 1 - k) (by omega), decide_eq_true hk,
        decide_eq_true (show 8 - 1 - k < 8 by omega), Bool.true_and, Bool.true_and, ← decide_not,
        decide_eq_decide]
      omega
    . rw [hzeros k hk, eq_comm, decide_eq_false_iff_not]
      omega

theorem uint8_and_eq_iff (x host : UInt8) : x &&& host = x &&& ~~~host ↔ x = 0 := by
  rw [← UInt8.toBitVec_inj, UInt8.toBitVec_and, UInt8.toBitVec_and, UInt8.toBitVec_not,
    and_eq_and_not_iff, ← UInt8.toBitVec_inj]
  rfl

theorem uint8_or_eq_iff (x host : UInt8) : x ||| ~~~host = x ||| host ↔ x = 0xff := by
  rw [← UInt8.toBitVec_inj, UInt8.toBitVec_or, UInt8.toBitVec_or, UInt8.toBitVec_not,
    or_not_eq_or_iff, ← UInt8.toBitVec_inj]
  rfl

theorem all_ones : (0xff : UInt8) = -1 := rfl

theorem isNetwork_iff_of_split {host : UInt8} {subnet naddr : IPv6Address}
    (hsubnet : ∀ i, subnet.byte i = split prefix_len 0xff (~~~host) 0 i)
    (hnaddr : ∀ i, naddr.byte i = split prefix_len (a.byte i) (a.byte i &&& host) 0 i)
    : IsNetwork a subnet naddr ↔ ∀ i : Fin 16, i.val = prefix_len / 8 → a.byte i = 0 := by
  unfold IsNetwork
  apply forall_congr'
  intro i
  rw [hsubnet, hnaddr]
  unfold split
  split
  . next hbefore =>
    have hne : i.val ≠ prefix_len / 8 := by omega
    simp [hne, all_ones]
  . split
    . next hat => simp [hat, uint8_and_eq_iff]
    . next hne => simp [hne]

theorem isBroadcast_iff_of_split {host : UInt8} {subnet baddr : IPv6Address}
    (hsubnet : ∀ i, subnet.byte i = split prefix_len 0xff (~~~host) 0 i)
    (hbaddr : ∀ i, baddr.byte i = split prefix_len (a.byte i) (a.byte i ||| ~~~host) 0xff i)
    : IsBroadcast a subnet baddr ↔ ∀ i : Fin 16, i.val = prefix_len / 8 → a.byte i = 0xff := by
  unfold IsBroadcast
  apply forall_congr'
  intro i
  rw [hsubnet, hbaddr]
  unfold split
  split
  . next hbefore =>
    have hne : i.val ≠ prefix_len / 8 := by omega
    simp [hne, all_ones]
  . split
    . next hat => simp [hat, uint8_or_eq_iff]
    . next hne => simp [hne, all_ones]

theorem keepsPrefix_of_split {b : IPv6Address} {boundary behind : Fin 16 → UInt8}
    (hb : ∀ i, b.byte i = split prefix_len (a.byte i) (boundary i) (behind i) i)
    : KeepsPrefix a prefix_len b := by
  intro i hi
  have hlt : i.val < prefix_len / 8 := by omega
  rw [hb]
  unfold split
  rw [if_pos hlt]

end

/--
The subnet of `a` with the first `prefix_len` bits: the three functions return, and they return its
mask, its network address and its broadcast address.
-/
def HasSubnet (a : IPv6Address) (prefix_len : Nat) : Prop :=
  ∃ subnet naddr baddr, subnetMask prefix_len = .ok subnet
    ∧ a.networkAddress prefix_len = .ok naddr
    ∧ a.broadCastAddress prefix_len = .ok baddr
    ∧ IsMask prefix_len subnet ∧ IsNetwork a subnet naddr ∧ IsBroadcast a subnet baddr
    ∧ KeepsPrefix a prefix_len naddr ∧ KeepsPrefix a prefix_len baddr

theorem subnetMask_iff (prefix_len : Nat)
    : (∃ subnet, subnetMask prefix_len = .ok subnet ∧ IsMask prefix_len subnet)
      ↔ prefix_len < 128 := by
  by_cases hlt : prefix_len < 128
  . obtain ⟨host, subnet, naddr, baddr, hbits, hsubnet, -, -, hbytes⟩ := computes (new .big
      (Vector.replicate 16 0) 0) hlt
    refine ⟨fun _ => hlt, fun _ => ⟨subnet, hsubnet, ?_⟩⟩
    exact isMask_of_split hbits (fun i => (hbytes i).1)
  . rw [(fault (new .big (Vector.replicate 16 0) 0) (by omega)).1]
    simp [hlt]

theorem networkAddress_iff (a : IPv6Address) (prefix_len : Nat)
    : (∃ subnet naddr, subnetMask prefix_len = .ok subnet
        ∧ a.networkAddress prefix_len = .ok naddr ∧ IsNetwork a subnet naddr)
      ↔ prefix_len < 128 ∧ ∀ i : Fin 16, i.val = prefix_len / 8 → a.byte i = 0 := by
  by_cases hlt : prefix_len < 128
  . obtain ⟨host, subnet, naddr, baddr, -, hsubnet, hnaddr, -, hbytes⟩ := computes a hlt
    rw [← isNetwork_iff_of_split (fun i => (hbytes i).1) (fun i => (hbytes i).2.1), hsubnet, hnaddr]
    simp [hlt]
  . rw [(fault a (by omega)).1]
    simp [hlt]

theorem broadCastAddress_iff (a : IPv6Address) (prefix_len : Nat)
    : (∃ subnet baddr, subnetMask prefix_len = .ok subnet
        ∧ a.broadCastAddress prefix_len = .ok baddr ∧ IsBroadcast a subnet baddr)
      ↔ prefix_len < 128 ∧ ∀ i : Fin 16, i.val = prefix_len / 8 → a.byte i = 0xff := by
  by_cases hlt : prefix_len < 128
  . obtain ⟨host, subnet, naddr, baddr, -, hsubnet, -, hbaddr, hbytes⟩ := computes a hlt
    rw [← isBroadcast_iff_of_split (fun i => (hbytes i).1) (fun i => (hbytes i).2.2), hsubnet,
      hbaddr]
    simp [hlt]
  . rw [(fault a (by omega)).1]
    simp [hlt]

theorem keepsPrefix_iff (a : IPv6Address) (prefix_len : Nat)
    : (∃ naddr baddr, a.networkAddress prefix_len = .ok naddr
        ∧ a.broadCastAddress prefix_len = .ok baddr
        ∧ KeepsPrefix a prefix_len naddr ∧ KeepsPrefix a prefix_len baddr)
      ↔ prefix_len < 128 := by
  by_cases hlt : prefix_len < 128
  . obtain ⟨host, subnet, naddr, baddr, -, -, hnaddr, hbaddr, hbytes⟩ := computes a hlt
    refine ⟨fun _ => hlt, fun _ => ⟨naddr, baddr, hnaddr, hbaddr, ?_, ?_⟩⟩
    . exact keepsPrefix_of_split (fun i => (hbytes i).2.1)
    . exact keepsPrefix_of_split (fun i => (hbytes i).2.2)
  . rw [(fault a (by omega)).2.1]
    simp [hlt]

theorem no_subnet (a : IPv6Address) (prefix_len : Nat)
    : ((∃ subnet, subnetMask prefix_len = .ok subnet ∧ IsMask prefix_len subnet)
        ↔ prefix_len < 128)
      ∧ ((∃ subnet naddr, subnetMask prefix_len = .ok subnet
          ∧ a.networkAddress prefix_len = .ok naddr ∧ IsNetwork a subnet naddr)
        ↔ prefix_len < 128 ∧ ∀ i : Fin 16, i.val = prefix_len / 8 → a.byte i = 0)
      ∧ ((∃ subnet baddr, subnetMask prefix_len = .ok subnet
          ∧ a.broadCastAddress prefix_len = .ok baddr ∧ IsBroadcast a subnet baddr)
        ↔ prefix_len < 128 ∧ ∀ i : Fin 16, i.val = prefix_len / 8 → a.byte i = 0xff)
      ∧ ((∃ naddr baddr, a.networkAddress prefix_len = .ok naddr
          ∧ a.broadCastAddress prefix_len = .ok baddr
          ∧ KeepsPrefix a prefix_len naddr ∧ KeepsPrefix a prefix_len baddr)
        ↔ prefix_len < 128)
      ∧ ¬HasSubnet a prefix_len := by
  have hnetwork := networkAddress_iff a prefix_len
  have hbroadcast := broadCastAddress_iff a prefix_len
  refine ⟨subnetMask_iff prefix_len, hnetwork, hbroadcast, keepsPrefix_iff a prefix_len, ?_⟩
  rintro ⟨subnet, naddr, baddr, hsubnet, hnaddr, hbaddr, -, hn, hb, -⟩
  obtain ⟨hlt, hzero⟩ := hnetwork.mp ⟨subnet, naddr, hsubnet, hnaddr, hn⟩
  obtain ⟨-, hones⟩ := hbroadcast.mp ⟨subnet, baddr, hsubnet, hbaddr, hb⟩
  have hboth := (hzero ⟨prefix_len / 8, by omega⟩ rfl).symm.trans
    (hones ⟨prefix_len / 8, by omega⟩ rfl)
  revert hboth
  decide

-- 2001:db8::1 with 20 bits keeps the lower half of its third byte
theorem networkAddress_keeps_boundary
    : let a := new .little #v[0x20, 0x01, 0x0d, 0xb8, 0, 0, 0, 0, 0, 0, 0, 0, 0, 0, 0, 1] 0
      ∃ naddr, a.networkAddress 20 = .ok naddr ∧ naddr.byte 2 = 0x0d ∧ ¬HasSubnet a 20 := by
  intro a
  refine ⟨_, rfl, by decide, ?_⟩
  rintro ⟨subnet, naddr, baddr, hsubnet, hnaddr, -, -, hnetwork, -⟩
  cases hsubnet
  cases hnaddr
  have hboundary := hnetwork 2
  revert hboundary
  decide

end IPv6Address
end CXS
