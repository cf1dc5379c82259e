import CXS.Address.Basic
import CXS.Util.AddressText

namespace CXS
namespace IPv6Address

open AddressText

variable (order : Endian)

def addr (a : IPv6Address) (i : Nat) : BitVec (8 * 2) :=
  order.store ((a.m_addr.sin6_addr.toList.drop (2 * i)).take 2)

def group (a : IPv6Address) (i : Nat) : Nat :=
  (byteswapOnLittleEndian order (addr order a i)).toNat

def insertGroup (a : IPv6Address) (state : List Char × Bool) (i : Nat) : List Char × Bool :=
  let (os, used_zeros) := state
  if addr order a i = 0 ∧ used_zeros = false then
    (os, used_zeros)
  else
    let (os, used_zeros) :=
      if i ≠ 0 ∧ addr order a (i - 1) = 0 ∧ used_zeros = false then
        (os ++ [':'], true)
      else
        (os, used_zeros)
    let os := if i ≠ 0 then os ++ [':'] else os
    (os ++ Nat.toDigits 16 (group order a i), used_zeros)

def insertLast (a : IPv6Address) (state : List Char × Bool) : List Char :=
  let (os, used_zeros) := state
  if used_zeros = false ∧ addr order a 7 = 0 then os ++ [':', ':'] else os

def insertGroups (a : IPv6Address) (os : List Char) : List Char :=
  insertLast order a ((List.range 8).foldl (insertGroup order a) (os, false))

def insert (a : IPv6Address) (os : List Char) : List Char :=
  let os := insertGroups order a (os ++ ['['])
  os ++ "]: ".toList ++ Nat.toDigits 10 (byteswapOnLittleEndian order a.m_addr.sin6_port).toNat

def text (a : IPv6Address) : List Char :=
  ((insert order a []).drop 1).takeWhile (· != ']')

def groups (a : IPv6Address) : List Nat :=
  (List.range 8).map (group order a)

section Groups

variable {order : Endian} {a : IPv6Address} {i : Nat}

theorem byteswapOnLittleEndian_store {n : Nat} {bytes : List UInt8} (h : bytes.length = n)
    : byteswapOnLittleEndian order (order.store (n := n) bytes)
        = BitVec.ofNat (8 * n) (ofBytes bytes.reverse) := by
  cases order with
  | big => rfl
  | little =>
    have hlt := ofBytes_lt bytes
    rw [h, ← two_pow_eight_mul] at hlt
    have hbytes : bytesOf n (ofBytes bytes) = bytes := by
      rw [← h]
      exact bytesOf_ofBytes bytes
    unfold byteswapOnLittleEndian Endian.store byteswap
    dsimp only
    rw [BitVec.toNat_ofNat, Nat.mod_eq_of_lt hlt, hbytes]

theorem byteswapOnLittleEndian_zero (n : Nat)
    : byteswapOnLittleEndian order (0 : BitVec (8 * n)) = 0 := by
  have h := byteswapOnLittleEndian_and order (0 : BitVec (8 * n)) (byteswapOnLittleEndian order 0)
  simpa using h

theorem addr_eq_zero_iff : addr order a i = 0 ↔ group order a i = 0 := by
  unfold group
  rw [show (0 : Nat) = (0 : BitVec (8 * 2)).toNat by rfl, ← BitVec.toNat_eq]
  constructor
  . intro h
    rw [h, byteswapOnLittleEndian_zero]
  . intro h
    rw [← byteswapOnLittleEndian_self order (addr order a i), h, byteswapOnLittleEndian_zero]

theorem group_eq (hi : i < 8)
    : group order a i
        = ofBytes ((a.m_addr.sin6_addr.toList.drop (2 * i)).take 2).reverse := by
  have hlen : ((a.m_addr.sin6_addr.toList.drop (2 * i)).take 2).length = 2 := by
    simp
    omega
  have hlt := ofBytes_lt ((a.m_addr.sin6_addr.toList.drop (2 * i)).take 2).reverse
  rw [List.length_reverse, hlen] at hlt
  unfold group addr
  rw [byteswapOnLittleEndian_store hlen, BitVec.toNat_ofNat, two_pow_eight_mul,
    Nat.mod_eq_of_lt hlt]

theorem group_lt (order : Endian) (a : IPv6Address) (i : Nat) : group order a i < 2 ^ 16 :=
  (byteswapOnLittleEndian order (addr order a i)).isLt

theorem octets_groups (order : Endian) (a : IPv6Address)
    : octets (groups order a) = a.m_addr.sin6_addr.toList := by
  have hgroups : groups order a = (List.range 8).map fun i =>
      ofBytes ((a.m_addr.sin6_addr.toList.drop (2 * i)).take 2).reverse := by
    apply List.map_congr_left
    intro i hi
    exact group_eq (List.mem_range.mp hi)
  rw [hgroups]
  apply AddressText.octets_groups
  simp

end Groups

section Loop

variable {order : Endian} {a : IPv6Address} {i : Nat} {gs : List Nat} {state : List Char × Bool}

inductive Wrote : List Nat → List Char × Bool → Prop where
  | waits {l : List Nat} (zeros : Nat) (hl : 0 ∉ l)
    : Wrote (l ++ List.replicate zeros 0) (join l, false)
  | skipped {l r : List Nat} {zeros : Nat} (hpos : 0 < zeros) (hr : r ≠ [])
    : Wrote (l ++ List.replicate zeros 0 ++ r) (join l ++ [':', ':'] ++ join r, true)

theorem last_group_iff (hgs : gs = (List.range i).map (group order a))
    : i ≠ 0 ∧ addr order a (i - 1) = 0 ↔ gs.getLast? = some 0 := by
  cases i with
  | zero => simp [hgs]
  | succ i =>
    rw [hgs, List.range_succ]
    simpa using addr_eq_zero_iff

theorem getLast?_waits {l : List Nat} (hl : 0 ∉ l) (zeros : Nat)
    : (l ++ List.replicate zeros 0).getLast? = some 0 ↔ 0 < zeros := by
  cases zeros with
  | zero =>
    have hne : l.getLast? ≠ some 0 := fun h => hl (List.mem_of_getLast? h)
    simpa using hne
  | succ zeros => simp [List.getLast?_append, List.getLast?_replicate]

theorem insertGroup_zero (os : List Char) (h : addr order a i = 0)
    : insertGroup order a (os, false) i = (os, false) := by
  simp [insertGroup, h]

theorem insertGroup_first (os : List Char) (h : addr order a 0 ≠ 0)
    : insertGroup order a (os, false) 0 = (os ++ Nat.toDigits 16 (group order a 0), false) := by
  simp only [insertGroup, h, false_and, if_false, ne_eq, not_true_eq_false]

theorem insertGroup_colons (os : List Char) (h : addr order a i ≠ 0) (hi : i ≠ 0)
    (hprev : addr order a (i - 1) = 0)
    : insertGroup order a (os, false) i
        = (os ++ [':'] ++ [':'] ++ Nat.toDigits 16 (group order a i), true) := by
  simp only [insertGroup, h, hi, hprev, false_and, if_false, ne_eq, not_false_eq_true, and_self,
    if_true]

theorem insertGroup_colon (os : List Char) {used_zeros : Bool} (hi : i ≠ 0)
    (h : used_zeros = true ∨ addr order a i ≠ 0 ∧ addr order a (i - 1) ≠ 0)
    : insertGroup order a (os, used_zeros) i
        = (os ++ [':'] ++ Nat.toDigits 16 (group order a i), used_zeros) := by
  rcases h with h | ⟨h, hprev⟩
  . simp [insertGroup, hi, h]
  . simp only [insertGroup, h, hi, hprev, false_and, and_false, if_false, ne_eq,
      not_false_eq_true, if_true]

theorem insertGroup_wrote (hgs : gs = (List.range i).map (group order a)) (h : Wrote gs state)
    : Wrote (gs ++ [group order a i]) (insertGroup order a state i) := by
  have hlast := last_group_iff hgs
  have hne : i ≠ 0 ↔ gs ≠ [] := by
    rw [hgs]
    simp
  cases h with
  | @waits l zeros hl =>
    rw [getLast?_waits hl] at hlast
    by_cases hzero : addr order a i = 0
    . rw [insertGroup_zero _ hzero, addr_eq_zero_iff.mp hzero, List.append_assoc,
        ← List.replicate_succ']
      exact .waits (zeros + 1) hl
    . have hgroup : group order a i ≠ 0 := fun h => hzero (addr_eq_zero_iff.mpr h)
      by_cases hpos : 0 < zeros
      . obtain ⟨hi, hprev⟩ := hlast.mpr hpos
        rw [insertGroup_colons _ hzero hi hprev]
        have hwrote := Wrote.skipped (l := l) (r := [group order a i]) hpos (by simp)
        simpa using hwrote
      . have hzeros : zeros = 0 := by omega
        subst hzeros
        rw [List.replicate_zero, List.append_nil] at hne ⊢
        have hwrote := Wrote.waits (l := l ++ [group order a i]) 0 (by simp [hl, Ne.symm hgroup])
        rw [List.replicate_zero, List.append_nil] at hwrote
        by_cases hi : i = 0
        . have hnil : l = [] := by
            by_contra hl
            exact hne.mpr hl hi
          subst hnil hi
          rw [insertGroup_first _ hzero]
          simpa using hwrote
        . rw [join_append_singleton (hne.mp hi)] at hwrote
          rw [insertGroup_colon _ hi (.inr ⟨hzero, fun h => hpos (hlast.mp ⟨hi, h⟩)⟩)]
          simpa using hwrote
  | @skipped l r zeros hpos hr =>
    have hi : i ≠ 0 := hne.mpr (by simp [hr])
    have hwrote := Wrote.skipped (l := l) (r := r ++ [group order a i]) hpos (by simp)
    rw [join_append_singleton hr] at hwrote
    rw [insertGroup_colon _ hi (.inl rfl)]
    simpa using hwrote

theorem foldl_insertGroup_wrote (order : Endian) (a : IPv6Address) (n : Nat)
    : Wrote ((List.range n).map (group order a))
        ((List.range n).foldl (insertGroup order a) ([], false)) := by
  induction n with
  | zero => exact .waits 0 (l := []) (by simp)
  | succ n ih =>
    rw [List.range_succ, List.map_append, List.foldl_append]
    exact insertGroup_wrote rfl ih

theorem insertLast_form (hlen : gs.length = 8) (hlt : ∀ g ∈ gs, g < 2 ^ 16)
    (hgs : gs = (List.range 8).map (group order a)) (h : Wrote gs state)
    : Form (insertLast order a state) gs := by
  have hlast := last_group_iff hgs
  unfold insertLast
  cases h with
  | @waits l zeros hl =>
    rw [getLast?_waits hl] at hlast
    dsimp only
    by_cases hpos : 0 < zeros
    . rw [if_pos ⟨rfl, (hlast.mpr hpos).2⟩]
      have hform := Form.compressed (l := l) (r := []) hpos (by simpa using hlen)
        (fun g hg => hlt g (by simp [hg])) (by simp)
      simpa using hform
    . have hzeros : zeros = 0 := by omega
      subst hzeros
      rw [if_neg (fun h => hpos (hlast.mp ⟨by decide, h.2⟩))]
      rw [List.replicate_zero, List.append_nil] at hlen hlt ⊢
      exact .full hlen hlt
  | @skipped l r zeros hpos hr =>
    dsimp only
    rw [if_neg (by simp)]
    exact .compressed hpos (by simpa [Nat.add_assoc] using hlen)
      (fun g hg => hlt g (by simp [hg])) (fun g hg => hlt g (by simp [hg]))

theorem insertGroups_form (order : Endian) (a : IPv6Address)
    : Form (insertGroups order a []) (groups order a) := by
  apply insertLast_form
  . simp [groups]
  . intro g hg
    obtain ⟨i, _, rfl⟩ := List.mem_map.mp hg
    exact group_lt order a i
  . rfl
  . exact foldl_insertGroup_wrote order a 8

end Loop

section Stream

variable {order : Endian}

theorem insertGroup_append (a : IPv6Address) (os : List Char) (state : List Char × Bool) (i : Nat)
    : insertGroup order a (os ++ state.1, state.2) i
        = (os ++ (insertGroup order a state i).1, (insertGroup order a state i).2) := by
  obtain ⟨out, used_zeros⟩ := state
  unfold insertGroup
  dsimp only
  by_cases hskip : addr order a i = 0 ∧ used_zeros = false
  . rw [if_pos hskip, if_pos hskip]
  . rw [if_neg hskip, if_neg hskip]
    by_cases hcolon : i ≠ 0 ∧ addr order a (i - 1) = 0 ∧ used_zeros = false
    . rw [if_pos hcolon, if_pos hcolon]
      simp [hcolon.1]
    . rw [if_neg hcolon, if_neg hcolon]
      by_cases hi : i = 0 <;> simp [hi]

theorem foldl_insertGroup_append (a : IPv6Address) (os : List Char) (is : List Nat)
    (state : List Char × Bool)
    : is.foldl (insertGroup order a) (os ++ state.1, state.2)
        = (os ++ (is.foldl (insertGroup order a) state).1,
            (is.foldl (insertGroup order a) state).2) := by
  induction is generalizing state with
  | nil => rfl
  | cons i is ih =>
    rw [List.foldl_cons, List.foldl_cons, insertGroup_append, ih]

theorem insertLast_append (a : IPv6Address) (os : List Char) (state : List Char × Bool)
    : insertLast order a (os ++ state.1, state.2) = os ++ insertLast order a state := by
  obtain ⟨out, used_zeros⟩ := state
  unfold insertLast
  dsimp only
  split <;> simp

theorem insertGroups_append (a : IPv6Address) (os : List Char)
    : insertGroups order a os = os ++ insertGroups order a [] := by
  have h := @foldl_insertGroup_append order a os (List.range 8) ([], false)
  rw [List.append_nil] at h
  unfold insertGroups
  rw [h, insertLast_append]

end Stream

theorem bracket_not_mem {s : List Char} {gs : List Nat} (h : Form s gs) : ']' ∉ s := by
  have hjoin : ∀ gs, ']' ∉ join gs := by
    intro gs hmem
    rcases mem_join hmem with h | ⟨d, _, hd⟩
    . exact absurd h (by decide)
    . exact Nat.digitChar_ne ']' (by decide) hd.symm
  cases h with
  | full => exact hjoin _
  | compressed => simp [hjoin]

theorem text_eq (a : IPv6Address) : text order a = insertGroups order a [] := by
  have hmem := bracket_not_mem (insertGroups_form order a)
  have hinsert : insert order a [] = '[' :: insertGroups order a [] ++ ']' ::
      ([':', ' '] ++ Nat.toDigits 10 (byteswapOnLittleEndian order a.m_addr.sin6_port).toNat) := by
    unfold insert
    rw [insertGroups_append a ([] ++ ['['])]
    simp
  unfold text
  rw [hinsert, List.cons_append, List.drop_succ_cons, List.drop_zero, List.takeWhile_append_of_pos]
  . simp
  . intro c hc
    rw [bne_iff_ne]
    rintro rfl
    exact hmem hc

theorem read_text (a : IPv6Address)
    : AddressText.read (text order a) = some a.m_addr.sin6_addr.toList := by
  unfold AddressText.read
  rw [text_eq, groupsOf_form (insertGroups_form order a), Option.map_some, octets_groups]

theorem insert_text (a : IPv6Address)
    : (∀ os, insert order a os
        = os ++ '[' :: text order a ++ "]: ".toList ++ Nat.toDigits 10 (getPort order a).toNat)
      ∧ Form (text order a) (groups order a)
      ∧ AddressText.read (text order a) = some a.m_addr.sin6_addr.toList
      ∧ ∀ b : IPv6Address, text order b = text order a → b.m_addr.sin6_addr = a.m_addr.sin6_addr := by
  refine ⟨?_, ?_, read_text order a, ?_⟩
  . intro os
    rw [text_eq]
    unfold insert
    rw [insertGroups_append a (os ++ ['['])]
    simp [getPort]
  . rw [text_eq]
    exact insertGroups_form order a
  . intro b htext
    have hb := read_text order b
    rw [htext, read_text order a, Option.some.injEq] at hb
    exact (Vector.toList_inj.mp hb).symm

end IPv6Address
end CXS
