import CXS.ByteArray.Capacity

/-!
This module contains what `read` of `code/bytearray.cc` does on the way to its result: each `memcpy`
out of a node, and the members as they are when it ends, also when it ends in a fault. The bytes in
the buffer come out right however far an intermediate `memcpy` runs past its node, so only this shows
it. It also contains what the `const` overload of `read` returns for a position that is not the cursor.
-/

namespace CXS
namespace ByteArray

structure Memcpy where
  node : Nat
  npos : Nat
  bpos : Nat
  len : Nat
  deriving DecidableEq, Repr

namespace Memcpy

def run (chain : List Node) (beyond : Nat → Nat → UInt8) (buf : List UInt8) (copy : Memcpy)
    : List UInt8 :=
  match chain[copy.node]? with
  | none => buf
  | some cur => buf.overwrite copy.bpos (cur.load (beyond copy.node) copy.npos copy.len)

def Within (chain : List Node) (n : Nat) (copy : Memcpy) : Prop :=
  ∃ cur, chain[copy.node]? = some cur
    ∧ copy.npos + copy.len ≤ cur.size
    ∧ copy.bpos + copy.len ≤ n

end Memcpy

structure CopyEffect where
  result : Except Fault Unit
  copies : List Memcpy
  m_current : Option Nat
  m_position : Nat

def CopyEffect.toExcept (effect : CopyEffect) (chain : List Node) (beyond : Nat → Nat → UInt8)
    (buf : List UInt8) : Except Fault (List UInt8 × Option Nat × Nat) :=
  effect.result.map fun _ =>
    (effect.copies.foldl (Memcpy.run chain beyond) buf, effect.m_current, effect.m_position)

def copyOutEffect (chain : List Node) (i size npos ncap bpos position : Nat) : CopyEffect :=
  if size = 0 then
    { result := .ok (), copies := [], m_current := some i, m_position := position }
  else
    match chain[i]? with
    | none => { result := .error .nullNode, copies := [], m_current := none, m_position := position }
    | some cur =>
      let copy : Memcpy := { node := i, npos := npos, bpos := bpos, len := size }
      if ncap ≥ size then
        {
          result := .ok ()
          copies := [copy]
          m_current := if cur.size = npos + size then next chain i else some i
          m_position := position + size
        }
      else if h : i + 1 < chain.length then
        let rest :=
          copyOutEffect chain (i + 1) (size - ncap) 0 chain[i + 1].size (bpos + ncap)
            (position + ncap)
        { rest with copies := copy :: rest.copies }
      else
        {
          result := .error .nullNode
          copies := [copy]
          m_current := none
          m_position := position + ncap
        }
termination_by chain.length - i

theorem copyOut_eq_effect (chain : List Node) (beyond : Nat → Nat → UInt8) (buf : List UInt8)
    (i size npos ncap bpos position : Nat)
    : copyOut chain beyond buf i size npos ncap bpos position
        = (copyOutEffect chain i size npos ncap bpos position).toExcept chain beyond buf := by
  unfold copyOut copyOutEffect
  split
  . rfl
  . cases hcur : chain[i]? with
    | none => rfl
    | some cur =>
      have hrun : Memcpy.run chain beyond buf { node := i, npos := npos, bpos := bpos, len := size }
          = buf.overwrite bpos (cur.load (beyond i) npos size) := by
        unfold Memcpy.run
        dsimp only
        rw [hcur]
      dsimp only
      split
      . unfold CopyEffect.toExcept
        rw [List.foldl_cons, hrun]
        rfl
      . split
        . rw [copyOut_eq_effect]
          unfold CopyEffect.toExcept
          rw [List.foldl_cons, hrun]
        . rfl
termination_by chain.length - i

def readEffect (ba : ByteArray) (size : Nat) : Except Fault Unit × List Memcpy × ByteArray :=
  if size > ba.getReadSize then
    (.error .outOfRange, [], ba)
  else
    let npos := ba.m_position % ba.m_baseSize
    match ba.m_current with
    | none => (.error .nullNode, [], ba)
    | some i =>
      match ba.m_root[i]? with
      | none => (.error .nullNode, [], ba)
      | some cur =>
        let effect := copyOutEffect ba.m_root i size npos (cur.size - npos) 0 ba.m_position
        (effect.result, effect.copies,
          { ba with m_current := effect.m_current, m_position := effect.m_position })

theorem read_eq_effect (ba : ByteArray) (beyond : Nat → Nat → UInt8) (buf : List UInt8) (size : Nat)
    : ba.read beyond buf size
        = (ba.readEffect size).1.map fun _ =>
            ((ba.readEffect size).2.2,
              (ba.readEffect size).2.1.foldl (Memcpy.run ba.m_root beyond) buf) := by
  unfold read readEffect
  split
  . rfl
  . cases ba.m_current with
    | none => rfl
    | some i =>
      dsimp only
      cases ba.m_root[i]? with
      | none => rfl
      | some cur =>
        dsimp only
        rw [copyOut_eq_effect]
        unfold CopyEffect.toExcept
        cases (copyOutEffect ba.m_root i size _ _ 0 ba.m_position).result with
        | error e => rfl
        | ok => rfl

def readAtCopies (ba : ByteArray) (size position : Nat) : List Memcpy :=
  if size > ba.getReadSize then
    []
  else
    let npos := position % ba.m_baseSize
    match ba.m_current with
    | none => []
    | some i =>
      match ba.m_root[i]? with
      | none => []
      | some cur => (copyOutEffect ba.m_root i size npos (cur.size - npos) 0 position).copies

theorem readAt_eq_copies {ba : ByteArray} {beyond : Nat → Nat → UInt8} {buf buf' : List UInt8}
    {size position : Nat} (h : ba.readAt beyond buf size position = .ok buf')
    : buf' = (ba.readAtCopies size position).foldl (Memcpy.run ba.m_root beyond) buf := by
  unfold readAt at h
  unfold readAtCopies
  split at h
  . cases h
  . next hle =>
    rw [if_neg hle]
    cases hcurrent : ba.m_current with
    | none =>
      rw [hcurrent] at h
      cases h
    | some i =>
      rw [hcurrent] at h
      dsimp only at *
      cases hcur : ba.m_root[i]? with
      | none =>
        rw [hcur] at h
        cases h
      | some cur =>
        rw [hcur] at h
        dsimp only at *
        rw [copyOut_eq_effect] at h
        unfold CopyEffect.toExcept at h
        cases hres : (copyOutEffect ba.m_root i size (position % ba.m_baseSize)
            (cur.size - position % ba.m_baseSize) 0 position).result with
        | error e =>
          rw [hres] at h
          cases h
        | ok =>
          rw [hres] at h
          injection h with h
          exact h.symm

def toStringCopies (ba : ByteArray) : List Memcpy :=
  if ba.getReadSize = 0 then [] else ba.readAtCopies ba.getReadSize ba.m_position

theorem toString_eq_copies {ba : ByteArray} {beyond : Nat → Nat → UInt8} {str : List UInt8}
    (h : ba.toString beyond = .ok str)
    : str
        = ba.toStringCopies.foldl (Memcpy.run ba.m_root beyond)
            (List.replicate ba.getReadSize 0) := by
  unfold toString at h
  unfold toStringCopies
  dsimp only at h
  rw [List.length_replicate, List.isEmpty_replicate] at h
  split at h
  . next hzero =>
    rw [if_pos (of_decide_eq_true hzero)]
    injection h with h
    exact h.symm
  . next hne =>
    rw [if_neg (of_decide_eq_false (Bool.eq_false_iff.mpr hne))]
    exact readAt_eq_copies h

def twoNodes (position : Nat) : ByteArray where
  m_position := position
  m_capacity := 4
  m_baseSize := 2
  m_size := 4
  m_endian := .big
  m_root := [{ size := 2, data := [1, 2], hsize := rfl }, { size := 2, data := [3, 4], hsize := rfl }]
  m_current := nodeOf 2 2 position

theorem twoNodes_reachable {position : Nat} (h : position < 4)
    : lts.Reachable IsNew (twoNodes position) := by
  have hwrite : (new 2 fun _ => 9).call (.write (fun _ _ => 9) [1, 2, 3, 4])
      = .ok (twoNodes 4, .void) := by
    simp [call, write, write.go, addCapacity, getCapacity, new, Node.new, Node.store, List.overwrite,
      Except.map, List.range, List.range.loop, next, twoNodes, nodeOf]
  have hfull : lts.Reachable IsNew (twoNodes 4) :=
    ⟨_, [(.write (fun _ _ => 9) [1, 2, 3, 4], .void)], ⟨2, fun _ => 9, by decide, rfl⟩,
      .cons hwrite (.nil _)⟩
  have heffect := @setPositionEffect_of_lt (twoNodes 4) (reachable_wf hfull) position h
  have hset : (twoNodes 4).setPosition position = .ok (twoNodes position) := by
    have hsize : max 4 position = 4 := by omega
    rw [setPosition_eq_effect, heffect]
    simp only [Except.map, twoNodes, nodeOf, hsize]
    rw [if_neg (by omega)]
  obtain ⟨s, trace, hs, hrun⟩ := hfull
  refine ⟨s, trace ++ [(.setPosition position, .void)], hs, hrun.snoc ?_⟩
  show ((twoNodes 4).setPosition position).map (·, Result.void) = .ok (twoNodes position, .void)
  rw [hset]
  rfl

section Within

variable {ba : ByteArray}

theorem copies_within_iff {b n : Nat} {chain : List Node} (hu : Uniform b chain) {cur : Node}
    (i size npos bpos position : Nat) (hcur : chain[i]? = some cur) (hsize : 0 < size)
    (hbuf : bpos + size ≤ n)
    : (∀ copy ∈ (copyOutEffect chain i size npos (b - npos) bpos position).copies,
          copy.Within chain n)
        ↔ npos + size ≤ b := by
  have hcursize := hu.size_eq hcur
  unfold copyOutEffect
  rw [if_neg (by omega), hcur]
  dsimp only
  constructor
  . intro hwithin
    -- whichever way the loop goes on, its first copy takes all `size` bytes from the first node
    have hfirst : Memcpy.Within chain n { node := i, npos := npos, bpos := bpos, len := size } := by
      apply hwithin
      split
      . apply List.mem_singleton_self
      . split
        . apply List.mem_cons_self
        . apply List.mem_singleton_self
    obtain ⟨cur', hcur', hsource, -⟩ := hfirst
    rw [hu.size_eq hcur'] at hsource
    exact hsource
  . intro hfits copy hcopy
    rw [if_pos (by omega)] at hcopy
    rw [List.mem_singleton.mp hcopy]
    exact ⟨cur, hcur, by rw [hcursize]; exact hfits, hbuf⟩

theorem readEffect_of_gt {size : Nat} (h : ba.getReadSize < size)
    : ba.readEffect size = (.error .outOfRange, [], ba) := by
  unfold readEffect
  rw [if_pos h]

theorem readEffect_at_capacity (hwf : WF ba) {size : Nat} (h : size ≤ ba.getReadSize)
    (hpos : ba.m_position = ba.m_capacity)
    : ba.readEffect size = (.error .nullNode, [], ba) := by
  unfold readEffect
  rw [if_neg (by omega)]
  dsimp only
  rw [hwf.current_none hpos]

theorem readEffect_result (hwf : WF ba) {size : Nat} (h : size ≤ ba.getReadSize)
    (hpos : ba.m_position < ba.m_capacity) : (ba.readEffect size).1 = .ok () := by
  have hread := read_eq_ok hwf (fun _ _ => 0) (List.replicate size 0)
    (by rw [List.length_replicate]; exact h) hpos
  rw [read_eq_effect, List.length_replicate] at hread
  obtain ⟨_, hresult, -⟩ := Except.map_eq_ok hread
  exact hresult

theorem readEffect_within_iff (hwf : WF ba) {size : Nat} (h : size ≤ ba.getReadSize)
    (hpos : ba.m_position < ba.m_capacity)
    : (∀ copy ∈ (ba.readEffect size).2.1, copy.Within ba.m_root size)
        ↔ ba.m_position % ba.m_baseSize + size ≤ ba.m_baseSize := by
  obtain ⟨i, hi, hcurrent, hcur, hcursize, hnpos, hsplit⟩ := hwf.current_some hpos
  unfold readEffect
  rw [if_neg (by omega)]
  dsimp only
  rw [hcurrent]
  dsimp only
  rw [hcur]
  dsimp only
  rw [hcursize]
  by_cases hzero : size = 0
  . unfold copyOutEffect
    rw [if_pos hzero]
    constructor
    . intro
      omega
    . intro _ copy hcopy
      cases hcopy
  . apply copies_within_iff hwf.uniform
    . exact hcur
    . omega
    . omega

theorem readAtCopies_at_cursor (ba : ByteArray) (size : Nat)
    : ba.readAtCopies size ba.m_position = (ba.readEffect size).2.1 := by
  unfold readAtCopies readEffect
  split
  . rfl
  . cases ba.m_current with
    | none => rfl
    | some i =>
      dsimp only
      cases ba.m_root[i]? with
      | none => rfl
      | some cur => rfl

theorem toStringCopies_within_iff (hwf : WF ba)
    : (∀ copy ∈ ba.toStringCopies, copy.Within ba.m_root ba.getReadSize)
        ↔ ba.getReadSize = 0 ∨ ba.m_position % ba.m_baseSize + ba.getReadSize ≤ ba.m_baseSize := by
  unfold toStringCopies
  by_cases hzero : ba.getReadSize = 0
  . rw [if_pos hzero]
    constructor
    . intro
      exact .inl hzero
    . intro _ copy hcopy
      cases hcopy
  . have hpos : ba.m_position < ba.m_capacity := by
      have := hwf.size_le
      unfold getReadSize at hzero
      omega
    rw [if_neg hzero, readAtCopies_at_cursor, readEffect_within_iff hwf (Nat.le_refl _) hpos]
    omega

/--
`read` of `n` bytes throws and changes nothing exactly when there are fewer, otherwise it returns and
copies only within nodes and within its buffer, and so does `toString`.
-/
def ReadsWithin (ba : ByteArray) (n : Nat) : Prop :=
  (ba.readEffect n = (.error .outOfRange, [], ba) ↔ ba.getReadSize < n)
  ∧ (n ≤ ba.getReadSize →
      (ba.readEffect n).1 = .ok ()
      ∧ ∀ copy ∈ (ba.readEffect n).2.1, copy.Within ba.m_root n)
  ∧ ∀ copy ∈ ba.toStringCopies, copy.Within ba.m_root ba.getReadSize

theorem readsWithin_iff (ba : ByteArray) (hreach : lts.Reachable IsNew ba) (n : Nat)
    : ReadsWithin ba n
        ↔ (n ≤ ba.getReadSize →
            ba.m_position < ba.m_capacity
            ∧ ba.m_position % ba.m_baseSize + n ≤ ba.m_baseSize)
          ∧ (ba.getReadSize = 0
            ∨ ba.m_position % ba.m_baseSize + ba.getReadSize ≤ ba.m_baseSize) := by
  have hwf := reachable_wf hreach
  have hle : ba.m_position ≤ ba.m_capacity := Nat.le_trans hwf.position_le hwf.size_le
  unfold ReadsWithin
  rw [toStringCopies_within_iff hwf, ← and_assoc]
  apply and_congr_left
  intro _
  by_cases hn : n ≤ ba.getReadSize
  . by_cases hpos : ba.m_position < ba.m_capacity
    . have hresult := readEffect_result hwf hn hpos
      rw [readEffect_within_iff hwf hn hpos]
      constructor
      . intro ⟨_, hwithin⟩ _
        exact ⟨hpos, (hwithin hn).2⟩
      . intro hcond
        refine ⟨?_, fun _ => ⟨hresult, (hcond hn).2⟩⟩
        constructor
        . intro hthrow
          rw [hthrow] at hresult
          cases hresult
        . omega
    . have hnull := readEffect_at_capacity hwf hn (by omega)
      constructor
      . intro ⟨_, hwithin⟩
        have hresult := (hwithin hn).1
        rw [hnull] at hresult
        cases hresult
      . intro hcond
        have := (hcond hn).1
        omega
  . constructor
    . intro _ hn'
      omega
    . intro _
      refine ⟨?_, ?_⟩
      . constructor
        . omega
        . apply readEffect_of_gt
      . omega

theorem readsWithin_one_node : ReadsWithin (twoNodes 3) 1 :=
  (readsWithin_iff (twoNodes 3) (twoNodes_reachable (by decide)) 1).mpr (by decide)

theorem read_past_node
    : lts.Reachable IsNew (twoNodes 0)
      ∧ (twoNodes 0).getReadSize = 4
      ∧ { node := 0, npos := 0, bpos := 0, len := 4 } ∈ ((twoNodes 0).readEffect 4).2.1
      ∧ (∀ cur ∈ (twoNodes 0).m_root, cur.size = 2)
      ∧ ¬ ReadsWithin (twoNodes 0) 4 := by
  have hreach := @twoNodes_reachable 0 (by decide)
  refine ⟨hreach, rfl, ?_, by decide, ?_⟩
  . simp [readEffect, copyOutEffect, twoNodes, getReadSize, nodeOf]
  . intro hwithin
    have hcopies := (hwithin.2.1 (by decide)).2
    rw [readEffect_within_iff (reachable_wf hreach) (by decide) (by decide)] at hcopies
    exact absurd hcopies (by decide)

end Within

section ReadAt

variable {ba : ByteArray}

def readAtStart (ba : ByteArray) (position : Nat) : Nat :=
  ba.m_position / ba.m_baseSize * ba.m_baseSize + position % ba.m_baseSize

theorem readAtStart_eq {position : Nat}
    (h : position / ba.m_baseSize = ba.m_position / ba.m_baseSize)
    : ba.readAtStart position = position := by
  unfold readAtStart
  rw [← h]
  exact Nat.div_add_mod' position ba.m_baseSize

theorem readAt_at_capacity (hwf : WF ba) (beyond : Nat → Nat → UInt8) (buf : List UInt8)
    {size : Nat} (position : Nat) (h : size ≤ ba.getReadSize) (hpos : ba.m_position = ba.m_capacity)
    : ba.readAt beyond buf size position = .error .nullNode := by
  unfold readAt
  rw [if_neg (by omega)]
  dsimp only
  rw [hwf.current_none hpos]

theorem copyOut_eq_error {b : Nat} {chain : List Node} (hu : Uniform b chain)
    (beyond : Nat → Nat → UInt8) (buf : List UInt8) (i size npos bpos position : Nat)
    (hi : i < chain.length) (hnpos : npos < b) (hcap : chain.length * b < i * b + npos + size)
    : copyOut chain beyond buf i size npos (b - npos) bpos position = .error .nullNode := by
  have hsucc : (i + 1) * b = i * b + b := Nat.succ_mul i b
  have hle : (i + 1) * b ≤ chain.length * b := Nat.mul_le_mul_right b hi
  unfold copyOut
  rw [if_neg (by omega), List.getElem?_eq_getElem hi]
  dsimp only
  rw [if_neg (by omega)]
  split
  . next hlt =>
    have hnextsize : chain[i + 1].size = b := hu.size_eq (List.getElem?_eq_getElem hlt)
    have := copyOut_eq_error hu beyond
      (buf.overwrite bpos (chain[i].load (beyond i) npos size)) (i + 1) (size - (b - npos)) 0
      (bpos + (b - npos)) (position + (b - npos)) hlt (by omega) (by omega)
    rw [Nat.sub_zero] at this
    rw [hnextsize, this]
  . rfl
termination_by chain.length - i

theorem readAt_eq (hwf : WF ba) (beyond : Nat → Nat → UInt8) {buf : List UInt8} (position : Nat)
    (h : buf.length ≤ ba.getReadSize) (hpos : ba.m_position < ba.m_capacity)
    : ba.readAt beyond buf buf.length position
        = if buf.length = 0 ∨ ba.readAtStart position + buf.length ≤ ba.m_capacity then
            .ok (((flatten ba.m_root).drop (ba.readAtStart position)).take buf.length)
          else
            .error .nullNode := by
  obtain ⟨i, hi, hcurrent, hcur, hcursize, -, hsplit⟩ := hwf.current_some hpos
  have hcapeq := hwf.capacity_eq
  have hlenflat := hwf.length_flatten
  have hnpos := Nat.mod_lt position hwf.base_pos
  have hidiv : i = ba.m_position / ba.m_baseSize := by
    have hcureq := hwf.current_eq
    unfold nodeOf at hcureq
    rw [hcurrent, if_neg (by omega)] at hcureq
    injection hcureq
  unfold readAt
  rw [if_neg (by omega)]
  dsimp only
  rw [hcurrent]
  dsimp only
  rw [hcur]
  dsimp only
  rw [hcursize]
  unfold readAtStart
  rw [← hidiv]
  by_cases hzero : buf.length = 0
  . have hnil : buf = [] := List.eq_nil_of_length_eq_zero hzero
    subst hnil
    unfold copyOut
    rfl
  . by_cases hfits : i * ba.m_baseSize + position % ba.m_baseSize + buf.length ≤ ba.m_capacity
    . rw [if_pos (.inr hfits)]
      rw [copyOut_eq_ok hwf.uniform beyond buf i buf.length (position % ba.m_baseSize) 0 position hi
        hnpos (by omega) (by omega) (by omega)]
      dsimp only
      rw [List.overwrite_zero_of_length_le]
      rw [List.length_take, List.length_drop]
      omega
    . rw [if_neg (by omega)]
      rw [copyOut_eq_error hwf.uniform beyond buf i buf.length (position % ba.m_baseSize) 0 position
        hi hnpos (by omega)]

theorem toString_eq (hwf : WF ba) (beyond : Nat → Nat → UInt8)
    : ba.toString beyond
        = .ok (((flatten ba.m_root).drop ba.m_position).take ba.getReadSize) := by
  have hsle := hwf.size_le
  have hread : ba.getReadSize = ba.m_size - ba.m_position := rfl
  unfold toString
  dsimp only
  rw [List.isEmpty_replicate]
  by_cases hzero : ba.getReadSize = 0
  . rw [hzero]
    rfl
  . have hlen : (List.replicate ba.getReadSize (0 : UInt8)).length = ba.getReadSize :=
      List.length_replicate
    rw [if_neg (by rw [decide_eq_true_eq]; exact hzero)]
    rw [readAt_eq hwf beyond ba.m_position (by omega) (by omega), readAtStart_eq rfl, hlen]
    rw [if_pos (.inr (by omega))]

theorem readAt_of_gt (beyond : Nat → Nat → UInt8) (buf : List UInt8) {size : Nat} (position : Nat)
    (h : ba.getReadSize < size) : ba.readAt beyond buf size position = .error .outOfRange := by
  unfold readAt
  rw [if_pos h]

theorem readAt_result (hwf : WF ba) (beyond : Nat → Nat → UInt8) (buf : List UInt8) (position : Nat)
    : ba.readAt beyond buf buf.length position
        = if ba.getReadSize < buf.length then
            .error .outOfRange
          else if ba.m_position < ba.m_capacity
              ∧ (buf.length = 0 ∨ ba.readAtStart position + buf.length ≤ ba.m_capacity) then
            .ok (((flatten ba.m_root).drop (ba.readAtStart position)).take buf.length)
          else
            .error .nullNode := by
  have hple := hwf.position_le
  have hsle := hwf.size_le
  split
  . next hgt => exact readAt_of_gt beyond buf position hgt
  . by_cases hpos : ba.m_position < ba.m_capacity
    . rw [readAt_eq hwf beyond position (by omega) hpos]
      simp only [hpos, true_and]
    . rw [readAt_at_capacity hwf beyond buf position (by omega) (by omega)]
      rw [if_neg (fun h => hpos h.1)]

/--
The `const` overload of `read` returns the `n` bytes at `position` when they are there and throws
when they are not.
-/
def ReadsAt (ba : ByteArray) (n position : Nat) : Prop :=
  ∀ (beyond : Nat → Nat → UInt8) (buf : List UInt8), buf.length = n →
    ba.readAt beyond buf n position
      = if position + n ≤ ba.m_size then
          .ok (((flatten ba.m_root).drop position).take n)
        else
          .error .outOfRange

theorem readsAt_iff (ba : ByteArray) (hreach : lts.Reachable IsNew ba) (n position : Nat)
    : ReadsAt ba n position
        ↔ if position + n ≤ ba.m_size then
            n ≤ ba.getReadSize ∧ ba.m_position < ba.m_capacity
            ∧ (n = 0 ∨ position / ba.m_baseSize = ba.m_position / ba.m_baseSize
              ∨ ba.readAtStart position + n ≤ ba.m_capacity
                ∧ ((flatten ba.m_root).drop (ba.readAtStart position)).take n
                    = ((flatten ba.m_root).drop position).take n)
          else
            ba.getReadSize < n := by
  have hwf := reachable_wf hreach
  have hsle := hwf.size_le
  have hple := hwf.position_le
  constructor
  . intro hreads
    have hread := hreads (fun _ _ => 0) (List.replicate n 0) List.length_replicate
    have hresult := readAt_result hwf (fun _ _ => 0) (List.replicate n 0) position
    rw [List.length_replicate, hread] at hresult
    split at hresult
    . next hin =>
      rw [if_pos hin]
      split at hresult
      . cases hresult
      . next hn =>
        split at hresult
        . next hok =>
          injection hresult with hbytes
          refine ⟨by omega, hok.1, ?_⟩
          cases hok.2 with
          | inl hzero => exact .inl hzero
          | inr hfits => exact .inr (.inr ⟨hfits, hbytes.symm⟩)
        . cases hresult
    . next hout =>
      rw [if_neg hout]
      split at hresult
      . next hn => exact hn
      . split at hresult
        . cases hresult
        . cases hresult
  . intro hcond beyond buf hbuf
    subst hbuf
    split at hcond
    . next hin =>
      obtain ⟨hn, hpos, hplace⟩ := hcond
      rw [if_pos hin, readAt_eq hwf beyond position hn hpos]
      cases hplace with
      | inl hzero =>
        rw [if_pos (.inl hzero), hzero]
        rfl
      | inr hplace =>
        cases hplace with
        | inl hnode =>
          rw [readAtStart_eq hnode, if_pos (.inr (by omega))]
        | inr hsame => rw [if_pos (.inr hsame.1), hsame.2]
    . next hout => rw [if_neg hout, readAt_of_gt beyond buf position hcond]

theorem readsAt_in_cursor_node : ReadsAt (twoNodes 2) 1 3 :=
  (readsAt_iff (twoNodes 2) (twoNodes_reachable (by decide)) 1 3).mpr (by decide)

theorem readAt_other_node
    : lts.Reachable IsNew (twoNodes 0)
      ∧ (twoNodes 0).m_size = 4
      ∧ (twoNodes 0).readAt (fun _ _ => 7) [0] 1 2 = .ok [1]
      ∧ ((flatten (twoNodes 0).m_root).drop 2).take 1 = [3]
      ∧ ¬ ReadsAt (twoNodes 0) 1 2 := by
  have hreach := @twoNodes_reachable 0 (by decide)
  have hread : (twoNodes 0).readAt (fun _ _ => 7) [0] 1 2 = .ok [1] := by
    simp [readAt, copyOut, getReadSize, Node.load, List.overwrite, twoNodes, nodeOf]
  refine ⟨hreach, rfl, hread, by decide, ?_⟩
  intro hreads
  have := hreads (fun _ _ => 7) [0] rfl
  rw [hread, if_pos (by decide)] at this
  injection this with hbytes
  exact absurd hbytes (by decide)

end ReadAt

end ByteArray
end CXS
