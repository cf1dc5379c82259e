import CXS.ByteArray.Flat

namespace CXS
namespace ByteArray

theorem reachable_wf {ba : ByteArray} (h : lts.Reachable IsNew ba) : WF ba := by
  obtain ⟨s, trace, ⟨base_size, content, hbase, rfl⟩, hrun⟩ := h
  exact (run_wf hrun (wf_new hbase content) rfl).1

theorem ceil_eq_div_add {base_size missing : Nat} (hbase : 0 < base_size)
    : (missing + base_size - 1) / base_size
        = missing / base_size + (if missing % base_size = 0 then 0 else 1) := by
  have hdiv := Nat.div_add_mod missing base_size
  have hmod := Nat.mod_lt missing hbase
  split
  . next hzero =>
    have hsum : missing + base_size - 1
        = (base_size - 1) + base_size * (missing / base_size) := by omega
    rw [hsum, Nat.add_mul_div_left _ _ hbase, Nat.div_eq_of_lt (by omega)]
    omega
  . next hne =>
    have hsum : missing + base_size - 1
        = (missing % base_size - 1) + base_size * (missing / base_size + 1) := by
      rw [Nat.mul_succ]
      omega
    rw [hsum, Nat.add_mul_div_left _ _ hbase, Nat.div_eq_of_lt (by omega)]
    omega

theorem nodeCount_eq_ceil {base_size old_cap missing : Nat} (hbase : 0 < base_size)
    (h : missing % base_size = 0 ∨ old_cap < missing % base_size)
    : nodeCount base_size old_cap missing = (missing + base_size - 1) / base_size := by
  rw [ceil_eq_div_add hbase]
  unfold nodeCount
  congr 1
  split
  . rw [if_neg (by omega)]
  . rw [if_pos (by omega)]

theorem le_ceil_mul {base_size missing : Nat} (hbase : 0 < base_size)
    : missing ≤ (missing + base_size - 1) / base_size * base_size := by
  have hdiv := Nat.div_add_mod (missing + base_size - 1) base_size
  have hmod := Nat.mod_lt (missing + base_size - 1) hbase
  rw [Nat.mul_comm] at hdiv
  omega

theorem nodeCount_mul_lt {base_size old_cap missing : Nat} (hpos : 0 < missing % base_size)
    (hle : missing % base_size ≤ old_cap)
    : nodeCount base_size old_cap missing * base_size < missing := by
  have hdiv := Nat.div_add_mod missing base_size
  unfold nodeCount
  rw [if_neg (by omega), Nat.add_zero, Nat.mul_comm]
  omega

theorem addCapacity_room_iff {ba : ByteArray} (hwf : WF ba) (fresh : Nat → Nat → UInt8) (n : Nat)
    : n ≤ (ba.addCapacity fresh n).getCapacity
        ↔ n ≤ ba.getCapacity ∨ (n - ba.getCapacity) % ba.m_baseSize = 0
            ∨ ba.getCapacity < (n - ba.getCapacity) % ba.m_baseSize := by
  have hple := hwf.position_le
  have hsle := hwf.size_le
  have hcapdef : ba.getCapacity = ba.m_capacity - ba.m_position := rfl
  by_cases hle : n ≤ ba.getCapacity
  . rw [addCapacity_of_le ba fresh n hle]
    omega
  . have hnew : (ba.addCapacity fresh n).getCapacity
        = (ba.addCapacity fresh n).m_capacity - (ba.addCapacity fresh n).m_position := rfl
    rw [hnew, addCapacity_position, addCapacity_capacity ba fresh n (by omega)]
    constructor
    . intro hroom
      apply Classical.byContradiction
      intro hcond
      have hlt := @nodeCount_mul_lt ba.m_baseSize ba.getCapacity (n - ba.getCapacity) (by omega)
        (by omega)
      omega
    . intro hcond
      have hceil := @nodeCount_eq_ceil ba.m_baseSize ba.getCapacity (n - ba.getCapacity)
        hwf.base_pos (by omega)
      have hmul := @le_ceil_mul ba.m_baseSize (n - ba.getCapacity) hwf.base_pos
      rw [hceil]
      omega

/--
`addCapacity` leaves room for `n` bytes and no more nodes than needed, and the calls that rely on it
complete.
-/
def Suffices (ba : ByteArray) (fresh : Nat → Nat → UInt8) (n : Nat) : Prop :=
  n ≤ (ba.addCapacity fresh n).getCapacity
  ∧ (ba.getCapacity < n →
      (ba.addCapacity fresh n).m_root.length
        = ba.m_root.length + (n - ba.getCapacity + ba.m_baseSize - 1) / ba.m_baseSize)
  ∧ (∀ buf : List UInt8, buf.length = n → ∃ ba', ba.write fresh buf n = .ok ba')
  ∧ ∃ ba' iovs size, ba.getWriteBuffers fresh n = .ok (ba', iovs, size)

theorem suffices_of_room {ba : ByteArray} (hwf : WF ba) (fresh : Nat → Nat → UInt8) (n : Nat)
    (hroom : n ≤ (ba.addCapacity fresh n).getCapacity)
    : (∀ buf : List UInt8, buf.length = n → ∃ ba', ba.write fresh buf n = .ok ba')
      ∧ ∃ ba' iovs size, ba.getWriteBuffers fresh n = .ok (ba', iovs, size) := by
  by_cases hzero : n = 0
  . subst hzero
    constructor
    . intro buf _
      exact ⟨ba, by unfold write; rfl⟩
    . exact ⟨ba, [], 0, by unfold getWriteBuffers; rfl⟩
  . constructor
    . intro buf hbuf
      obtain ⟨chain', hwrite, -⟩ := write_eq_ok hwf fresh buf n (by omega) (by omega) hroom
      exact ⟨_, hwrite⟩
    . obtain ⟨iovs, hbufs⟩ := getWriteBuffers_eq_ok hwf fresh n (by omega) hroom
      exact ⟨_, iovs, n, hbufs⟩

theorem addCapacity_suffices_iff (ba : ByteArray) (hreach : lts.Reachable IsNew ba)
    (fresh : Nat → Nat → UInt8) (n : Nat)
    : Suffices ba fresh n
        ↔ n ≤ ba.getCapacity ∨ (n - ba.getCapacity) % ba.m_baseSize = 0
            ∨ ba.getCapacity < (n - ba.getCapacity) % ba.m_baseSize := by
  have hwf := reachable_wf hreach
  rw [← addCapacity_room_iff hwf fresh n]
  constructor
  . intro hsuff
    exact hsuff.1
  . intro hroom
    refine ⟨hroom, ?_, suffices_of_room hwf fresh n hroom⟩
    intro hlt
    have hcond := (addCapacity_room_iff hwf fresh n).mp hroom
    rw [addCapacity_length ba fresh n hlt]
    rw [nodeCount_eq_ceil hwf.base_pos (by omega)]

theorem addCapacity_suffices_at_base
    : Suffices (new 2 fun _ => 9) (fun _ _ => 9) 4 :=
  (addCapacity_suffices_iff (new 2 fun _ => 9)
    ⟨_, [], ⟨2, fun _ => 9, by decide, rfl⟩, .nil _⟩ (fun _ _ => 9) 4).mpr (by decide)

theorem addCapacity_short
    : lts.Reachable IsNew (new 2 fun _ => 9)
      ∧ ((new 2 fun _ => 9).addCapacity (fun _ _ => 9) 3).getCapacity = 2
      ∧ (new 2 fun _ => 9).write (fun _ _ => 9) [1, 2, 3] 3 = .error .nullNode
      ∧ (new 2 fun _ => 9).getWriteBuffers (fun _ _ => 9) 3 = .error .nullNode := by
  have hwf := wf_new (by decide : 0 < 2) fun _ => 9
  have hcap : ((new 2 fun _ => 9).addCapacity (fun _ _ => 9) 3).getCapacity = 2 := by decide
  refine ⟨?_, hcap, ?_, ?_⟩
  . exact ⟨_, [], ⟨2, fun _ => 9, by decide, rfl⟩, .nil _⟩
  . apply write_eq_error hwf
    . decide
    . rw [hcap]
      decide
  . apply getWriteBuffers_eq_error hwf
    rw [hcap]
    decide

section SetPosition

-- `setPosition` together with the members as it leaves them when it does not return
def setPositionEffect (ba : ByteArray) (val : Nat) : Except Fault Unit × ByteArray :=
  if val > ba.m_capacity then
    (.error .outOfRange, ba)
  else
    let ba := { ba with
      m_position := val
      m_size := if val > ba.m_size then val else ba.m_size
    }
    match setPosition.go ba.m_root 0 val with
    | .error e => (.error e, { ba with m_current := none })
    | .ok cur => (.ok (), { ba with m_current := cur })

theorem setPosition_eq_effect (ba : ByteArray) (val : Nat)
    : ba.setPosition val
        = (ba.setPositionEffect val).1.map fun _ => (ba.setPositionEffect val).2 := by
  unfold setPosition setPositionEffect
  split
  . rfl
  . dsimp only
    cases setPosition.go ba.m_root 0 val with
    | error e => rfl
    | ok cur => rfl

/--
`setPosition` throws and leaves everything as it was for a position behind the capacity, and
otherwise moves the cursor, to the null node when the position is the capacity itself.
-/
def SetsPosition (ba : ByteArray) (val : Nat) : Prop :=
  (ba.setPositionEffect val = (.error .outOfRange, ba) ↔ val > ba.m_capacity)
  ∧ (val ≤ ba.m_capacity →
      ba.setPositionEffect val
        = (.ok (), { ba with
            m_position := val
            m_size := max ba.m_size val
            m_current := if val = ba.m_capacity then none else some (val / ba.m_baseSize)
          }))

theorem setPositionEffect_of_gt {ba : ByteArray} {val : Nat} (hgt : val > ba.m_capacity)
    : ba.setPositionEffect val = (.error .outOfRange, ba) := by
  unfold setPositionEffect
  rw [if_pos hgt]

theorem setPositionEffect_of_lt {ba : ByteArray} (hwf : WF ba) {val : Nat}
    (hlt : val < ba.m_capacity)
    : ba.setPositionEffect val
        = (.ok (), { ba with
            m_position := val
            m_size := max ba.m_size val
            m_current := some (val / ba.m_baseSize)
          }) := by
  have hcapeq := hwf.capacity_eq
  have hgo := setPosition.go_eq_ok hwf.uniform 0 val (by omega)
  unfold setPositionEffect
  rw [if_neg (by omega)]
  dsimp only
  rw [hgo, Nat.zero_add, if_lt_eq_max]

theorem setPositionEffect_of_eq {ba : ByteArray} (hwf : WF ba) (val : Nat)
    (heq : val = ba.m_capacity) : (ba.setPositionEffect val).1 = .error .nullNode := by
  have hcapeq := hwf.capacity_eq
  have hgo := setPosition.go_eq_error hwf.uniform 0 val (by omega)
  unfold setPositionEffect
  rw [if_neg (by omega)]
  dsimp only
  rw [hgo]

theorem setsPosition_iff (ba : ByteArray) (hreach : lts.Reachable IsNew ba) (val : Nat)
    : SetsPosition ba val ↔ val ≠ ba.m_capacity := by
  have hwf := reachable_wf hreach
  constructor
  . intro hsets heq
    have hnull := setPositionEffect_of_eq hwf _ heq
    rw [hsets.2 (by omega)] at hnull
    cases hnull
  . intro hne
    constructor
    . constructor
      . intro hthrow
        apply Nat.lt_of_not_le
        intro hle
        rw [setPositionEffect_of_lt hwf (by omega)] at hthrow
        cases hthrow
      . apply setPositionEffect_of_gt
    . intro hle
      rw [if_neg hne]
      apply setPositionEffect_of_lt hwf
      omega

theorem setsPosition_within_node : SetsPosition (new 2 fun _ => 9) 1 :=
  (setsPosition_iff (new 2 fun _ => 9) ⟨_, [], ⟨2, fun _ => 9, by decide, rfl⟩, .nil _⟩ 1).mpr
    (by decide)

theorem setPosition_at_capacity
    : lts.Reachable IsNew (new 2 fun _ => 9)
      ∧ (new 2 fun _ => 9).m_capacity = 2
      ∧ (new 2 fun _ => 9).setPosition 2 = .error .nullNode
      ∧ ¬ SetsPosition (new 2 fun _ => 9) 2 := by
  have hwf := wf_new (by decide : 0 < 2) fun _ => 9
  have hnull := setPositionEffect_of_eq hwf 2 rfl
  refine ⟨?_, rfl, ?_, ?_⟩
  . exact ⟨_, [], ⟨2, fun _ => 9, by decide, rfl⟩, .nil _⟩
  . rw [setPosition_eq_effect, hnull]
    rfl
  . intro hsets
    rw [hsets.2 (by decide)] at hnull
    cases hnull

end SetPosition

end ByteArray
end CXS
