import CXS.ByteArray.Lemmas

namespace CXS
namespace ByteArray

structure WF (ba : ByteArray) : Prop where
  base_pos : 0 < ba.m_baseSize
  uniform : Uniform ba.m_baseSize ba.m_root
  root_pos : 0 < ba.m_root.length
  capacity_eq : ba.m_capacity = ba.m_root.length * ba.m_baseSize
  position_le : ba.m_position ≤ ba.m_size
  size_le : ba.m_size ≤ ba.m_capacity
  current_eq : ba.m_current = nodeOf ba.m_baseSize ba.m_root.length ba.m_position

theorem uniform_new (b n : Nat) (fresh : Nat → Nat → UInt8)
    : Uniform b ((List.range n).map (fun i => Node.new b (fresh i))) := by
  intro node hnode
  obtain ⟨i, _, rfl⟩ := List.mem_map.mp hnode
  rfl

theorem wf_new {base_size : Nat} (hbase : 0 < base_size) (content : Nat → UInt8)
    : WF (new base_size content) where
  base_pos := hbase
  uniform := by
    intro node hnode
    rw [List.mem_singleton.mp hnode]
    rfl
  root_pos := by simp [new]
  capacity_eq := by simp [new]
  position_le := by simp [new]
  size_le := by simp [new]
  current_eq := by
    simp only [new, nodeOf, List.length_singleton, Nat.one_mul, Nat.zero_div]
    rw [if_neg (by omega)]

namespace WF

variable {ba : ByteArray}

theorem length_flatten (h : WF ba) : (flatten ba.m_root).length = ba.m_capacity := by
  rw [h.uniform.length_flatten, h.capacity_eq]

theorem current_none (h : WF ba) (hpos : ba.m_position = ba.m_capacity) : ba.m_current = none := by
  rw [h.current_eq]
  unfold nodeOf
  rw [if_pos (by rw [hpos, h.capacity_eq])]

theorem current_some (h : WF ba) (hpos : ba.m_position < ba.m_capacity)
    : ∃ (i : Nat) (hi : i < ba.m_root.length),
        ba.m_current = some i ∧ ba.m_root[i]? = some ba.m_root[i]
        ∧ ba.m_root[i].size = ba.m_baseSize ∧ ba.m_position % ba.m_baseSize < ba.m_baseSize
        ∧ i * ba.m_baseSize + ba.m_position % ba.m_baseSize = ba.m_position := by
  have hcap := h.capacity_eq
  have hi : ba.m_position / ba.m_baseSize < ba.m_root.length := by
    rw [Nat.div_lt_iff_lt_mul h.base_pos]
    omega
  have hcur := List.getElem?_eq_getElem hi
  refine ⟨_, hi, ?_, hcur, ?_, ?_, ?_⟩
  . rw [h.current_eq]
    unfold nodeOf
    rw [if_neg (by omega)]
  . exact h.uniform.size_eq hcur
  . exact Nat.mod_lt _ h.base_pos
  . exact Nat.div_add_mod' ba.m_position ba.m_baseSize

end WF

section AddCapacity

variable (ba : ByteArray) (fresh : Nat → Nat → UInt8) (size : Nat)

@[simp]
theorem addCapacity_position : (ba.addCapacity fresh size).m_position = ba.m_position := by
  unfold addCapacity
  dsimp only
  split
  . rfl
  . split <;> rfl

@[simp]
theorem addCapacity_size : (ba.addCapacity fresh size).m_size = ba.m_size := by
  unfold addCapacity
  dsimp only
  split
  . rfl
  . split <;> rfl

@[simp]
theorem addCapacity_baseSize : (ba.addCapacity fresh size).m_baseSize = ba.m_baseSize := by
  unfold addCapacity
  dsimp only
  split
  . rfl
  . split <;> rfl

theorem addCapacity_of_le (h : size ≤ ba.getCapacity) : ba.addCapacity fresh size = ba := by
  unfold addCapacity
  dsimp only
  split
  . rfl
  . rfl

def nodeCount (base_size old_cap missing : Nat) : Nat :=
  missing / base_size + (if missing % base_size > old_cap then 1 else 0)

theorem addCapacity_root (h : ba.getCapacity < size)
    : (ba.addCapacity fresh size).m_root
        = ba.m_root
          ++ (List.range (nodeCount ba.m_baseSize ba.getCapacity (size - ba.getCapacity))).map
              (fun i => Node.new ba.m_baseSize (fresh i)) := by
  unfold addCapacity
  dsimp only
  rw [if_neg (by omega), if_neg (by omega)]
  rfl

theorem addCapacity_length (h : ba.getCapacity < size)
    : (ba.addCapacity fresh size).m_root.length
        = ba.m_root.length
          + nodeCount ba.m_baseSize ba.getCapacity (size - ba.getCapacity) := by
  rw [addCapacity_root ba fresh size h]
  simp

theorem addCapacity_capacity (h : ba.getCapacity < size)
    : (ba.addCapacity fresh size).m_capacity
        = ba.m_capacity
          + nodeCount ba.m_baseSize ba.getCapacity (size - ba.getCapacity) * ba.m_baseSize := by
  unfold addCapacity
  dsimp only
  rw [if_neg (by omega), if_neg (by omega)]
  rfl

theorem addCapacity_current (h : ba.getCapacity < size)
    : (ba.addCapacity fresh size).m_current
        = if ba.getCapacity = 0 then
            if 0 < nodeCount ba.m_baseSize ba.getCapacity (size - ba.getCapacity) then
              some ba.m_root.length
            else
              none
          else
            ba.m_current := by
  unfold addCapacity
  dsimp only
  rw [if_neg (by omega), if_neg (by omega)]
  rfl

theorem addCapacity_flatten
    : ∃ extra, flatten (ba.addCapacity fresh size).m_root = flatten ba.m_root ++ extra := by
  by_cases h : size ≤ ba.getCapacity
  . rw [addCapacity_of_le ba fresh size h]
    exact ⟨[], by simp⟩
  . rw [addCapacity_root ba fresh size (by omega)]
    unfold flatten
    rw [List.map_append, List.flatten_append]
    exact ⟨_, rfl⟩

theorem nodeCount_pos {base_size missing : Nat} (hmissing : 0 < missing)
    : 0 < nodeCount base_size 0 missing := by
  unfold nodeCount
  split
  . exact Nat.succ_pos _
  . next hmod =>
    have hdiv := Nat.div_add_mod missing base_size
    have hzero : missing % base_size = 0 := by omega
    have : 0 < missing / base_size := by
      apply Nat.pos_of_ne_zero
      intro h0
      rw [h0, hzero] at hdiv
      omega
    omega

theorem addCapacity_wf {ba : ByteArray} (hwf : WF ba) : WF (ba.addCapacity fresh size) := by
  by_cases h : size ≤ ba.getCapacity
  . rw [addCapacity_of_le ba fresh size h]
    exact hwf
  . have hlt : ba.getCapacity < size := by omega
    have hroot := addCapacity_root ba fresh size hlt
    have hlen := addCapacity_length ba fresh size hlt
    have hcap := addCapacity_capacity ba fresh size hlt
    have hbase := hwf.base_pos
    have hcapeq := hwf.capacity_eq
    have hple := hwf.position_le
    have hsle := hwf.size_le
    constructor
    . rw [addCapacity_baseSize]
      exact hbase
    . rw [addCapacity_baseSize, hroot]
      apply hwf.uniform.append
      apply uniform_new
    . have := hwf.root_pos
      omega
    . rw [hcap, hlen, addCapacity_baseSize, Nat.add_mul, hcapeq]
    . rw [addCapacity_position, addCapacity_size]
      exact hple
    . rw [addCapacity_size, hcap]
      omega
    . rw [addCapacity_baseSize, addCapacity_position, hlen]
      rw [addCapacity_current ba fresh size hlt]
      have hcapdef : ba.getCapacity = ba.m_capacity - ba.m_position := rfl
      by_cases hfull : ba.getCapacity = 0
      . -- the cursor stands behind the last node: it moves to the first new node
        have hpos : ba.m_position = ba.m_capacity := by omega
        have hcount := @nodeCount_pos ba.m_baseSize (size - 0) (by omega)
        have hmul := Nat.mul_pos hcount hbase
        rw [hfull, if_pos rfl, if_pos hcount]
        unfold nodeOf
        rw [Nat.add_mul, ← hcapeq, if_neg (by omega)]
        rw [hpos, hcapeq, Nat.mul_div_cancel _ hbase]
      . rw [if_neg hfull, hwf.current_eq]
        unfold nodeOf
        rw [Nat.add_mul, ← hcapeq, if_neg (by omega), if_neg (by omega)]

end AddCapacity

theorem write_eq_ok {ba : ByteArray} (hwf : WF ba) (fresh : Nat → Nat → UInt8) (buf : List UInt8)
    (size : Nat) (hsize : 0 < size) (hbuf : size ≤ buf.length)
    (hcap : size ≤ (ba.addCapacity fresh size).getCapacity)
    : ∃ chain',
        ba.write fresh buf size
          = .ok { ba.addCapacity fresh size with
              m_root := chain'
              m_current :=
                nodeOf ba.m_baseSize (ba.addCapacity fresh size).m_root.length
                  (ba.m_position + size)
              m_position := ba.m_position + size
              m_size := if ba.m_position + size > ba.m_size then ba.m_position + size else ba.m_size
            }
        ∧ Uniform ba.m_baseSize chain'
        ∧ chain'.length = (ba.addCapacity fresh size).m_root.length
        ∧ flatten chain'
            = (flatten (ba.addCapacity fresh size).m_root).overwrite ba.m_position
                (buf.take size) := by
  have hwf' := addCapacity_wf fresh size hwf
  have hpos := addCapacity_position ba fresh size
  have hbase := addCapacity_baseSize ba fresh size
  have hmsize := addCapacity_size ba fresh size
  unfold getCapacity at hcap
  unfold write
  rw [if_neg (by omega)]
  generalize ba.addCapacity fresh size = ba' at *
  obtain ⟨i, hi, hcurrent, hcur, hcursize, hnpos, hsplit⟩ := hwf'.current_some (by omega)
  have hcapeq := hwf'.capacity_eq
  obtain ⟨chain', hgo, hu', hlen', hflat⟩ :=
    write.go_eq_ok hwf'.uniform buf i size (ba'.m_position % ba'.m_baseSize) 0 ba'.m_position hi
      hnpos hsize (by omega) (by omega)
  rw [hsplit] at hgo hflat
  dsimp only
  rw [hcurrent]
  dsimp only
  rw [hcur]
  dsimp only
  rw [hcursize, hgo]
  dsimp only
  rw [hpos, hbase, hmsize]
  rw [hbase] at hu'
  rw [hpos] at hflat
  exact ⟨chain', rfl, hu', hlen', hflat⟩

theorem write_eq_error {ba : ByteArray} (hwf : WF ba) (fresh : Nat → Nat → UInt8)
    (buf : List UInt8) (size : Nat) (hbuf : size ≤ buf.length)
    (hcap : (ba.addCapacity fresh size).getCapacity < size)
    : ba.write fresh buf size = .error .nullNode := by
  have hwf' := addCapacity_wf fresh size hwf
  unfold getCapacity at hcap
  unfold write
  rw [if_neg (by omega)]
  generalize ba.addCapacity fresh size = ba' at *
  have hcapeq := hwf'.capacity_eq
  have hple := hwf'.position_le
  have hsle := hwf'.size_le
  dsimp only
  by_cases hfull : ba'.m_position = ba'.m_capacity
  . rw [hwf'.current_none hfull]
  . obtain ⟨i, hi, hcurrent, hcur, hcursize, hnpos, hsplit⟩ := hwf'.current_some (by omega)
    rw [hcurrent]
    dsimp only
    rw [hcur]
    dsimp only
    rw [hcursize]
    rw [write.go_eq_error hwf'.uniform buf i size (ba'.m_position % ba'.m_baseSize) 0
      ba'.m_position hi hnpos (by omega) (by omega)]

theorem getWriteBuffers_eq_ok {ba : ByteArray} (hwf : WF ba) (fresh : Nat → Nat → UInt8)
    (len : Nat) (hlen : 0 < len) (hcap : len ≤ (ba.addCapacity fresh len).getCapacity)
    : ∃ iovs, ba.getWriteBuffers fresh len = .ok (ba.addCapacity fresh len, iovs, len) := by
  have hwf' := addCapacity_wf fresh len hwf
  unfold getCapacity at hcap
  unfold getWriteBuffers
  rw [if_neg (by omega)]
  generalize ba.addCapacity fresh len = ba' at *
  have hcapeq := hwf'.capacity_eq
  obtain ⟨i, hi, hcurrent, hcur, hcursize, hnpos, hsplit⟩ := hwf'.current_some (by omega)
  obtain ⟨iovs, hgo⟩ :=
    getWriteBuffers.go_eq_ok hwf'.uniform i len (ba'.m_position % ba'.m_baseSize) hnpos (by omega)
  dsimp only
  rw [hcurrent]
  dsimp only
  rw [hcur]
  dsimp only
  rw [hcursize, hgo]
  exact ⟨iovs, rfl⟩

theorem getWriteBuffers_eq_error {ba : ByteArray} (hwf : WF ba) (fresh : Nat → Nat → UInt8)
    (len : Nat) (hcap : (ba.addCapacity fresh len).getCapacity < len)
    : ba.getWriteBuffers fresh len = .error .nullNode := by
  have hwf' := addCapacity_wf fresh len hwf
  unfold getCapacity at hcap
  unfold getWriteBuffers
  rw [if_neg (by omega)]
  generalize ba.addCapacity fresh len = ba' at *
  have hcapeq := hwf'.capacity_eq
  have hple := hwf'.position_le
  have hsle := hwf'.size_le
  dsimp only
  by_cases hfull : ba'.m_position = ba'.m_capacity
  . rw [hwf'.current_none hfull]
  . obtain ⟨i, hi, hcurrent, hcur, hcursize, hnpos, hsplit⟩ := hwf'.current_some (by omega)
    rw [hcurrent]
    dsimp only
    rw [hcur]
    dsimp only
    rw [hcursize]
    rw [getWriteBuffers.go_eq_error hwf'.uniform i len (ba'.m_position % ba'.m_baseSize) hi hnpos
      (by omega)]

end ByteArray
end CXS
