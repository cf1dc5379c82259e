import CXS.ByteArray.Impl

namespace CXS

theorem Node.store_ok (node : Node) (npos : Nat) (bytes : List UInt8)
    (h : npos + bytes.length ≤ node.size)
    : ∃ node' : Node, node.store npos bytes = .ok node' ∧ node'.size = node.size
        ∧ node'.data = node.data.overwrite npos bytes := by
  unfold store
  rw [dif_pos h]
  exact ⟨_, rfl, rfl, rfl⟩

theorem Node.load_of_le (node : Node) (beyond : Nat → UInt8) (npos len : Nat)
    (h : npos + len ≤ node.size) : node.load beyond npos len = (node.data.drop npos).take len := by
  have := node.hsize
  unfold load
  rw [List.drop_append_of_le_length (by omega)]
  rw [List.take_append_of_le_length (by rw [List.length_drop]; omega)]

theorem Node.length_load (node : Node) (beyond : Nat → UInt8) (npos len : Nat)
    (h : npos ≤ node.size) : (node.load beyond npos len).length = len := by
  have := node.hsize
  simp only [load, List.length_take, List.length_drop, List.length_append, List.length_map,
    List.length_range]
  omega

theorem Node.take_load (node : Node) (beyond : Nat → UInt8) (npos len : Nat)
    (hlen : node.size - npos ≤ len) (h : npos ≤ node.size)
    : (node.load beyond npos len).take (node.size - npos) = node.data.drop npos := by
  have := node.hsize
  unfold load
  rw [List.take_take, Nat.min_eq_left hlen]
  rw [List.drop_append_of_le_length (by omega)]
  rw [List.take_append_of_le_length (by rw [List.length_drop]; omega)]
  rw [List.take_of_length_le (by rw [List.length_drop]; omega)]

namespace ByteArray

def Uniform (b : Nat) (chain : List Node) : Prop :=
  ∀ node ∈ chain, node.size = b

-- the pointer to the node that holds the byte at `pos`, null at the end of a chain of `len` nodes
def nodeOf (b len pos : Nat) : Option Nat :=
  if pos = len * b then none else some (pos / b)

namespace Uniform

variable {b : Nat} {chain : List Node}

theorem chunked (h : Uniform b chain) : Chunked b (chain.map Node.data) := by
  intro data hdata
  obtain ⟨node, hnode, rfl⟩ := List.mem_map.mp hdata
  rw [node.hsize]
  apply h
  assumption

theorem length_flatten (h : Uniform b chain) : (flatten chain).length = chain.length * b := by
  unfold flatten
  rw [h.chunked.length_flatten]
  rw [List.length_map]

theorem size_eq (h : Uniform b chain) {i : Nat} {node : Node} (hi : chain[i]? = some node)
    : node.size = b := by
  apply h
  apply List.mem_of_getElem? hi

theorem append {chain' : List Node} (h : Uniform b chain) (h' : Uniform b chain')
    : Uniform b (chain ++ chain') := by
  intro node hnode
  cases List.mem_append.mp hnode with
  | inl hmem => exact h node hmem
  | inr hmem => exact h' node hmem

theorem set (h : Uniform b chain) {i : Nat} {node : Node} (hnode : node.size = b)
    : Uniform b (chain.set i node) := by
  intro node' hnode'
  cases List.mem_or_eq_of_mem_set hnode' with
  | inl hmem => exact h node' hmem
  | inr heq => rw [heq, hnode]

theorem drop_flatten (h : Uniform b chain) {i r : Nat} {node : Node} (hi : chain[i]? = some node)
    (hr : r ≤ b)
    : (flatten chain).drop (i * b + r) = node.data.drop r ++ flatten (chain.drop (i + 1)) := by
  have hdata : (chain.map Node.data)[i]? = some node.data := by
    rw [List.getElem?_map, hi]
    rfl
  unfold flatten
  rw [h.chunked.drop_flatten_offset hdata hr]
  rw [List.map_drop]

theorem flatten_set (h : Uniform b chain) {i r : Nat} {node node' : Node} {bytes : List UInt8}
    (hi : chain[i]? = some node) (hr : r + bytes.length ≤ b)
    (hdata : node'.data = node.data.overwrite r bytes)
    : flatten (chain.set i node') = (flatten chain).overwrite (i * b + r) bytes := by
  have hi' : (chain.map Node.data)[i]? = some node.data := by
    rw [List.getElem?_map, hi]
    rfl
  unfold flatten
  rw [List.map_set, hdata]
  rw [h.chunked.flatten_set_overwrite hi' hr]

end Uniform

theorem nodeOf_eq_next {b i r k : Nat} {chain : List Node} (hi : i < chain.length) (hr : r < b)
    (hk : r + k ≤ b)
    : (if b = r + k then next chain i else some i)
        = if 0 < k then nodeOf b chain.length (i * b + r + k) else some i := by
  split
  . next heq =>
    have hk : 0 < k := by omega
    have hpos : i * b + r + k = (i + 1) * b := by
      rw [Nat.succ_mul]
      omega
    rw [if_pos hk, hpos]
    unfold next nodeOf
    rw [Nat.mul_div_cancel _ (by omega)]
    split
    . next hlt =>
      have : (i + 1) * b < chain.length * b := Nat.mul_lt_mul_of_pos_right hlt (by omega)
      rw [if_neg (by omega)]
    . have : i + 1 = chain.length := by omega
      rw [if_pos (by rw [this])]
  . next hne =>
    split
    . have hlt : i * b + r + k < (i + 1) * b := by
        rw [Nat.succ_mul]
        omega
      have hle : (i + 1) * b ≤ chain.length * b := Nat.mul_le_mul_right b hi
      unfold nodeOf
      rw [if_neg (by omega)]
      rw [Nat.add_assoc, Nat.mul_comm, Nat.mul_add_div (by omega)]
      rw [Nat.div_eq_of_lt (by omega)]
      rfl
    . rfl

theorem write.go_eq_ok {b : Nat} {chain : List Node} (hu : Uniform b chain) (buf : List UInt8)
    (i size npos bpos position : Nat) (hi : i < chain.length) (hnpos : npos < b) (hsize : 0 < size)
    (hbuf : bpos + size ≤ buf.length) (hcap : i * b + npos + size ≤ chain.length * b)
    : ∃ chain',
        go chain buf i size npos (b - npos) bpos position
          = .ok (chain', nodeOf b chain.length (i * b + npos + size), position + size)
        ∧ Uniform b chain' ∧ chain'.length = chain.length
        ∧ flatten chain'
            = (flatten chain).overwrite (i * b + npos) ((buf.drop bpos).take size) := by
  have hcur : chain[i]? = some chain[i] := List.getElem?_eq_getElem hi
  have hcursize := hu.size_eq hcur
  unfold go
  rw [if_neg (by omega), hcur]
  dsimp only
  split
  . next hncap =>
    have hlen : ((buf.drop bpos).take size).length = size := by
      rw [List.length_take, List.length_drop]
      omega
    obtain ⟨cur', hstore, hsize', hdata⟩ :=
      chain[i].store_ok npos ((buf.drop bpos).take size) (by omega)
    rw [hstore]
    dsimp only
    rw [hcursize, nodeOf_eq_next hi hnpos (by omega), if_pos hsize]
    refine ⟨_, rfl, ?_, ?_, ?_⟩
    . apply hu.set
      rw [hsize', hcursize]
    . rw [List.length_set]
    . apply hu.flatten_set hcur
      . omega
      . exact hdata
  . next hncap =>
    have hlen : ((buf.drop bpos).take (b - npos)).length = b - npos := by
      rw [List.length_take, List.length_drop]
      omega
    obtain ⟨cur', hstore, hsize', hdata⟩ :=
      chain[i].store_ok npos ((buf.drop bpos).take (b - npos)) (by omega)
    have hsucc : (i + 1) * b = i * b + b := Nat.succ_mul i b
    have hlt : i + 1 < chain.length := by
      apply Nat.lt_of_mul_lt_mul_right (a := b)
      omega
    have hnextsize : chain[i + 1].size = b := hu.size_eq (List.getElem?_eq_getElem hlt)
    rw [hstore]
    dsimp only
    rw [dif_pos hlt, hnextsize]
    have hu' : Uniform b (chain.set i cur') := hu.set (by rw [hsize', hcursize])
    obtain ⟨chain', hgo, hu'', hlen', hflat⟩ :=
      go_eq_ok hu' buf (i + 1) (size - (b - npos)) 0 (bpos + (b - npos)) (position + (b - npos))
        (by rw [List.length_set]; exact hlt) (by omega) (by omega) (by omega)
        (by rw [List.length_set]; omega)
    have hpos : (i + 1) * b + 0 + (size - (b - npos)) = i * b + npos + size := by omega
    have hposition : position + (b - npos) + (size - (b - npos)) = position + size := by omega
    rw [List.length_set] at hgo hlen'
    rw [hpos, hposition, Nat.sub_zero] at hgo
    refine ⟨chain', hgo, hu'', hlen', ?_⟩
    have hle : i * b + npos ≤ (flatten chain).length := by
      rw [hu.length_flatten]
      omega
    rw [hflat, hu.flatten_set hcur (by omega) hdata]
    have hstart : (i + 1) * b + 0 = i * b + npos + ((buf.drop bpos).take (b - npos)).length := by
      omega
    rw [hstart, List.overwrite_overwrite hle]
    rw [List.take_drop_append_take_drop]
    have : b - npos + (size - (b - npos)) = size := by omega
    rw [this]
termination_by chain.length - i
decreasing_by
  rw [List.length_set]
  omega

theorem write.go_eq_error {b : Nat} {chain : List Node} (hu : Uniform b chain) (buf : List UInt8)
    (i size npos bpos position : Nat) (hi : i < chain.length) (hnpos : npos < b)
    (hbuf : bpos + size ≤ buf.length) (hcap : chain.length * b < i * b + npos + size)
    : go chain buf i size npos (b - npos) bpos position = .error .nullNode := by
  have hcur : chain[i]? = some chain[i] := List.getElem?_eq_getElem hi
  have hcursize := hu.size_eq hcur
  have hsucc : (i + 1) * b = i * b + b := Nat.succ_mul i b
  have hle : (i + 1) * b ≤ chain.length * b := Nat.mul_le_mul_right b hi
  have hlen : ((buf.drop bpos).take (b - npos)).length = b - npos := by
    rw [List.length_take, List.length_drop]
    omega
  obtain ⟨cur', hstore, hsize', hdata⟩ :=
    chain[i].store_ok npos ((buf.drop bpos).take (b - npos)) (by omega)
  unfold go
  rw [if_neg (by omega), hcur]
  dsimp only
  rw [if_neg (by omega), hstore]
  dsimp only
  split
  . next hlt =>
    have hnextsize : chain[i + 1].size = b := hu.size_eq (List.getElem?_eq_getElem hlt)
    have hu' : Uniform b (chain.set i cur') := hu.set (by rw [hsize', hcursize])
    have := go_eq_error hu' buf (i + 1) (size - (b - npos)) 0 (bpos + (b - npos))
      (position + (b - npos)) (by rw [List.length_set]; exact hlt) (by omega) (by omega)
      (by rw [List.length_set]; omega)
    rw [hnextsize]
    exact this
  . rfl
termination_by chain.length - i
decreasing_by
  rw [List.length_set]
  omega

theorem copyOut_eq_ok {b : Nat} {chain : List Node} (hu : Uniform b chain)
    (beyond : Nat → Nat → UInt8) (buf : List UInt8) (i size npos bpos position : Nat)
    (hi : i < chain.length) (hnpos : npos < b) (hsize : 0 < size)
    (hbuf : bpos + size ≤ buf.length) (hcap : i * b + npos + size ≤ chain.length * b)
    : copyOut chain beyond buf i size npos (b - npos) bpos position
        = .ok (buf.overwrite bpos (((flatten chain).drop (i * b + npos)).take size),
            nodeOf b chain.length (i * b + npos + size), position + size) := by
  have hcur : chain[i]? = some chain[i] := List.getElem?_eq_getElem hi
  have hcursize := hu.size_eq hcur
  have hcurlen := chain[i].hsize
  have hsplit := hu.drop_flatten hcur (Nat.le_of_lt hnpos)
  have hloadlen := chain[i].length_load (beyond i) npos size (by omega)
  unfold copyOut
  rw [if_neg (by omega), hcur]
  dsimp only
  split
  . next hncap =>
    rw [chain[i].load_of_le (beyond i) npos size (by omega)]
    rw [hcursize, nodeOf_eq_next hi hnpos (by omega), if_pos hsize]
    rw [hsplit, List.take_append_of_le_length (by rw [List.length_drop]; omega)]
  . next hncap =>
    have hsucc : (i + 1) * b = i * b + b := Nat.succ_mul i b
    have hlt : i + 1 < chain.length := by
      apply Nat.lt_of_mul_lt_mul_right (a := b)
      omega
    have hnextsize : chain[i + 1].size = b := hu.size_eq (List.getElem?_eq_getElem hlt)
    rw [dif_pos hlt, hnextsize]
    have hrec := copyOut_eq_ok hu beyond
      (buf.overwrite bpos (chain[i].load (beyond i) npos size)) (i + 1) (size - (b - npos)) 0
      (bpos + (b - npos)) (position + (b - npos)) hlt (by omega) (by omega)
      (by rw [List.length_overwrite (by omega)]; omega) (by omega)
    rw [Nat.sub_zero] at hrec
    rw [hrec]
    have hpos : (i + 1) * b + 0 + (size - (b - npos)) = i * b + npos + size := by omega
    have hposition : position + (b - npos) + (size - (b - npos)) = position + size := by omega
    have hflen := hu.length_flatten
    have hzs : (((flatten chain).drop ((i + 1) * b + 0)).take (size - (b - npos))).length
        = size - (b - npos) := by
      rw [List.length_take, List.length_drop]
      omega
    rw [hpos, hposition]
    -- the garbage of this iteration's copy is exactly what the remaining iterations overwrite
    rw [List.overwrite_overwrite_of_le (by omega) (by omega) (by omega)]
    have htake := chain[i].take_load (beyond i) npos size (by omega) (by omega)
    rw [hcursize] at htake
    rw [htake]
    have hfirst : chain[i].data.drop npos
        = ((flatten chain).drop (i * b + npos)).take (b - npos) := by
      rw [hsplit, List.take_append_of_le_length (by rw [List.length_drop]; omega)]
      rw [List.take_of_length_le (by rw [List.length_drop]; omega)]
    have hstart : (i + 1) * b + 0 = i * b + npos + (b - npos) := by omega
    rw [hfirst, hstart, List.take_drop_append_take_drop]
    have : b - npos + (size - (b - npos)) = size := by omega
    rw [this]
termination_by chain.length - i

theorem setPosition.go_eq_ok {b : Nat} {chain : List Node} (hu : Uniform b chain) (i val : Nat)
    (hval : i * b + val < chain.length * b)
    : go chain i val = .ok (some (i + val / b)) := by
  have hi : i < chain.length := by
    apply Nat.lt_of_mul_lt_mul_right (a := b)
    omega
  have hsize : chain[i].size = b := hu.size_eq (List.getElem?_eq_getElem hi)
  have hb : 0 < b := by
    apply Nat.pos_of_ne_zero
    intro hzero
    rw [hzero] at hval
    omega
  unfold go
  rw [dif_pos hi, hsize]
  split
  . next hge =>
    have hsucc : (i + 1) * b = i * b + b := Nat.succ_mul i b
    rw [go_eq_ok hu (i + 1) (val - b) (by omega)]
    rw [Nat.div_eq_sub_div hb hge]
    congr 2
    omega
  . next hlt =>
    rw [if_neg (by omega)]
    rw [Nat.div_eq_of_lt (by omega)]
    rfl
termination_by chain.length - i

theorem setPosition.go_eq_error {b : Nat} {chain : List Node} (hu : Uniform b chain) (i val : Nat)
    (hval : chain.length * b ≤ i * b + val)
    : go chain i val = .error .nullNode := by
  unfold go
  split
  . next hi =>
    have hsize : chain[i].size = b := hu.size_eq (List.getElem?_eq_getElem hi)
    have hsucc : (i + 1) * b = i * b + b := Nat.succ_mul i b
    have hle : (i + 1) * b ≤ chain.length * b := Nat.mul_le_mul_right b hi
    rw [hsize, if_pos (by omega)]
    apply go_eq_error hu
    omega
  . rfl
termination_by chain.length - i

theorem getWriteBuffers.go_eq_ok {b : Nat} {chain : List Node} (hu : Uniform b chain)
    (i len npos : Nat) (hnpos : npos < b) (hcap : i * b + npos + len ≤ chain.length * b)
    : ∃ iovs, go chain i len npos (b - npos) = .ok iovs := by
  unfold go
  split
  . exact ⟨_, rfl⟩
  . split
    . exact ⟨_, rfl⟩
    . have hsucc : (i + 1) * b = i * b + b := Nat.succ_mul i b
      have hlt : i + 1 < chain.length := by
        apply Nat.lt_of_mul_lt_mul_right (a := b)
        omega
      have hnextsize : chain[i + 1].size = b := hu.size_eq (List.getElem?_eq_getElem hlt)
      rw [dif_pos hlt, hnextsize]
      obtain ⟨iovs, hgo⟩ := go_eq_ok hu (i + 1) (len - (b - npos)) 0 (by omega) (by omega)
      rw [Nat.sub_zero] at hgo
      rw [hgo]
      exact ⟨_, rfl⟩
termination_by chain.length - i

theorem getWriteBuffers.go_eq_error {b : Nat} {chain : List Node} (hu : Uniform b chain)
    (i len npos : Nat) (hi : i < chain.length) (hnpos : npos < b)
    (hcap : chain.length * b < i * b + npos + len)
    : go chain i len npos (b - npos) = .error .nullNode := by
  have hsucc : (i + 1) * b = i * b + b := Nat.succ_mul i b
  have hle : (i + 1) * b ≤ chain.length * b := Nat.mul_le_mul_right b hi
  unfold go
  rw [if_neg (by omega), if_neg (by omega)]
  split
  . next hlt =>
    have hnextsize : chain[i + 1].size = b := hu.size_eq (List.getElem?_eq_getElem hlt)
    have := go_eq_error hu (i + 1) (len - (b - npos)) 0 hlt (by omega) (by omega)
    rw [Nat.sub_zero] at this
    rw [hnextsize, this]
  . rfl
termination_by chain.length - i

end ByteArray
end CXS
