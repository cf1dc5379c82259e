import CXS.ByteArray.Copies

/-!
This module contains the functions of `ByteArray` that hand out the unread bytes without copying
them: both overloads of `getReadBuffers` from `code/bytearray.cc`, and `SocketStream::write` from
`code/socket_stream.cc`, which sends them. The `iov` of the overload without a position is not
initialised, so what stands in it is an argument.
-/

namespace CXS
namespace ByteArray

namespace Iovec

def positions (b : Nat) (iov : Iovec) : List Nat :=
  List.range' (iov.node * b + iov.offset) iov.iov_len

def Within (chain : List Node) (iov : Iovec) : Prop :=
  ∃ node, chain[iov.node]? = some node ∧ iov.offset + iov.iov_len ≤ node.size

def load (chain : List Node) (iov : Iovec) : List UInt8 :=
  match chain[iov.node]? with
  | none => []
  | some node => (node.data.drop iov.offset).take iov.iov_len

/-- Non-empty ranges within nodes of `b` bytes that follow each other from `position` on. -/
inductive Tiles (b : Nat) : List Iovec → Nat → Nat → Prop where
  | nil (position : Nat) : Tiles b [] position 0
  | cons (iov : Iovec) (iovs : List Iovec) (len : Nat) (hpos : 0 < iov.iov_len)
    (hfit : iov.offset + iov.iov_len ≤ b)
    (hrest : Tiles b iovs (iov.node * b + iov.offset + iov.iov_len) len)
    : Tiles b (iov :: iovs) (iov.node * b + iov.offset) (iov.iov_len + len)

namespace Tiles

variable {b position len : Nat} {iovs : List Iovec}

theorem positions_eq (h : Tiles b iovs position len)
    : iovs.flatMap (positions b) = List.range' position len := by
  induction h with
  | nil => rfl
  | cons iov iovs len _ _ _ ih =>
    rw [List.flatMap_cons, ih]
    unfold positions
    rw [List.range'_append_1]

theorem len_pos (h : Tiles b iovs position len) : ∀ iov ∈ iovs, 0 < iov.iov_len := by
  induction h with
  | nil =>
    intro iov hiov
    cases hiov
  | cons _ _ _ hpos _ _ ih => exact List.forall_mem_cons.mpr ⟨hpos, ih⟩

theorem within {chain : List Node} (h : Tiles b iovs position len) (hu : Uniform b chain)
    (hcap : position + len ≤ chain.length * b) : ∀ iov ∈ iovs, iov.Within chain := by
  induction h with
  | nil =>
    intro iov hiov
    cases hiov
  | cons iov iovs len hpos hfit _ ih =>
    have hi : iov.node < chain.length := by
      apply Nat.lt_of_mul_lt_mul_right (a := b)
      omega
    have hnode := List.getElem?_eq_getElem hi
    intro iov' hmem
    cases hmem with
    | head =>
      refine ⟨chain[iov.node], hnode, ?_⟩
      rw [hu.size_eq hnode]
      exact hfit
    | tail _ hmem =>
      apply ih
      . omega
      . exact hmem

end Tiles
end Iovec

/-- The ranges, concatenated, are the `len` bytes of the chain from `position` on. -/
def Describes (ba : ByteArray) (iovs : List Iovec) (position len : Nat) : Prop :=
  (∀ iov ∈ iovs, iov.Within ba.m_root)
  ∧ iovs.flatMap (Iovec.positions ba.m_baseSize) = List.range' position len

-- the bytes that `sendmsg` finds in the buffers
def gather (ba : ByteArray) (iovs : List Iovec) : List UInt8 :=
  iovs.flatMap (Iovec.load ba.m_root)

theorem Iovec.load_eq {b : Nat} {chain : List Node} (hu : Uniform b chain) {iov : Iovec}
    (h : iov.Within chain)
    : iov.load chain = (iov.positions b).filterMap ((flatten chain)[·]?) := by
  obtain ⟨node, hnode, hfit⟩ := h
  have hsize := hu.size_eq hnode
  have hlen := node.hsize
  unfold load positions
  rw [hnode]
  dsimp only
  rw [List.filterMap_getElem?_range', hu.drop_flatten hnode (by omega)]
  rw [List.take_append_of_le_length (by rw [List.length_drop]; omega)]

theorem Describes.gather_eq {ba : ByteArray} (hwf : WF ba) {iovs : List Iovec} {position len : Nat}
    (h : ba.Describes iovs position len)
    : ba.gather iovs = ((flatten ba.m_root).drop position).take len := by
  have hload : iovs.flatMap (Iovec.load ba.m_root)
      = iovs.flatMap fun iov =>
          (iov.positions ba.m_baseSize).filterMap ((flatten ba.m_root)[·]?) := by
    apply List.flatMap_congr
    intro iov hiov
    exact Iovec.load_eq hwf.uniform (h.1 iov hiov)
  unfold gather
  rw [hload, ← List.filterMap_flatMap, h.2, List.filterMap_getElem?_range']

theorem Iovec.Tiles.describes {ba : ByteArray} (hwf : WF ba) {iovs : List Iovec}
    {position len : Nat} (h : Tiles ba.m_baseSize iovs position len)
    (hcap : position + len ≤ ba.m_capacity) : ba.Describes iovs position len := by
  rw [hwf.capacity_eq] at hcap
  exact ⟨h.within hwf.uniform hcap, h.positions_eq⟩

theorem getWriteBuffers.go_tiles {b : Nat} {chain : List Node} (hu : Uniform b chain)
    (i len npos : Nat) (hnpos : npos < b) (hcap : i * b + npos + len ≤ chain.length * b)
    : ∃ iovs, go chain i len npos (b - npos) = .ok iovs
        ∧ Iovec.Tiles b iovs (i * b + npos) len := by
  unfold go
  split
  . next hzero =>
    rw [hzero]
    exact ⟨_, rfl, .nil _⟩
  . next hlen =>
    split
    . next hncap =>
      have htiles := Iovec.Tiles.cons { node := i, offset := npos, iov_len := len } [] 0
        (Nat.pos_of_ne_zero hlen) (show npos + len ≤ b by omega) (.nil _)
      exact ⟨_, rfl, htiles⟩
    . have hsucc : (i + 1) * b = i * b + b := Nat.succ_mul i b
      have hlt : i + 1 < chain.length := by
        apply Nat.lt_of_mul_lt_mul_right (a := b)
        omega
      have hnextsize : chain[i + 1].size = b := hu.size_eq (List.getElem?_eq_getElem hlt)
      obtain ⟨iovs, hgo, hrest⟩ := go_tiles hu (i + 1) (len - (b - npos)) 0 (by omega) (by omega)
      have hstart : (i + 1) * b + 0 = i * b + npos + (b - npos) := by omega
      have hsum : len = b - npos + (len - (b - npos)) := by omega
      rw [Nat.sub_zero] at hgo
      rw [hstart] at hrest
      rw [dif_pos hlt, hnextsize, hgo]
      refine ⟨_, rfl, ?_⟩
      rw [hsum]
      apply Iovec.Tiles.cons { node := i, offset := npos, iov_len := b - npos }
      . show 0 < b - npos
        omega
      . show npos + (b - npos) ≤ b
        omega
      . exact hrest
termination_by chain.length - i

def getReadBuffers (ba : ByteArray) (iov : Iovec) (len : Nat) : Except Fault (List Iovec × Nat) :=
  let len := if len > ba.getReadSize then ba.getReadSize else len
  if len = 0 then
    .ok ([], 0)
  else
    let npos := ba.m_position % ba.m_baseSize
    match ba.m_current with
    | none => .error .nullNode
    | some i =>
      match ba.m_root[i]? with
      | none => .error .nullNode
      | some cur =>
        match go ba.m_root iov i len npos (cur.size - npos) with
        | .error e => .error e
        | .ok iov => .ok ([iov], len)
where
  go (chain : List Node) (iov : Iovec) (i len npos ncap : Nat) : Except Fault Iovec :=
    if len = 0 then
      .ok iov
    else if ncap ≥ len then
      .ok { node := i, offset := npos, iov_len := len }
    else
      if h : i + 1 < chain.length then
        let iov := { node := i, offset := npos, iov_len := iov.iov_len + ncap }
        go chain iov (i + 1) (len - ncap) 0 chain[i + 1].size
      else
        .error .nullNode
  termination_by chain.length - i

-- the overload with a position, whose loop is the one of `getWriteBuffers`
def getReadBuffersAt (ba : ByteArray) (len position : Nat) : Except Fault (List Iovec × Nat) :=
  if position > ba.m_size then
    .error .outOfRange
  else
    let len := if len > ba.getReadSize then ba.getReadSize else len
    if len = 0 then
      .ok ([], 0)
    else
      let npos := position % ba.m_baseSize
      match seek ba.m_root (some 0) (position / ba.m_baseSize) with
      | .error e => .error e
      | .ok cur =>
        match ba.m_current.bind (ba.m_root[·]?), cur with
        | none, _ => .error .nullNode
        | some _, none => .error .nullNode
        | some current, some i =>
          match getWriteBuffers.go ba.m_root i len npos (current.size - npos) with
          | .error e => .error e
          | .ok iovs => .ok (iovs, len)
where
  seek (chain : List Node) (cur : Option Nat) : Nat → Except Fault (Option Nat)
    | 0 => .ok cur
    | count + 1 =>
      match cur with
      | none => .error .nullNode
      | some i => seek chain (next chain i) count

theorem getReadBuffersAt.seek_eq_ok {chain : List Node} {i count : Nat}
    (h : i + count < chain.length) : seek chain (some i) count = .ok (some (i + count)) := by
  induction count generalizing i with
  | zero => rfl
  | succ count ih =>
    have hsum : i + 1 + count = i + (count + 1) := by omega
    unfold seek next
    dsimp only
    rw [if_pos (by omega), ih (by omega), hsum]

theorem getReadBuffers.go_len_le {chain : List Node} {iov iov' : Iovec} {i len npos ncap : Nat}
    (hlen : 0 < len) (h : go chain iov i len npos ncap = .ok iov') : iov'.iov_len ≤ len := by
  unfold go at h
  rw [if_neg (by omega)] at h
  split at h
  . injection h with h
    subst h
    exact Nat.le_refl len
  . split at h
    . have := go_len_le (by omega) h
      omega
    . cases h
termination_by chain.length - i

theorem if_gt_eq_min (a b : Nat) : (if a > b then b else a) = min a b := by
  split <;> omega

section ReadBuffers

variable {ba : ByteArray}

theorem getReadBuffersAt_eq_ok (hwf : WF ba) {len position : Nat} (hpos : position ≤ ba.m_size)
    (hcap : position + min len ba.getReadSize ≤ ba.m_capacity)
    : ∃ iovs, ba.getReadBuffersAt len position = .ok (iovs, min len ba.getReadSize)
        ∧ Iovec.Tiles ba.m_baseSize iovs position (min len ba.getReadSize) := by
  have hcapeq := hwf.capacity_eq
  unfold getReadBuffersAt
  rw [if_neg (by omega), if_gt_eq_min]
  dsimp only
  by_cases hzero : min len ba.getReadSize = 0
  . rw [if_pos hzero, hzero]
    exact ⟨_, rfl, .nil position⟩
  . have hread : ba.getReadSize = ba.m_size - ba.m_position := rfl
    have hsle := hwf.size_le
    obtain ⟨j, _, hcurrent, hcur, hcursize, -, -⟩ := hwf.current_some (by omega)
    have hnpos := Nat.mod_lt position hwf.base_pos
    have hi : position / ba.m_baseSize < ba.m_root.length := by
      rw [Nat.div_lt_iff_lt_mul hwf.base_pos]
      omega
    have hsplit : position / ba.m_baseSize * ba.m_baseSize + position % ba.m_baseSize = position :=
      Nat.div_add_mod' position ba.m_baseSize
    obtain ⟨iovs, hgo, htiles⟩ :=
      getWriteBuffers.go_tiles hwf.uniform (position / ba.m_baseSize) (min len ba.getReadSize)
        (position % ba.m_baseSize) hnpos (by omega)
    rw [if_neg hzero, getReadBuffersAt.seek_eq_ok (by omega), Nat.zero_add]
    dsimp only
    rw [hcurrent, Option.bind_some, hcur]
    dsimp only
    rw [hcursize, hgo]
    rw [hsplit] at htiles
    exact ⟨iovs, rfl, htiles⟩

theorem getReadBuffersAt_size {len position size : Nat} {iovs : List Iovec}
    (h : ba.getReadBuffersAt len position = .ok (iovs, size)) : size = min len ba.getReadSize := by
  unfold getReadBuffersAt at h
  rw [if_gt_eq_min] at h
  dsimp only at h
  split at h
  . cases h
  . split at h
    . next hzero =>
      injection h with h
      injection h with _ h
      omega
    . split at h
      . cases h
      . split at h
        . cases h
        . cases h
        . split at h
          . cases h
          . injection h with h
            injection h with _ h
            exact h.symm

/--
`getReadBuffers` with a position throws exactly when the position lies behind the size, and otherwise
describes the bytes from there on.
-/
def ReadBuffersAtDescribe (ba : ByteArray) (len position : Nat) : Prop :=
  if position > ba.m_size then
    ba.getReadBuffersAt len position = .error .outOfRange
  else
    ∃ iovs, ba.getReadBuffersAt len position = .ok (iovs, min len (ba.m_size - position))
      ∧ ba.Describes iovs position (min len (ba.m_size - position))

theorem readBuffersAtDescribe_iff (ba : ByteArray) (hreach : lts.Reachable IsNew ba)
    (len position : Nat)
    : ReadBuffersAtDescribe ba len position
        ↔ position > ba.m_size ∨ position = ba.m_position
            ∨ len ≤ ba.getReadSize ∧ position + len ≤ ba.m_size := by
  have hwf := reachable_wf hreach
  have hple := hwf.position_le
  have hsle := hwf.size_le
  have hread : ba.getReadSize = ba.m_size - ba.m_position := rfl
  unfold ReadBuffersAtDescribe
  split
  . next hgt =>
    constructor
    . intro
      exact .inl hgt
    . intro
      unfold getReadBuffersAt
      rw [if_pos hgt]
  . constructor
    . intro ⟨iovs, hok, _⟩
      have hsize := getReadBuffersAt_size hok
      omega
    . intro hcond
      have hsize : min len (ba.m_size - position) = min len ba.getReadSize := by omega
      obtain ⟨iovs, hok, htiles⟩ :=
        @getReadBuffersAt_eq_ok ba hwf len position (by omega) (by omega)
      rw [hsize]
      refine ⟨iovs, hok, htiles.describes hwf ?_⟩
      omega

theorem readBuffersAtDescribe_at_cursor : ReadBuffersAtDescribe (twoNodes 1) 3 1 :=
  (readBuffersAtDescribe_iff (twoNodes 1) (twoNodes_reachable (by decide)) 3 1).mpr (by decide)

theorem getReadBuffersAt_behind_cursor
    : lts.Reachable IsNew (twoNodes 3)
      ∧ (twoNodes 3).m_size = 4
      ∧ (∀ iovs size, (twoNodes 3).getReadBuffersAt 4 0 = .ok (iovs, size) → size = 1)
      ∧ ¬ ReadBuffersAtDescribe (twoNodes 3) 4 0 := by
  have hreach := @twoNodes_reachable 3 (by decide)
  have hshort : ∀ iovs size, (twoNodes 3).getReadBuffersAt 4 0 = .ok (iovs, size) → size = 1 := by
    intro iovs size hok
    rw [getReadBuffersAt_size hok]
    rfl
  refine ⟨hreach, rfl, hshort, ?_⟩
  intro hdescribe
  unfold ReadBuffersAtDescribe at hdescribe
  rw [if_neg (by decide)] at hdescribe
  obtain ⟨iovs, hok, -⟩ := hdescribe
  exact absurd (hshort _ _ hok) (by decide)

theorem getReadBuffers_of_none {iov : Iovec} {len : Nat} (h : min len ba.getReadSize = 0)
    : ba.getReadBuffers iov len = .ok ([], 0) := by
  unfold getReadBuffers
  rw [if_gt_eq_min]
  dsimp only
  rw [if_pos h]

theorem getReadBuffers_eq_go (hwf : WF ba) (iov : Iovec) {len : Nat}
    (hlen : 0 < min len ba.getReadSize)
    : ∃ i, i * ba.m_baseSize + ba.m_position % ba.m_baseSize = ba.m_position
        ∧ ba.getReadBuffers iov len
          = (getReadBuffers.go ba.m_root iov i (min len ba.getReadSize)
              (ba.m_position % ba.m_baseSize)
              (ba.m_baseSize - ba.m_position % ba.m_baseSize)).map fun iov =>
            ([iov], min len ba.getReadSize) := by
  have hread : ba.getReadSize = ba.m_size - ba.m_position := rfl
  have hsle := hwf.size_le
  obtain ⟨i, hi, hcurrent, hcur, hcursize, hnpos, hsplit⟩ := hwf.current_some (by omega)
  refine ⟨i, hsplit, ?_⟩
  unfold getReadBuffers
  rw [if_gt_eq_min]
  dsimp only
  rw [if_neg (by omega), hcurrent]
  dsimp only
  rw [hcur]
  dsimp only
  rw [hcursize]
  cases getReadBuffers.go ba.m_root iov i (min len ba.getReadSize)
      (ba.m_position % ba.m_baseSize) (ba.m_baseSize - ba.m_position % ba.m_baseSize) with
  | error e => rfl
  | ok iov' => rfl

theorem getReadBuffers_of_one_node (hwf : WF ba) (iov : Iovec) {len : Nat}
    (hlen : 0 < min len ba.getReadSize)
    (hfit : ba.m_position % ba.m_baseSize + min len ba.getReadSize ≤ ba.m_baseSize)
    : ∃ i, i * ba.m_baseSize + ba.m_position % ba.m_baseSize = ba.m_position
        ∧ ba.getReadBuffers iov len
          = .ok ([{
              node := i
              offset := ba.m_position % ba.m_baseSize
              iov_len := min len ba.getReadSize
            }], min len ba.getReadSize) := by
  obtain ⟨i, hsplit, hgo⟩ := getReadBuffers_eq_go hwf iov hlen
  refine ⟨i, hsplit, ?_⟩
  rw [hgo]
  unfold getReadBuffers.go
  rw [if_neg (by omega), if_pos (by omega)]
  rfl

theorem getReadBuffers_eq_ok (hwf : WF ba) (iov : Iovec) {len : Nat}
    (h : min len ba.getReadSize = 0
      ∨ ba.m_position % ba.m_baseSize + min len ba.getReadSize ≤ ba.m_baseSize)
    : ∃ iovs, ba.getReadBuffers iov len = .ok (iovs, min len ba.getReadSize)
        ∧ Iovec.Tiles ba.m_baseSize iovs ba.m_position (min len ba.getReadSize) := by
  by_cases hzero : min len ba.getReadSize = 0
  . rw [getReadBuffers_of_none hzero, hzero]
    exact ⟨_, rfl, .nil _⟩
  . obtain ⟨i, hsplit, hok⟩ := @getReadBuffers_of_one_node ba hwf iov len (by omega) (by omega)
    rw [hok]
    refine ⟨_, rfl, ?_⟩
    have htiles := Iovec.Tiles.cons
      {
        node := i
        offset := ba.m_position % ba.m_baseSize
        iov_len := min len ba.getReadSize
      } [] 0 (by dsimp only; omega) (show _ ≤ ba.m_baseSize by dsimp only; omega) (.nil _)
    dsimp only at htiles
    rw [hsplit] at htiles
    exact htiles

theorem getReadBuffers_short (hwf : WF ba) {iov : Iovec} {iovs : List Iovec} {len size : Nat}
    (hover : ba.m_baseSize < ba.m_position % ba.m_baseSize + min len ba.getReadSize)
    (h : ba.getReadBuffers iov len = .ok (iovs, size))
    : (iovs.flatMap (Iovec.positions ba.m_baseSize)).length < min len ba.getReadSize := by
  have hnpos := Nat.mod_lt ba.m_position hwf.base_pos
  obtain ⟨i, -, heq⟩ := @getReadBuffers_eq_go ba hwf iov len (by omega)
  rw [heq] at h
  obtain ⟨iov', hgo, hiovs⟩ := Except.map_eq_ok h
  unfold getReadBuffers.go at hgo
  rw [if_neg (by omega), if_neg (by omega)] at hgo
  split at hgo
  . have hle := getReadBuffers.go_len_le (by omega) hgo
    injection hiovs with hiovs _
    rw [← hiovs, List.flatMap_singleton]
    unfold Iovec.positions
    rw [List.length_range']
    omega
  . cases hgo

/--
`SocketStream::write` on a connected socket: the bytes it sends, and its result with the cursor moved
behind them. `send` says how many of the bytes in the buffers `sendmsg` takes, or its error.
-/
def socketWrite (ba : ByteArray) (iov : Iovec) (send : List UInt8 → Int) (length : Nat)
    : Except Fault (List UInt8 × Except Fault (Int × ByteArray)) :=
  match ba.getReadBuffers iov length with
  | .error e => .error e
  | .ok (iovs, _) =>
    let bytes := ba.gather iovs
    let rt := send bytes
    let moved := if rt > 0 then ba.setPosition (ba.getPosition + rt.toNat) else .ok ba
    .ok (bytes.take rt.toNat, moved.map fun ba => (rt, ba))

/--
`getReadBuffers` without a position returns how many bytes it describes, they are the next ones, the
overload with the cursor as position describes the same ones, and `SocketStream::write` sends the
first of them.
-/
def ReadBuffersDescribe (ba : ByteArray) (iov : Iovec) (len : Nat) : Prop :=
  ∃ iovs, ba.getReadBuffers iov len = .ok (iovs, min len ba.getReadSize)
    ∧ ba.Describes iovs ba.m_position (min len ba.getReadSize)
    ∧ (∃ iovs', ba.getReadBuffersAt len ba.m_position = .ok (iovs', min len ba.getReadSize)
        ∧ ba.gather iovs' = ba.gather iovs)
    ∧ ∀ send, ∃ sent rest, ba.socketWrite iov send len = .ok (sent, rest)
        ∧ List.IsPrefix sent
            (((flatten ba.m_root).drop ba.m_position).take (min len ba.getReadSize))

theorem readBuffersDescribe_iff (ba : ByteArray) (hreach : lts.Reachable IsNew ba) (iov : Iovec)
    (len : Nat)
    : ReadBuffersDescribe ba iov len
        ↔ min len ba.getReadSize = 0
          ∨ ba.m_position % ba.m_baseSize + min len ba.getReadSize ≤ ba.m_baseSize := by
  have hwf := reachable_wf hreach
  have hple := hwf.position_le
  have hsle := hwf.size_le
  have hread : ba.getReadSize = ba.m_size - ba.m_position := rfl
  constructor
  . intro ⟨iovs, hok, hdescribes, _⟩
    apply Classical.byContradiction
    intro hcond
    have hshort := getReadBuffers_short hwf (by omega) hok
    rw [hdescribes.2, List.length_range'] at hshort
    omega
  . intro hcond
    obtain ⟨iovs, hok, htiles⟩ := getReadBuffers_eq_ok hwf iov hcond
    have hdescribes := htiles.describes hwf (by omega)
    obtain ⟨iovs', hok', htiles'⟩ := @getReadBuffersAt_eq_ok ba hwf len _ hple (by omega)
    have hdescribes' := htiles'.describes hwf (by omega)
    refine ⟨iovs, hok, hdescribes, ⟨iovs', hok', ?_⟩, ?_⟩
    . rw [hdescribes.gather_eq hwf, hdescribes'.gather_eq hwf]
    . intro send
      unfold socketWrite
      rw [hok]
      dsimp only
      rw [hdescribes.gather_eq hwf]
      refine ⟨_, _, rfl, ?_⟩
      apply List.take_prefix

theorem readBuffersDescribe_one_node
    : ReadBuffersDescribe (twoNodes 2) { node := 0, offset := 0, iov_len := 7 } 5 :=
  (readBuffersDescribe_iff (twoNodes 2) (twoNodes_reachable (by decide)) _ 5).mpr (by decide)

theorem getReadBuffers_two_nodes
    : lts.Reachable IsNew (twoNodes 0)
      ∧ (twoNodes 0).getReadBuffers { node := 0, offset := 0, iov_len := 7 } 4
          = .ok ([{ node := 1, offset := 0, iov_len := 2 }], 4)
      ∧ ¬ ReadBuffersDescribe (twoNodes 0) { node := 0, offset := 0, iov_len := 7 } 4 := by
  have hreach := @twoNodes_reachable 0 (by decide)
  have hok : (twoNodes 0).getReadBuffers { node := 0, offset := 0, iov_len := 7 } 4
      = .ok ([{ node := 1, offset := 0, iov_len := 2 }], 4) := by
    simp [getReadBuffers, getReadBuffers.go, getReadSize, twoNodes, nodeOf]
  refine ⟨hreach, hok, ?_⟩
  rintro ⟨iovs, hok', hdescribes, _⟩
  have hshort := getReadBuffers_short (reachable_wf hreach) (by decide) hok'
  rw [hdescribes.2] at hshort
  exact absurd hshort (by decide)

end ReadBuffers

end ByteArray
end CXS
