import Mathlib.Data.List.Nodup
import CXS.ByteArray.Buffers

namespace CXS
namespace ByteArray

-- what `recvmsg` does with the buffers: it fills one after the other
def scatter (chain : List Node) : List Iovec → List UInt8 → Except Fault (List Node)
  | [], _ => .ok chain
  | iov :: iovs, bytes =>
    match chain[iov.node]? with
    | none => .error .nullNode
    | some cur =>
      match cur.store iov.offset (bytes.take iov.iov_len) with
      | .error e => .error e
      | .ok cur' => scatter (chain.set iov.node cur') iovs (bytes.drop iov.iov_len)

namespace Iovec.Tiles

variable {b position len : Nat} {iovs : List Iovec}

theorem pairwise_disjoint (h : Tiles b iovs position len)
    : iovs.Pairwise fun iov iov' => (iov.positions b).Disjoint (iov'.positions b) := by
  have hnodup : (iovs.flatMap (positions b)).Nodup := by
    rw [h.positions_eq]
    exact List.nodup_range'
  exact (List.nodup_flatMap.mp hnodup).2

theorem scatter_eq_ok {chain : List Node} (h : Tiles b iovs position len) (hu : Uniform b chain)
    (bytes : List UInt8) (hbytes : bytes.length ≤ len)
    (hcap : position + len ≤ chain.length * b)
    : ∃ chain', scatter chain iovs bytes = .ok chain'
        ∧ Uniform b chain' ∧ chain'.length = chain.length
        ∧ flatten chain' = (flatten chain).overwrite position bytes := by
  induction h generalizing chain bytes with
  | nil =>
    have hnil : bytes = [] := List.eq_nil_of_length_eq_zero (by omega)
    rw [hnil, List.overwrite_nil]
    exact ⟨chain, rfl, hu, rfl, rfl⟩
  | cons iov iovs len hpos hfit _ ih =>
    have hi : iov.node < chain.length := by
      apply Nat.lt_of_mul_lt_mul_right (a := b)
      omega
    have hcur := List.getElem?_eq_getElem hi
    have hcursize := hu.size_eq hcur
    have htake : (bytes.take iov.iov_len).length ≤ iov.iov_len := List.length_take_le _ _
    obtain ⟨cur', hstore, hsize', hdata⟩ :=
      chain[iov.node].store_ok iov.offset (bytes.take iov.iov_len) (by omega)
    have hu' : Uniform b (chain.set iov.node cur') := hu.set (by rw [hsize', hcursize])
    obtain ⟨chain', hscatter, hu'', hlen', hflat⟩ :=
      ih hu' (bytes.drop iov.iov_len) (by rw [List.length_drop]; omega)
        (by rw [List.length_set]; omega)
    unfold scatter
    rw [hcur]
    dsimp only
    rw [hstore]
    refine ⟨chain', hscatter, hu'', by rw [hlen', List.length_set], ?_⟩
    rw [hflat, hu.flatten_set hcur (by omega) hdata]
    by_cases hshort : bytes.length ≤ iov.iov_len
    . rw [List.drop_of_length_le hshort, List.overwrite_nil, List.take_of_length_le hshort]
    . have hlen : (bytes.take iov.iov_len).length = iov.iov_len := by
        rw [List.length_take]
        omega
      have hstart : iov.node * b + iov.offset ≤ (flatten chain).length := by
        rw [hu.length_flatten]
        omega
      have happend := @List.overwrite_overwrite _ (flatten chain) (bytes.take iov.iov_len)
        (bytes.drop iov.iov_len) _ hstart
      rw [hlen, List.take_append_drop] at happend
      exact happend

end Iovec.Tiles

section Receive

variable {ba ba' : ByteArray}

theorem getWriteBuffers_spec (hwf : WF ba) {fresh : Nat → Nat → UInt8} {len size : Nat}
    {iovs : List Iovec} (hlen : 0 < len)
    (h : ba.getWriteBuffers fresh len = .ok (ba', iovs, size))
    : size = len ∧ ba' = ba.addCapacity fresh len ∧ len ≤ ba'.getCapacity
        ∧ Iovec.Tiles ba.m_baseSize iovs ba.m_position len := by
  have hwf' := addCapacity_wf fresh len hwf
  have hroom : len ≤ (ba.addCapacity fresh len).getCapacity := by
    apply Classical.byContradiction
    intro hroom
    rw [getWriteBuffers_eq_error hwf fresh len (by omega)] at h
    cases h
  have hbase := addCapacity_baseSize ba fresh len
  have hpos := addCapacity_position ba fresh len
  have hcapdef : (ba.addCapacity fresh len).getCapacity
      = (ba.addCapacity fresh len).m_capacity - (ba.addCapacity fresh len).m_position := rfl
  unfold getWriteBuffers at h
  rw [if_neg (by omega)] at h
  generalize ba.addCapacity fresh len = added at *
  obtain ⟨i, _, hcurrent, hcur, hcursize, hnpos, hsplit⟩ := hwf'.current_some (by omega)
  have hcapeq := hwf'.capacity_eq
  obtain ⟨iovs', hgo, htiles⟩ :=
    getWriteBuffers.go_tiles hwf'.uniform i len (added.m_position % added.m_baseSize) hnpos
      (by omega)
  dsimp only at h
  rw [hcurrent] at h
  dsimp only at h
  rw [hcur] at h
  dsimp only at h
  rw [hcursize, hgo] at h
  injection h with h
  injection h with hba h
  injection h with hiovs hsize
  subst hba hiovs hsize
  rw [hsplit, hbase, hpos] at htiles
  exact ⟨rfl, rfl, hroom, htiles⟩

/-- `len` bytes from the cursor on are handed out and nothing that was there changes. -/
structure HandsOut (ba : ByteArray) (len : Nat) (ba' : ByteArray) (iovs : List Iovec) (size : Nat)
    : Prop where
  size_eq : size = len
  nonempty : ∀ iov ∈ iovs, 0 < iov.iov_len
  disjoint : iovs.Pairwise fun iov iov' =>
    (iov.positions ba.m_baseSize).Disjoint (iov'.positions ba.m_baseSize)
  describes : ba'.Describes iovs ba.m_position len
  position_eq : ba'.m_position = ba.m_position
  members_size_eq : ba'.m_size = ba.m_size
  unchanged : List.IsPrefix (flatten ba.m_root) (flatten ba'.m_root)

/--
Storing `k` bytes through the buffers and moving the cursor behind them has the effect of writing
them.
-/
def Receives (ba ba' : ByteArray) (iovs : List Iovec) (k : Nat) : Prop :=
  ∀ bytes : List UInt8, bytes.length = k →
    ∃ chain, scatter ba'.m_root iovs bytes = .ok chain
      ∧ ∀ received,
          { ba' with m_root := chain }.setPosition (ba.m_position + k) = .ok received →
          ∀ fresh, ∃ written, ba.write fresh bytes k = .ok written
            ∧ received.m_position = written.m_position
            ∧ received.m_size = written.m_size
            ∧ (flatten received.m_root).take received.m_size
                = (flatten written.m_root).take written.m_size

theorem handsOut_of_ok (hwf : WF ba) {fresh : Nat → Nat → UInt8} {len size : Nat}
    {iovs : List Iovec} (hlen : 0 < len)
    (h : ba.getWriteBuffers fresh len = .ok (ba', iovs, size)) : HandsOut ba len ba' iovs size := by
  have hwf' := addCapacity_wf fresh len hwf
  obtain ⟨hsize, rfl, hroom, htiles⟩ := getWriteBuffers_spec hwf hlen h
  obtain ⟨extra, hextra⟩ := addCapacity_flatten ba fresh len
  have hbase := addCapacity_baseSize ba fresh len
  have hpos := addCapacity_position ba fresh len
  unfold getCapacity at hroom
  have hdescribes : (ba.addCapacity fresh len).Describes iovs ba.m_position len := by
    rw [← hbase] at htiles
    apply htiles.describes hwf'
    omega
  exact {
    size_eq := hsize
    nonempty := htiles.len_pos
    disjoint := htiles.pairwise_disjoint
    describes := hdescribes
    position_eq := hpos
    members_size_eq := addCapacity_size ba fresh len
    unchanged := ⟨extra, hextra.symm⟩
  }

theorem take_flatten_overwrite (hwf : WF ba) {chain : List Node} {extra bytes : List UInt8}
    (hchain : flatten chain = (flatten ba.m_root ++ extra).overwrite ba.m_position bytes)
    : (flatten chain).take (max ba.m_size (ba.m_position + bytes.length))
        = ((flatten ba.m_root).overwrite ba.m_position bytes).take
            (max ba.m_size (ba.m_position + bytes.length)) := by
  have hple := hwf.position_le
  have hsle := hwf.size_le
  have hlenflat := hwf.length_flatten
  rw [hchain, List.take_overwrite_append]
  . omega
  . omega

theorem scatter_wf (hwf : WF ba) {fresh : Nat → Nat → UInt8} {len size : Nat} {iovs : List Iovec}
    (hlen : 0 < len) (h : ba.getWriteBuffers fresh len = .ok (ba', iovs, size))
    (bytes : List UInt8) (hbytes : bytes.length ≤ len)
    : ∃ chain extra, scatter ba'.m_root iovs bytes = .ok chain
        ∧ WF { ba' with m_root := chain }
        ∧ flatten chain = (flatten ba.m_root ++ extra).overwrite ba.m_position bytes := by
  have hwf' := addCapacity_wf fresh len hwf
  obtain ⟨-, rfl, hfits, htiles⟩ := getWriteBuffers_spec hwf hlen h
  have hpos := addCapacity_position ba fresh len
  have hcapeq := hwf'.capacity_eq
  obtain ⟨extra, hextra⟩ := addCapacity_flatten ba fresh len
  unfold getCapacity at hfits
  rw [← addCapacity_baseSize ba fresh len] at htiles
  obtain ⟨chain, hscatter, hu, hchainlen, hflat⟩ :=
    htiles.scatter_eq_ok hwf'.uniform bytes hbytes (by omega)
  rw [hextra] at hflat
  refine ⟨chain, extra, hscatter, ?_, hflat⟩
  exact { hwf' with
    uniform := hu
    root_pos := by rw [hchainlen]; exact hwf'.root_pos
    capacity_eq := by rw [hchainlen]; exact hcapeq
    current_eq := by rw [hchainlen]; exact hwf'.current_eq
  }

theorem receives_of_room (hwf : WF ba) {fresh : Nat → Nat → UInt8} {len size k : Nat}
    {iovs : List Iovec} (hlen : 0 < len)
    (h : ba.getWriteBuffers fresh len = .ok (ba', iovs, size)) (hk : 0 < k) (hkl : k ≤ len)
    (hroom : ∀ fresh', k ≤ (ba.addCapacity fresh' k).getCapacity) : Receives ba ba' iovs k := by
  have hsize := (handsOut_of_ok hwf hlen h).members_size_eq
  intro bytes hbytes
  subst hbytes
  obtain ⟨chain, extra, hscatter, hstored, hflat⟩ := scatter_wf hwf hlen h bytes hkl
  refine ⟨chain, hscatter, ?_⟩
  intro received hset fresh'
  have hlt : ba.m_position + bytes.length < ba'.m_capacity := by
    apply Classical.byContradiction
    intro hge
    rw [setPosition_eq_effect] at hset
    by_cases hend : ba.m_position + bytes.length = ba'.m_capacity
    . rw [setPositionEffect_of_eq hstored _ hend] at hset
      cases hset
    . rw [setPositionEffect_of_gt (by dsimp only; omega)] at hset
      cases hset
  rw [setPosition_eq_effect, setPositionEffect_of_lt hstored hlt] at hset
  injection hset with hset
  obtain ⟨extra', hextra'⟩ := addCapacity_flatten ba fresh' bytes.length
  obtain ⟨written, hwrite, -, -, hwflat⟩ :=
    write_eq_ok hwf fresh' bytes bytes.length hk (Nat.le_refl _) (hroom fresh')
  rw [List.take_length, hextra'] at hwflat
  subst hset
  refine ⟨_, hwrite, rfl, ?_, ?_⟩
  . dsimp only
    rw [if_lt_eq_max, hsize]
  . dsimp only
    rw [if_lt_eq_max, hsize]
    rw [take_flatten_overwrite hwf hflat, take_flatten_overwrite hwf hwflat]

theorem not_receives_of_short (hwf : WF ba) {fresh : Nat → Nat → UInt8} {len size k : Nat}
    {iovs : List Iovec} (hlen : 0 < len)
    (h : ba.getWriteBuffers fresh len = .ok (ba', iovs, size)) (hkl : k ≤ len)
    (hshort : (ba.addCapacity fresh k).getCapacity < k) : ¬ Receives ba ba' iovs k := by
  have hpos := (handsOut_of_ok hwf hlen h).position_eq
  have hfits := (getWriteBuffers_spec hwf hlen h).2.2.1
  have hbytes : (List.replicate k (0 : UInt8)).length = k := List.length_replicate
  obtain ⟨chain, extra, hscatter, hstored, -⟩ :=
    scatter_wf hwf hlen h (List.replicate k 0) (by omega)
  have hne : k ≠ len := by
    intro heq
    have hadded := (getWriteBuffers_spec hwf hlen h).2.1
    rw [heq, ← hadded] at hshort
    omega
  have hlt : ba.m_position + k < ba'.m_capacity := by
    unfold getCapacity at hfits
    omega
  intro hreceives
  obtain ⟨chain', hscatter', hagrees⟩ := hreceives (List.replicate k 0) hbytes
  rw [hscatter] at hscatter'
  injection hscatter' with hchain
  subst hchain
  have hset := setPositionEffect_of_lt hstored hlt
  obtain ⟨written, hwrite, -⟩ :=
    hagrees _ (by rw [setPosition_eq_effect, hset]; rfl) fresh
  rw [write_eq_error hwf fresh _ k (by omega) hshort] at hwrite
  cases hwrite

theorem getWriteBuffers_receives_iff (ba : ByteArray) (hreach : lts.Reachable IsNew ba)
    (fresh : Nat → Nat → UInt8) (len : Nat) (hlen : 0 < len) (ba' : ByteArray) (iovs : List Iovec)
    (size : Nat) (h : ba.getWriteBuffers fresh len = .ok (ba', iovs, size))
    : HandsOut ba len ba' iovs size
      ∧ ∀ k, 1 ≤ k → k ≤ len →
          (Receives ba ba' iovs k
            ↔ k ≤ ba.getCapacity ∨ (k - ba.getCapacity) % ba.m_baseSize = 0
              ∨ ba.getCapacity < (k - ba.getCapacity) % ba.m_baseSize) := by
  have hwf := reachable_wf hreach
  refine ⟨handsOut_of_ok hwf hlen h, ?_⟩
  intro k hk hkl
  constructor
  . intro hreceives
    rw [← addCapacity_room_iff hwf fresh k]
    apply Nat.le_of_not_lt
    intro hshort
    exact not_receives_of_short hwf hlen h hkl hshort hreceives
  . intro hcond
    apply receives_of_room hwf hlen h hk hkl
    intro fresh'
    exact (addCapacity_room_iff hwf fresh' k).mpr hcond

theorem getWriteBuffers_four
    : (new 2 fun _ => 9).getWriteBuffers (fun _ _ => 9) 4
        = .ok ((new 2 fun _ => 9).addCapacity (fun _ _ => 9) 4,
            [
              { node := 0, offset := 0, iov_len := 2 },
              { node := 1, offset := 0, iov_len := 2 }
            ], 4) := by
  simp [getWriteBuffers, getWriteBuffers.go, addCapacity, getCapacity, new, Node.new, List.range,
    List.range.loop]

theorem getWriteBuffers_receives_two
    : Receives (new 2 fun _ => 9) ((new 2 fun _ => 9).addCapacity (fun _ _ => 9) 4)
        [
          { node := 0, offset := 0, iov_len := 2 },
          { node := 1, offset := 0, iov_len := 2 }
        ] 2 :=
  ((getWriteBuffers_receives_iff (new 2 fun _ => 9)
    ⟨_, [], ⟨2, fun _ => 9, by decide, rfl⟩, .nil _⟩ (fun _ _ => 9) 4 (by decide) _ _ _
    getWriteBuffers_four).2 2 (by decide) (by decide)).mpr (by decide)

theorem getWriteBuffers_receives_three
    : lts.Reachable IsNew (new 2 fun _ => 9)
      ∧ (new 2 fun _ => 9).getWriteBuffers (fun _ _ => 9) 4
          = .ok ((new 2 fun _ => 9).addCapacity (fun _ _ => 9) 4,
              [
                { node := 0, offset := 0, iov_len := 2 },
                { node := 1, offset := 0, iov_len := 2 }
              ], 4)
      ∧ (new 2 fun _ => 9).write (fun _ _ => 9) [1, 2, 3] 3 = .error .nullNode
      ∧ ¬ Receives (new 2 fun _ => 9) ((new 2 fun _ => 9).addCapacity (fun _ _ => 9) 4)
          [
            { node := 0, offset := 0, iov_len := 2 },
            { node := 1, offset := 0, iov_len := 2 }
          ] 3 := by
  have hwf := wf_new (by decide : 0 < 2) fun _ => 9
  have hshort : ((new 2 fun _ => 9).addCapacity (fun _ _ => 9) 3).getCapacity < 3 := by decide
  refine ⟨?_, getWriteBuffers_four, ?_, ?_⟩
  . exact ⟨_, [], ⟨2, fun _ => 9, by decide, rfl⟩, .nil _⟩
  . apply write_eq_error hwf
    . decide
    . exact hshort
  . exact not_receives_of_short hwf (by decide) getWriteBuffers_four (by decide) hshort

end Receive

end ByteArray
end CXS
