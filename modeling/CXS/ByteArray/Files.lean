import Mathlib.Algebra.Group.Nat.Defs
import Mathlib.Algebra.Group.Int.Defs
import CXS.ByteArray.Buffers

/-!
This module contains `writeToFile` and `readFromFile` of `code/bytearray.cc` for files that are opened
and keep what is written to them.

`writeToFile` passes a range of each node to the stream. The offset in the node is an `int`, the
lengths are an `int64_t`, and both can be negative.
-/

namespace CXS
namespace ByteArray

structure FileWrite where
  node : Nat
  diff : Int
  len : Int
  deriving DecidableEq, Repr

def FileWrite.range (w : FileWrite) : Iovec where
  node := w.node
  offset := w.diff.toNat
  iov_len := w.len.toNat

-- the loop over the nodes from the `i`th on
def writeToFile.go (b : Nat) (nodes : List Node) (i : Nat) (read_size pos : Int)
    : Except Fault Unit × List FileWrite :=
  if read_size > 0 then
    match nodes with
    | [] => (.error .nullNode, [])
    | _ :: nodes =>
      let diff := (pos % b).bmod (2 ^ 32)
      let len := (if read_size > b then (b : Int) else read_size) - diff
      let rest := go b nodes (i + 1) (read_size - len) (pos + len)
      (rest.1, { node := i, diff := diff, len := len } :: rest.2)
  else
    (.ok (), [])

def writeToFile (ba : ByteArray) : Except Fault Unit × List FileWrite :=
  match ba.m_current with
  | none => writeToFile.go ba.m_baseSize [] 0 ba.getReadSize ba.m_position
  | some i => writeToFile.go ba.m_baseSize (ba.m_root.drop i) i ba.getReadSize ba.m_position

def readFromFile (ba : ByteArray) (fresh : Nat → Nat → Nat → UInt8) (hbase : 0 < ba.m_baseSize)
    (file : List UInt8) : Except Fault ByteArray :=
  go ba.m_baseSize hbase ba 0 file
where
  go (b : Nat) (hb : 0 < b) (ba : ByteArray) (n : Nat) (file : List UInt8)
      : Except Fault ByteArray :=
    let buff := file.take b
    match ba.write (fresh n) buff buff.length with
    | .error e => .error e
    | .ok ba =>
      -- the stream is at its end once it has fewer bytes than asked for
      if h : (file.take b).length < b then
        .ok ba
      else
        go b hb ba (n + 1) (file.drop b)
  termination_by file.length
  decreasing_by
    rw [List.length_take] at h
    rw [List.length_drop]
    omega

section WriteToFile

theorem diff_of_small {b i r : Nat} (hr : r < b) (hsmall : r < 2 ^ 31)
    : (((i * b + r : Nat) : Int) % (b : Int)).bmod (2 ^ 32) = r := by
  have hmod : (i * b + r) % b = r := by
    rw [Nat.mul_comm, Nat.mul_add_mod, Nat.mod_eq_of_lt hr]
  rw [← Int.natCast_emod, hmod]
  apply Int.bmod_eq_of_le
  . omega
  . omega

/-- From `pos` on the loop passes `r` bytes of the chain to the stream, in pieces that lie in nodes. -/
def WritesOut (b : Nat) (nodes : List Node) (i r pos : Nat) : Prop :=
  ∃ writes, writeToFile.go b nodes i r pos = (.ok (), writes)
    ∧ (∀ w ∈ writes, 0 < w.len ∧ 0 ≤ w.diff)
    ∧ Iovec.Tiles b (writes.map FileWrite.range) pos r

theorem writesOut_zero (b : Nat) (nodes : List Node) (i pos : Nat) : WritesOut b nodes i 0 pos := by
  unfold WritesOut writeToFile.go
  refine ⟨[], rfl, ?_, .nil _⟩
  intro w hw
  cases hw

theorem writesOut_step {b i r d k : Nat} {chain : List Node} (hi : i < chain.length) (hd : d < b)
    (hsmall : d < 2 ^ 31) (hk : min r b = d + k) (hkpos : 0 < k)
    (hrest : WritesOut b (chain.drop (i + 1)) (i + 1) (r - k) (i * b + d + k))
    : WritesOut b (chain.drop i) i r (i * b + d) := by
  obtain ⟨writes, hgo, hpos, htiles⟩ := hrest
  have hpiece : (if (r : Int) > b then (b : Int) else r) - (d : Nat) = (k : Nat) := by
    split <;> omega
  have hleft : (r : Int) - (k : Nat) = ((r - k : Nat) : Int) := by omega
  have hnext : ((i * b + d : Nat) : Int) + (k : Nat) = ((i * b + d + k : Nat) : Int) := by omega
  have hsum : k + (r - k) = r := by omega
  have hhead := @Iovec.Tiles.cons b { node := i, offset := d, iov_len := k } _ _ hkpos
    (show d + k ≤ b by omega) htiles
  unfold WritesOut
  rw [List.drop_eq_getElem_cons hi]
  unfold writeToFile.go
  rw [if_pos (by omega)]
  dsimp only
  rw [diff_of_small hd hsmall, hpiece, hleft, hnext, hgo]
  refine ⟨_, rfl, ?_, ?_⟩
  . intro w hw
    cases hw with
    | head =>
      dsimp only
      omega
    | tail _ hw => exact hpos w hw
  . rw [hsum] at hhead
    exact hhead

theorem writesOut_of_aligned {b : Nat} {chain : List Node} (hb : 0 < b) (i r : Nat)
    (hcap : i * b + r ≤ chain.length * b) : WritesOut b (chain.drop i) i r (i * b) := by
  by_cases hzero : r = 0
  . subst hzero
    apply writesOut_zero
  . have hsucc : (i + 1) * b = i * b + b := Nat.succ_mul i b
    have hi : i < chain.length := by
      apply Nat.lt_of_mul_lt_mul_right (a := b)
      omega
    apply @writesOut_step b i r 0 (min r b) chain hi hb (by decide) (by omega) (by omega)
    by_cases hle : r ≤ b
    . rw [Nat.min_eq_left hle, Nat.sub_self]
      apply writesOut_zero
    . have hnext : i * b + 0 + b = (i + 1) * b := by omega
      rw [Nat.min_eq_right (by omega), hnext]
      apply writesOut_of_aligned hb
      omega
termination_by r

variable {ba : ByteArray}

theorem writeToFile_of_unread (hwf : WF ba) (hread : 0 < ba.getReadSize)
    : ∃ i, ∃ (_ : i < ba.m_root.length),
        ba.writeToFile
            = writeToFile.go ba.m_baseSize (ba.m_root.drop i) i ba.getReadSize ba.m_position
        ∧ i * ba.m_baseSize + ba.m_position % ba.m_baseSize = ba.m_position := by
  have hsize : ba.getReadSize = ba.m_size - ba.m_position := rfl
  have hsle := hwf.size_le
  obtain ⟨i, hi, hcurrent, -, -, -, hsplit⟩ := hwf.current_some (by omega)
  refine ⟨i, hi, ?_, hsplit⟩
  unfold writeToFile
  rw [hcurrent]

theorem writeToFile_eq_ok (hwf : WF ba)
    (hcond : ba.getReadSize = 0
      ∨ ba.m_position % ba.m_baseSize < 2 ^ 31
        ∧ (ba.m_position % ba.m_baseSize = 0 ∨ ba.m_baseSize ≤ ba.getReadSize))
    : ∃ writes, ba.writeToFile = (.ok (), writes)
        ∧ (∀ w ∈ writes, 0 < w.len ∧ 0 ≤ w.diff)
        ∧ Iovec.Tiles ba.m_baseSize (writes.map FileWrite.range) ba.m_position ba.getReadSize := by
  have hsize : ba.getReadSize = ba.m_size - ba.m_position := rfl
  have hsle := hwf.size_le
  have hcapeq := hwf.capacity_eq
  by_cases hzero : ba.getReadSize = 0
  . rw [hzero]
    unfold writeToFile
    rw [hzero]
    cases ba.m_current with
    | none => exact writesOut_zero ba.m_baseSize [] 0 ba.m_position
    | some i => exact writesOut_zero ba.m_baseSize (ba.m_root.drop i) i ba.m_position
  . obtain ⟨i, hi, hwrite, hsplit⟩ := writeToFile_of_unread hwf (by omega)
    have hd := Nat.mod_lt ba.m_position hwf.base_pos
    have hsucc : (i + 1) * ba.m_baseSize = i * ba.m_baseSize + ba.m_baseSize := Nat.succ_mul i _
    rw [hwrite]
    by_cases haligned : ba.m_position % ba.m_baseSize = 0
    . have hpos : i * ba.m_baseSize = ba.m_position := by omega
      have := @writesOut_of_aligned ba.m_baseSize ba.m_root hwf.base_pos i ba.getReadSize
        (by omega)
      rw [hpos] at this
      exact this
    . -- the first piece ends the node, and the pieces behind it start at the start of a node
      have hstep := @writesOut_step ba.m_baseSize i ba.getReadSize
        (ba.m_position % ba.m_baseSize) (ba.m_baseSize - ba.m_position % ba.m_baseSize) ba.m_root
        hi hd (by omega) (by omega) (by omega)
        (by
          have hnext : i * ba.m_baseSize + ba.m_position % ba.m_baseSize
              + (ba.m_baseSize - ba.m_position % ba.m_baseSize) = (i + 1) * ba.m_baseSize := by
            omega
          rw [hnext]
          apply writesOut_of_aligned hwf.base_pos
          omega)
      rw [hsplit] at hstep
      exact hstep

/--
`writeToFile` passes only non-empty ranges to the stream, and they are the unread bytes, which are
what `toString` returns.
-/
def WritesUnread (ba : ByteArray) (writes : List FileWrite) : Prop :=
  ba.writeToFile = (.ok (), writes)
  ∧ (∀ w ∈ writes, 0 < w.len ∧ 0 ≤ w.diff)
  ∧ ba.Describes (writes.map FileWrite.range) ba.m_position ba.getReadSize
  ∧ ∀ beyond, ba.toString beyond = .ok (ba.gather (writes.map FileWrite.range))

theorem writesUnread_of_cond (hwf : WF ba)
    (hcond : ba.getReadSize = 0
      ∨ ba.m_position % ba.m_baseSize < 2 ^ 31
        ∧ (ba.m_position % ba.m_baseSize = 0 ∨ ba.m_baseSize ≤ ba.getReadSize))
    : ∃ writes, WritesUnread ba writes := by
  have hsize : ba.getReadSize = ba.m_size - ba.m_position := rfl
  have hple := hwf.position_le
  have hsle := hwf.size_le
  obtain ⟨writes, hwrite, hpos, htiles⟩ := writeToFile_eq_ok hwf hcond
  have hdescribes := htiles.describes hwf (by omega)
  refine ⟨writes, hwrite, hpos, hdescribes, ?_⟩
  intro beyond
  rw [toString_eq hwf, hdescribes.gather_eq hwf]

theorem cond_of_writesUnread (hwf : WF ba) {writes : List FileWrite} (h : WritesUnread ba writes)
    : ba.getReadSize = 0
      ∨ ba.m_position % ba.m_baseSize < 2 ^ 31
        ∧ (ba.m_position % ba.m_baseSize = 0 ∨ ba.m_baseSize ≤ ba.getReadSize) := by
  by_cases hzero : ba.getReadSize = 0
  . exact .inl hzero
  . obtain ⟨i, hi, hgo, hsplit⟩ := writeToFile_of_unread hwf (by omega)
    obtain ⟨hwrite, hpos, hdescribes, -⟩ := h
    have hpositions := hdescribes.2
    have hd := Nat.mod_lt ba.m_position hwf.base_pos
    have hsucc : (i + 1) * ba.m_baseSize = i * ba.m_baseSize + ba.m_baseSize := Nat.succ_mul i _
    rw [hgo, List.drop_eq_getElem_cons hi] at hwrite
    unfold writeToFile.go at hwrite
    rw [if_pos (by omega)] at hwrite
    dsimp only at hwrite
    injection hwrite with hok hwrites
    subst hwrites
    -- the first range has to start at the cursor, so the offset has survived the narrowing
    have hfirst := hpos _ List.mem_cons_self
    rw [List.map_cons, List.flatMap_cons] at hpositions
    dsimp only [FileWrite.range, Iovec.positions] at hfirst hpositions
    obtain ⟨hstart, hrest⟩ := List.range'_append_eq (by omega) hpositions
    have hmod : (ba.m_position : Int) % ba.m_baseSize = (ba.m_position % ba.m_baseSize : Nat) :=
      (Int.natCast_emod _ _).symm
    rw [hmod] at hok hpos hfirst hstart hrest
    have hsmall : ba.m_position % ba.m_baseSize < 2 ^ 31 := by
      have := @Int.bmod_lt (ba.m_position % ba.m_baseSize : Nat) (2 ^ 32) (by decide)
      omega
    refine .inr ⟨hsmall, ?_⟩
    apply Classical.byContradiction
    intro hcond
    rw [Int.bmod_eq_of_le (by omega) (by omega), if_neg (by omega)] at hok hpos hrest
    have hnext := fun w hw => hpos w (List.mem_cons_of_mem _ hw)
    -- the second range starts at or behind the start of the next node, and so too late
    unfold writeToFile.go at hok hnext hrest
    rw [if_pos (by omega)] at hok hnext hrest
    cases hnodes : ba.m_root.drop (i + 1) with
    | nil =>
      rw [hnodes] at hok
      cases hok
    | cons node nodes =>
      rw [hnodes] at hnext hrest
      dsimp only at hnext hrest
      have hsecond := hnext _ List.mem_cons_self
      rw [List.map_cons, List.flatMap_cons] at hrest
      dsimp only [FileWrite.range, Iovec.positions] at hsecond hrest
      obtain ⟨hstart', -⟩ := List.range'_append_eq (by omega) hrest
      omega

end WriteToFile

section ReadFromFile

theorem room_of_dvd {ba : ByteArray} (hwf : WF ba) (fresh : Nat → Nat → UInt8) {k : Nat}
    (hk : k ≤ ba.m_baseSize) (hdvd : ba.m_baseSize ∣ ba.m_position)
    : k ≤ (ba.addCapacity fresh k).getCapacity := by
  rw [addCapacity_room_iff hwf fresh k]
  have hdvd' : ba.m_baseSize ∣ ba.getCapacity := by
    unfold getCapacity
    rw [hwf.capacity_eq]
    exact Nat.dvd_sub (Nat.dvd_mul_left _ _) hdvd
  by_cases hfull : ba.getCapacity = 0
  . rw [hfull]
    omega
  . have := Nat.le_of_dvd (by omega) hdvd'
    omega

theorem write_chunk {ba : ByteArray} (hwf : WF ba) (fresh : Nat → Nat → UInt8) (buff : List UInt8)
    (hlen : buff.length ≤ ba.m_baseSize) (hdvd : ba.m_baseSize ∣ ba.m_position)
    (hend : ba.m_position = ba.m_size)
    : ∃ ba', ba.write fresh buff buff.length = .ok ba'
        ∧ WF ba' ∧ ba'.m_baseSize = ba.m_baseSize
        ∧ ba'.m_position = ba.m_position + buff.length ∧ ba'.m_size = ba'.m_position
        ∧ (flatten ba'.m_root).take ba'.m_size = (flatten ba.m_root).take ba.m_size ++ buff := by
  have hroom := room_of_dvd hwf fresh hlen hdvd
  obtain ⟨ba', hwrite⟩ := (suffices_of_room hwf fresh _ hroom).1 buff rfl
  obtain ⟨hstep, hwf', hbase⟩ := write_refines hwf hwrite
  generalize hflat : ba'.flat = f at hstep
  cases hstep with
  | write extra hfit =>
    have hbytes : flatten ba'.m_root = _ := congrArg FlatArray.bytes hflat
    have hcursor : ba'.m_position = _ := congrArg FlatArray.cursor hflat
    have hsize : ba'.m_size = _ := congrArg FlatArray.size hflat
    have hcap := hwf.length_flatten
    have hsle := hwf.size_le
    unfold flat at hbytes hcursor hsize
    dsimp only at hbytes hcursor hsize
    have hsize' : ba'.m_size = ba.m_position + buff.length := by omega
    refine ⟨ba', hwrite, hwf', hbase, hcursor, by omega, ?_⟩
    rw [hsize', hbytes, List.take_overwrite (by rw [List.length_append]; omega)]
    rw [List.take_append_of_le_length (by omega), hend]

theorem readFromFile.go_eq_ok {b : Nat} (hb : 0 < b) (fresh : Nat → Nat → Nat → UInt8)
    {ba : ByteArray} (n : Nat) (file : List UInt8) (hwf : WF ba) (hbase : ba.m_baseSize = b)
    (hdvd : b ∣ ba.m_position) (hend : ba.m_position = ba.m_size)
    : ∃ loaded, go fresh b hb ba n file = .ok loaded ∧ WF loaded
        ∧ loaded.m_size = ba.m_size + file.length
        ∧ (flatten loaded.m_root).take loaded.m_size
            = (flatten ba.m_root).take ba.m_size ++ file := by
  subst hbase
  have hlen : (file.take ba.m_baseSize).length ≤ ba.m_baseSize := List.length_take_le _ _
  obtain ⟨ba', hwrite, hwf', hbase, hpos, hsize, hbytes⟩ :=
    write_chunk hwf (fresh n) (file.take ba.m_baseSize) hlen hdvd hend
  unfold go
  dsimp only
  rw [hwrite]
  dsimp only
  split
  . next hlast =>
    have hall : file.take ba.m_baseSize = file := by
      apply List.take_of_length_le
      rw [List.length_take] at hlast
      omega
    rw [hall] at hpos hbytes
    exact ⟨ba', rfl, hwf', by omega, hbytes⟩
  . next hfull =>
    have hchunk : (file.take ba.m_baseSize).length = ba.m_baseSize := by omega
    have hdvd' : ba.m_baseSize ∣ ba'.m_position := by
      rw [hpos, hchunk]
      exact Nat.dvd_add hdvd (Nat.dvd_refl _)
    rw [List.length_take] at hchunk
    have hshorter : (file.drop ba.m_baseSize).length < file.length := by
      rw [List.length_drop]
      omega
    obtain ⟨loaded, hgo, hloaded, hsize', hbytes'⟩ :=
      go_eq_ok hb fresh (n + 1) (file.drop ba.m_baseSize) hwf' hbase hdvd' (by omega)
    refine ⟨loaded, hgo, hloaded, ?_, ?_⟩
    . rw [List.length_take] at hpos
      rw [hsize', List.length_drop]
      omega
    . rw [hbytes', hbytes, List.append_assoc, List.take_append_drop]
termination_by file.length

theorem readFromFile_toString {base_size : Nat} (hbase : 0 < base_size) (content : Nat → UInt8)
    (fresh : Nat → Nat → Nat → UInt8) (file : List UInt8)
    : ∃ loaded rewound, (new base_size content).readFromFile fresh hbase file = .ok loaded
        ∧ loaded.setPosition 0 = .ok rewound
        ∧ ∀ beyond, rewound.toString beyond = .ok file := by
  have hwf := wf_new hbase content
  obtain ⟨loaded, hgo, hloaded, hsize, hbytes⟩ :=
    readFromFile.go_eq_ok hbase fresh 0 file hwf rfl (Nat.dvd_zero _) rfl
  have hcap : 0 < loaded.m_capacity := by
    rw [hloaded.capacity_eq]
    exact Nat.mul_pos hloaded.root_pos hloaded.base_pos
  have heffect := setPositionEffect_of_lt hloaded hcap
  have hset : loaded.setPosition 0
      = .ok { loaded with
          m_position := 0
          m_size := max loaded.m_size 0
          m_current := some (0 / loaded.m_baseSize)
        } := by
    rw [setPosition_eq_effect, heffect]
    rfl
  have hrewound := (setPosition_refines hloaded hset).2.1
  refine ⟨loaded, _, hgo, hset, ?_⟩
  intro beyond
  rw [toString_eq hrewound]
  unfold getReadSize
  dsimp only
  rw [Nat.max_eq_left (Nat.zero_le _), List.drop_zero, Nat.sub_zero, hbytes]
  rfl

end ReadFromFile

/--
`writeToFile` writes the unread bytes, and reading the file into a new object, of any base size, gives
them back.
-/
def FileRoundTrip (ba : ByteArray) : Prop :=
  ∃ writes, WritesUnread ba writes
    ∧ ∀ (base_size : Nat) (hbase : 0 < base_size) (content : Nat → UInt8)
        (fresh : Nat → Nat → Nat → UInt8),
        ∃ loaded rewound,
          (new base_size content).readFromFile fresh hbase
              (ba.gather (writes.map FileWrite.range)) = .ok loaded
          ∧ loaded.setPosition 0 = .ok rewound
          ∧ ∀ beyond, rewound.toString beyond = ba.toString beyond

theorem fileRoundTrip_iff (ba : ByteArray) (hreach : lts.Reachable IsNew ba)
    : FileRoundTrip ba
        ↔ ba.getReadSize = 0
          ∨ ba.m_position % ba.m_baseSize < 2 ^ 31
            ∧ (ba.m_position % ba.m_baseSize = 0 ∨ ba.m_baseSize ≤ ba.getReadSize) := by
  have hwf := reachable_wf hreach
  constructor
  . intro ⟨writes, hwrites, _⟩
    exact cond_of_writesUnread hwf hwrites
  . intro hcond
    obtain ⟨writes, hwrites⟩ := writesUnread_of_cond hwf hcond
    refine ⟨writes, hwrites, ?_⟩
    intro base_size hbase content fresh
    obtain ⟨loaded, rewound, hread, hset, hstring⟩ :=
      readFromFile_toString hbase content fresh (ba.gather (writes.map FileWrite.range))
    refine ⟨loaded, rewound, hread, hset, ?_⟩
    intro beyond
    rw [hstring, hwrites.2.2.2]

theorem fileRoundTrip_two_nodes : FileRoundTrip (twoNodes 1) :=
  (fileRoundTrip_iff (twoNodes 1) (twoNodes_reachable (by decide))).mpr (by decide)

theorem writeToFile_unaligned
    : lts.Reachable IsNew (twoNodes 3)
      ∧ (twoNodes 3).getReadSize = 1
      ∧ (twoNodes 3).writeToFile = (.error .nullNode, [{ node := 1, diff := 1, len := 0 }])
      ∧ ¬ FileRoundTrip (twoNodes 3) := by
  refine ⟨twoNodes_reachable (by decide), rfl, by decide, ?_⟩
  intro ⟨writes, ⟨hwrite, _⟩, _⟩
  have hnull : (twoNodes 3).writeToFile = (.error .nullNode, [{ node := 1, diff := 1, len := 0 }]) :=
    by decide
  rw [hnull] at hwrite
  injection hwrite with hresult
  cases hresult

end ByteArray
end CXS
