import CXS.ByteArray.Invariant

namespace CXS

structure FlatArray where
  bytes : List UInt8
  cursor : Nat
  size : Nat
  deriving DecidableEq, Repr

namespace FlatArray

/--
What a call does to a flat array that is allocated in pieces of `base_size` bytes. `extra` are the
bytes a call allocates.
-/
inductive Step (base_size : Nat) : FlatArray → ByteArray.Call × ByteArray.Result → FlatArray → Prop
    where
  | write (f : FlatArray) (fresh : Nat → Nat → UInt8) (buf extra : List UInt8)
    (hfit : f.cursor + buf.length ≤ (f.bytes ++ extra).length)
    : Step base_size f (.write fresh buf, .void)
        {
          bytes := (f.bytes ++ extra).overwrite f.cursor buf
          cursor := f.cursor + buf.length
          size := max f.size (f.cursor + buf.length)
        }
  | read (f : FlatArray) (beyond : Nat → Nat → UInt8) (buf : List UInt8)
    (hfit : f.cursor + buf.length ≤ f.size)
    : Step base_size f (.read beyond buf, .bytes ((f.bytes.drop f.cursor).take buf.length))
        { f with cursor := f.cursor + buf.length }
  | setPosition (f : FlatArray) (val : Nat) (hfit : val ≤ f.bytes.length)
    : Step base_size f (.setPosition val, .void) { f with cursor := val, size := max f.size val }
  | clear (f : FlatArray)
    : Step base_size f (.clear, .void)
        { bytes := f.bytes.take base_size, cursor := 0, size := 0 }
  | toString (f : FlatArray) (beyond : Nat → Nat → UInt8)
    : Step base_size f (.toString beyond, .bytes ((f.bytes.take f.size).drop f.cursor)) f
  | getWriteBuffers (f : FlatArray) (fresh : Nat → Nat → UInt8) (len : Nat) (extra : List UInt8)
    (iovs : List ByteArray.Iovec)
    : Step base_size f (.getWriteBuffers fresh len, .buffers iovs len)
        { f with bytes := f.bytes ++ extra }

def lts (base_size : Nat) : LTS FlatArray (ByteArray.Call × ByteArray.Result) where
  step := Step base_size

end FlatArray

namespace ByteArray

def flat (ba : ByteArray) : FlatArray where
  bytes := flatten ba.m_root
  cursor := ba.m_position
  size := ba.m_size

theorem if_lt_eq_max (a b : Nat) : (if a > b then a else b) = max b a := by
  split <;> omega

section Step

variable {ba ba' : ByteArray}

theorem write_refines (hwf : WF ba) {fresh : Nat → Nat → UInt8} {buf : List UInt8}
    (h : ba.write fresh buf buf.length = .ok ba')
    : FlatArray.Step ba.m_baseSize ba.flat (.write fresh buf, .void) ba'.flat
      ∧ WF ba' ∧ ba'.m_baseSize = ba.m_baseSize := by
  obtain ⟨extra, hextra⟩ := addCapacity_flatten ba fresh buf.length
  have hwf' := addCapacity_wf fresh buf.length hwf
  have hlenflat := hwf'.length_flatten
  have hple := hwf'.position_le
  have hsle := hwf'.size_le
  rw [addCapacity_position, addCapacity_size] at hple
  rw [addCapacity_size] at hsle
  by_cases hzero : buf.length = 0
  . have hnil : buf = [] := List.eq_nil_of_length_eq_zero hzero
    subst hnil
    unfold write at h
    rw [if_pos List.length_nil] at h
    injection h with h
    subst h
    have hstep := @FlatArray.Step.write ba.m_baseSize ba.flat fresh [] []
      (by
        have := hwf.length_flatten
        have := hwf.size_le
        have := hwf.position_le
        simp only [flat, List.append_nil, List.length_nil]
        omega)
    have hmax : max ba.m_size ba.m_position = ba.m_size := by omega
    simp only [flat, List.append_nil, List.overwrite_nil, List.length_nil, Nat.add_zero, hmax]
      at hstep
    exact ⟨hstep, hwf, rfl⟩
  . by_cases hcap : buf.length ≤ (ba.addCapacity fresh buf.length).getCapacity
    . obtain ⟨chain', hwrite, hu', hlen', hflat⟩ :=
        write_eq_ok hwf fresh buf buf.length (by omega) (by omega) hcap
      rw [hwrite] at h
      injection h with h
      unfold getCapacity at hcap
      rw [addCapacity_position] at hcap
      rw [List.take_length, hextra] at hflat
      rw [hextra] at hlenflat
      refine ⟨?_, ?_, ?_⟩
      . have hstep := @FlatArray.Step.write ba.m_baseSize ba.flat fresh buf extra
          (by simp only [flat]; omega)
        have hba' : ba'.flat = ⟨flatten chain', ba.m_position + buf.length,
            max ba.m_size (ba.m_position + buf.length)⟩ := by
          rw [← h, ← if_lt_eq_max]
          rfl
        rw [hba', hflat]
        exact hstep
      . have hbase := addCapacity_baseSize ba fresh buf.length
        have hcapeq := hwf'.capacity_eq
        subst h
        constructor
        . dsimp only
          exact hwf'.base_pos
        . dsimp only
          rw [hbase]
          exact hu'
        . dsimp only
          rw [hlen']
          exact hwf'.root_pos
        . dsimp only
          rw [hlen', hcapeq]
        . dsimp only
          split <;> omega
        . dsimp only
          split <;> omega
        . dsimp only
          rw [hbase, hlen']
      . subst h
        exact addCapacity_baseSize ba fresh buf.length
    . rw [write_eq_error hwf fresh buf buf.length (by omega) (by omega)] at h
      cases h

theorem read_eq_ok (hwf : WF ba) (beyond : Nat → Nat → UInt8) (buf : List UInt8)
    (hsize : buf.length ≤ ba.getReadSize) (hpos : ba.m_position < ba.m_capacity)
    : ba.read beyond buf buf.length
        = .ok ({ ba with
            m_current := nodeOf ba.m_baseSize ba.m_root.length (ba.m_position + buf.length)
            m_position := ba.m_position + buf.length
          }, ((flatten ba.m_root).drop ba.m_position).take buf.length) := by
  obtain ⟨i, hi, hcurrent, hcur, hcursize, hnpos, hsplit⟩ := hwf.current_some hpos
  have hsle := hwf.size_le
  have hcapeq := hwf.capacity_eq
  have hlenflat := hwf.length_flatten
  have hcureq := hwf.current_eq
  unfold getReadSize at hsize
  unfold read
  rw [if_neg (by unfold getReadSize; omega)]
  dsimp only
  rw [hcurrent]
  dsimp only
  rw [hcur]
  dsimp only
  rw [hcursize]
  by_cases hzero : buf.length = 0
  . have hnil : buf = [] := List.eq_nil_of_length_eq_zero hzero
    subst hnil
    unfold copyOut
    simp only [List.length_nil, ↓reduceIte, Nat.add_zero, List.take_zero]
    rw [← hcureq, hcurrent]
  . rw [copyOut_eq_ok hwf.uniform beyond buf i buf.length (ba.m_position % ba.m_baseSize) 0
      ba.m_position hi hnpos (by omega) (by omega) (by omega)]
    dsimp only
    rw [hsplit, List.overwrite_zero_of_length_le]
    rw [List.length_take, List.length_drop]
    omega

theorem read_refines (hwf : WF ba) {beyond : Nat → Nat → UInt8} {buf bytes : List UInt8}
    (h : ba.read beyond buf buf.length = .ok (ba', bytes))
    : FlatArray.Step ba.m_baseSize ba.flat (.read beyond buf, .bytes bytes) ba'.flat
      ∧ WF ba' ∧ ba'.m_baseSize = ba.m_baseSize := by
  have hple := hwf.position_le
  have hsle := hwf.size_le
  by_cases hsize : buf.length ≤ ba.getReadSize
  . by_cases hpos : ba.m_position = ba.m_capacity
    . unfold read at h
      rw [if_neg (by omega)] at h
      dsimp only at h
      rw [hwf.current_none hpos] at h
      cases h
    . rw [read_eq_ok hwf beyond buf hsize (by omega)] at h
      unfold getReadSize at hsize
      injection h with h
      injection h with hba hbytes
      subst hba hbytes
      refine ⟨?_, ?_, rfl⟩
      . apply FlatArray.Step.read
        simp only [flat]
        omega
      . constructor
        . exact hwf.base_pos
        . exact hwf.uniform
        . exact hwf.root_pos
        . exact hwf.capacity_eq
        . dsimp only
          omega
        . exact hsle
        . rfl
  . unfold read at h
    rw [if_pos (by omega)] at h
    cases h

theorem setPosition_refines (hwf : WF ba) {val : Nat} (h : ba.setPosition val = .ok ba')
    : FlatArray.Step ba.m_baseSize ba.flat (.setPosition val, .void) ba'.flat
      ∧ WF ba' ∧ ba'.m_baseSize = ba.m_baseSize := by
  have hcapeq := hwf.capacity_eq
  have hsle := hwf.size_le
  unfold setPosition at h
  split at h
  . cases h
  . next hle =>
    by_cases hend : ba.m_capacity ≤ val
    . rw [setPosition.go_eq_error hwf.uniform 0 val (by omega)] at h
      cases h
    . rw [setPosition.go_eq_ok hwf.uniform 0 val (by omega)] at h
      dsimp only at h
      injection h with h
      subst h
      refine ⟨?_, ?_, rfl⟩
      . have hstep := @FlatArray.Step.setPosition ba.m_baseSize ba.flat val
          (by
            have := hwf.length_flatten
            simp only [flat]
            omega)
        unfold flat
        dsimp only
        rw [if_lt_eq_max]
        exact hstep
      . constructor
        . exact hwf.base_pos
        . exact hwf.uniform
        . exact hwf.root_pos
        . exact hcapeq
        . dsimp only
          split <;> omega
        . dsimp only
          split <;> omega
        . dsimp only
          unfold nodeOf
          rw [if_neg (by omega), Nat.zero_add]

theorem clear_refines (hwf : WF ba)
    : FlatArray.Step ba.m_baseSize ba.flat (.clear, .void) ba.clear.flat
      ∧ WF ba.clear ∧ ba.clear.m_baseSize = ba.m_baseSize := by
  have hbase := hwf.base_pos
  have hlen : (ba.m_root.take 1).length = 1 := by
    have := hwf.root_pos
    rw [List.length_take]
    omega
  have hflat : flatten (ba.m_root.take 1) = (flatten ba.m_root).take ba.m_baseSize := by
    have := hwf.uniform.chunked.take_flatten 1
    rw [Nat.one_mul] at this
    unfold flatten
    rw [this, List.map_take]
  refine ⟨?_, ?_, rfl⟩
  . have hstep := @FlatArray.Step.clear ba.m_baseSize ba.flat
    unfold flat clear at *
    dsimp only at *
    rw [hflat]
    exact hstep
  . unfold clear
    constructor
    . exact hbase
    . intro node hnode
      apply hwf.uniform
      apply List.mem_of_mem_take hnode
    . dsimp only
      omega
    . dsimp only
      rw [hlen, Nat.one_mul]
    . exact Nat.le_refl _
    . exact Nat.zero_le _
    . dsimp only
      unfold nodeOf
      rw [hlen, if_neg (by omega), Nat.zero_div]

theorem toString_refines (hwf : WF ba) {beyond : Nat → Nat → UInt8} {bytes : List UInt8}
    (h : ba.toString beyond = .ok bytes)
    : FlatArray.Step ba.m_baseSize ba.flat (.toString beyond, .bytes bytes) ba.flat := by
  have hple := hwf.position_le
  have hsle := hwf.size_le
  have hlenflat := hwf.length_flatten
  have hcapeq := hwf.capacity_eq
  have hbytes : bytes = ((flatten ba.m_root).take ba.m_size).drop ba.m_position := by
    rw [List.drop_take]
    unfold toString at h
    dsimp only at h
    rw [List.length_replicate] at h
    split at h
    . next hempty =>
      injection h with h
      have hnil : List.replicate ba.getReadSize (0 : UInt8) = [] := List.isEmpty_iff.mp hempty
      have hzero : ba.getReadSize = 0 := by
        have := congrArg List.length hnil
        rw [List.length_replicate] at this
        exact this
      unfold getReadSize at hzero
      rw [← h, hnil, hzero]
      rfl
    . next hempty =>
      have hne : ba.getReadSize ≠ 0 := by
        intro hzero
        rw [hzero] at hempty
        exact hempty rfl
      unfold getReadSize at hne
      obtain ⟨i, hi, hcurrent, hcur, hcursize, hnpos, hsplit⟩ := hwf.current_some (by omega)
      unfold readAt at h
      rw [if_neg (by omega)] at h
      dsimp only at h
      rw [hcurrent] at h
      dsimp only at h
      rw [hcur] at h
      dsimp only at h
      rw [hcursize] at h
      unfold getReadSize at h
      rw [copyOut_eq_ok hwf.uniform beyond _ i (ba.m_size - ba.m_position)
        (ba.m_position % ba.m_baseSize) 0 ba.m_position hi hnpos (by omega)
        (by rw [List.length_replicate]; omega) (by omega)] at h
      dsimp only at h
      injection h with h
      rw [← h, hsplit, List.overwrite_zero_of_length_le]
      rw [List.length_replicate, List.length_take, List.length_drop]
      omega
  rw [hbytes]
  exact @FlatArray.Step.toString ba.m_baseSize ba.flat beyond

theorem getWriteBuffers_refines (hwf : WF ba) {fresh : Nat → Nat → UInt8} {len size : Nat}
    {iovs : List Iovec} (h : ba.getWriteBuffers fresh len = .ok (ba', iovs, size))
    : FlatArray.Step ba.m_baseSize ba.flat (.getWriteBuffers fresh len, .buffers iovs size) ba'.flat
      ∧ WF ba' ∧ ba'.m_baseSize = ba.m_baseSize := by
  by_cases hzero : len = 0
  . subst hzero
    unfold getWriteBuffers at h
    rw [if_pos rfl] at h
    injection h with h
    injection h with hba h
    injection h with hiovs hsize
    subst hba hiovs hsize
    have hstep := @FlatArray.Step.getWriteBuffers ba.m_baseSize ba.flat fresh 0 [] []
    rw [List.append_nil] at hstep
    exact ⟨hstep, hwf, rfl⟩
  . by_cases hcap : len ≤ (ba.addCapacity fresh len).getCapacity
    . obtain ⟨iovs', hok⟩ := getWriteBuffers_eq_ok hwf fresh len (by omega) hcap
      obtain ⟨extra, hextra⟩ := addCapacity_flatten ba fresh len
      rw [hok] at h
      injection h with h
      injection h with hba h
      injection h with hiovs hsize
      subst hba hiovs hsize
      refine ⟨?_, addCapacity_wf fresh len hwf, addCapacity_baseSize ba fresh len⟩
      have hstep := @FlatArray.Step.getWriteBuffers ba.m_baseSize ba.flat fresh len
        extra iovs'
      unfold flat
      rw [hextra, addCapacity_position, addCapacity_size]
      exact hstep
    . rw [getWriteBuffers_eq_error hwf fresh len (by omega)] at h
      cases h

end Step

theorem call_refines {ba ba' : ByteArray} (hwf : WF ba) {c : Call} {r : Result}
    (h : ba.call c = .ok (ba', r))
    : FlatArray.Step ba.m_baseSize ba.flat (c, r) ba'.flat
      ∧ WF ba' ∧ ba'.m_baseSize = ba.m_baseSize := by
  cases c with
  | write fresh buf =>
    obtain ⟨x, hx, heq⟩ := Except.map_eq_ok h
    injection heq with hba hr
    subst hba hr
    exact write_refines hwf hx
  | read beyond buf =>
    obtain ⟨⟨x, bytes⟩, hx, heq⟩ := Except.map_eq_ok h
    injection heq with hba hr
    subst hba hr
    exact read_refines hwf hx
  | setPosition val =>
    obtain ⟨x, hx, heq⟩ := Except.map_eq_ok h
    injection heq with hba hr
    subst hba hr
    exact setPosition_refines hwf hx
  | clear =>
    injection h with heq
    injection heq with hba hr
    subst hba hr
    exact clear_refines hwf
  | toString beyond =>
    obtain ⟨bytes, hx, heq⟩ := Except.map_eq_ok h
    injection heq with hba hr
    subst hba hr
    exact ⟨toString_refines hwf hx, hwf, rfl⟩
  | getWriteBuffers fresh len =>
    obtain ⟨⟨x, iovs, size⟩, hx, heq⟩ := Except.map_eq_ok h
    injection heq with hba hr
    subst hba hr
    exact getWriteBuffers_refines hwf hx

theorem run_wf {base_size : Nat} {ba ba' : ByteArray} {trace : List (Call × Result)}
    (hrun : lts.Run ba trace ba') (hwf : WF ba) (hbase : ba.m_baseSize = base_size)
    : WF ba' ∧ ba'.m_baseSize = base_size := by
  apply hrun.invariant (I := fun ba => WF ba ∧ ba.m_baseSize = base_size)
  . intro s l t hs hstep
    obtain ⟨-, hwf', hbase'⟩ := call_refines hs.1 hstep
    exact ⟨hwf', by rw [hbase', hs.2]⟩
  . exact ⟨hwf, hbase⟩

theorem run_refines_flat (base_size : Nat) (hbase : 1 ≤ base_size) (content : Nat → UInt8)
    (trace : List (Call × Result)) (ba : ByteArray)
    (hrun : lts.Run (new base_size content) trace ba)
    : (FlatArray.lts base_size).Run (new base_size content).flat trace ba.flat
      ∧ ba.m_baseSize = base_size
      ∧ ba.m_capacity = ba.m_root.length * ba.m_baseSize
      ∧ ba.m_position ≤ ba.m_size ∧ ba.m_size ≤ ba.m_capacity
      ∧ ba.m_current
          = if ba.m_position = ba.m_capacity then none
            else some (ba.m_position / ba.m_baseSize) := by
  have hnew := wf_new hbase content
  obtain ⟨hwf, hbaseeq⟩ := run_wf hrun hnew rfl
  refine ⟨?_, hbaseeq, hwf.capacity_eq, hwf.position_le, hwf.size_le, ?_⟩
  . have hsim : ∀ (s : ByteArray) (l : Call × Result) (s' : ByteArray) (f : FlatArray),
        (WF s ∧ s.m_baseSize = base_size ∧ s.flat = f) → lts.step s l s'
          → ∃ f', (FlatArray.lts base_size).step f l f'
              ∧ (WF s' ∧ s'.m_baseSize = base_size ∧ s'.flat = f') := by
      intro s l s' f hs hstep
      obtain ⟨hswf, hsbase, rfl⟩ := hs
      obtain ⟨hflat, hwf', hbase'⟩ := call_refines hswf hstep
      rw [hsbase] at hflat hbase'
      exact ⟨s'.flat, hflat, hwf', hbase', rfl⟩
    obtain ⟨f, hf, _, _, rfl⟩ := hrun.simulation hsim ⟨hnew, rfl, rfl⟩
    exact hf
  . rw [hwf.current_eq]
    unfold nodeOf
    rw [hwf.capacity_eq]

theorem run_refines_flat_write_read
    : (FlatArray.lts 2).Run ⟨[9, 9], 0, 0⟩
        [
          (.write (fun _ _ => 9) [1, 2, 3, 4], .void),
          (.setPosition 1, .void),
          (.read (fun _ _ => 7) [0, 0], .bytes [2, 3])
        ]
        ⟨[1, 2, 3, 4], 3, 4⟩ := by
  have hwrite : (new 2 fun _ => 9).call (.write (fun _ _ => 9) [1, 2, 3, 4])
      = .ok (⟨4, 4, 2, 4, .big, [⟨2, [1, 2], rfl⟩, ⟨2, [3, 4], rfl⟩], none⟩, .void) := by
    simp [call, write, write.go, addCapacity, getCapacity, new, Node.new, Node.store, List.overwrite,
      Except.map, List.range, List.range.loop, next]
  have hset : (⟨4, 4, 2, 4, .big, [⟨2, [1, 2], rfl⟩, ⟨2, [3, 4], rfl⟩], none⟩ : ByteArray).call
      (.setPosition 1)
      = .ok (⟨1, 4, 2, 4, .big, [⟨2, [1, 2], rfl⟩, ⟨2, [3, 4], rfl⟩], some 0⟩, .void) := by
    simp [call, setPosition, setPosition.go, Except.map]
  have hread : (⟨1, 4, 2, 4, .big, [⟨2, [1, 2], rfl⟩, ⟨2, [3, 4], rfl⟩], some 0⟩ : ByteArray).call
      (.read (fun _ _ => 7) [0, 0])
      = .ok (⟨3, 4, 2, 4, .big, [⟨2, [1, 2], rfl⟩, ⟨2, [3, 4], rfl⟩], some 1⟩,
          .bytes [2, 3]) := by
    simp [call, read, copyOut, getReadSize, Node.load, List.overwrite, Except.map, List.range,
      List.range.loop]
  have hrun : lts.Run (new 2 fun _ => 9)
      [
        (.write (fun _ _ => 9) [1, 2, 3, 4], .void),
        (.setPosition 1, .void),
        (.read (fun _ _ => 7) [0, 0], .bytes [2, 3])
      ]
      ⟨3, 4, 2, 4, .big, [⟨2, [1, 2], rfl⟩, ⟨2, [3, 4], rfl⟩], some 1⟩ :=
    .cons hwrite (.cons hset (.cons hread (.nil _)))
  exact (run_refines_flat 2 (by decide) (fun _ => 9) _ _ hrun).1

end ByteArray
end CXS
