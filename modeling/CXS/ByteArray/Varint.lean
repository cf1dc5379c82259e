import CXS.ByteArray.RoundTrip
import Mathlib.Tactic.Ring

namespace CXS

def groupSum : List UInt8 → Nat
  | [] => 0
  | b :: bytes => (b &&& 0x7f).toNat + 128 * groupSum bytes

def varintLength (max : Nat) (bytes : List UInt8) : Nat :=
  min (bytes.findIdx (· < 0x80) + 1) max

namespace ByteStore

variable {σ : Type} (st : ByteStore σ) (order : Endian)

-- the loop of `readuint` with the distances that it shifts by, in order
def readuintShifts (w : Nat) (s : σ) : Except ByteArray.Fault (BitVec w × List Nat × σ) :=
  go 0 0#w [] s
where
  go (i : Nat) (result : BitVec w) (shifts : List Nat) (s : σ)
      : Except ByteArray.Fault (BitVec w × List Nat × σ) :=
    if i < w then
      match st.readFuint8 order s with
      | .error e => .error e
      | .ok (b, s) =>
        if b < 0x80 then
          .ok (result ||| b.toBitVec.setWidth w <<< i, shifts ++ [i], s)
        else
          go (i + 7) (result ||| (b &&& 0x7f).toBitVec.setWidth w <<< i) (shifts ++ [i]) s
    else
      .ok (result, shifts, s)
  termination_by w - i

theorem readuint_go_eq (w i : Nat) (result : BitVec w) (shifts : List Nat) (s : σ)
    : readuint.go st order w i result s
        = (readuintShifts.go st order w i result shifts s).map fun r => (r.1, r.2.2) := by
  fun_induction readuintShifts.go with
  | case1 i result shifts s hi e h =>
    unfold readuint.go
    rw [if_pos hi, h]
    rfl
  | case2 i result shifts s hi b s' h hb =>
    unfold readuint.go
    rw [if_pos hi, h]
    dsimp only
    rw [if_pos hb]
    rfl
  | case3 i result shifts s hi b s' h hb ih =>
    unfold readuint.go
    rw [if_pos hi, h]
    dsimp only
    rw [if_neg hb, ih]
  | case4 i result shifts s hi =>
    unfold readuint.go
    rw [if_neg hi]
    rfl

theorem readuint_eq (w : Nat) (s : σ)
    : st.readuint order s w = (st.readuintShifts order w s).map fun r => (r.1, r.2.2) :=
  readuint_go_eq st order w 0 0#w [] s

section Write

variable {w : Nat}

theorem length_varint {space : Nat} {value : BitVec w} {tmp : List UInt8}
    (h : varint space value = .ok tmp) : 1 ≤ tmp.length ∧ tmp.length ≤ space := by
  induction space generalizing value tmp with
  | zero => cases h
  | succ space ih =>
    unfold varint at h
    split at h
    . obtain ⟨tmp', htmp', heq⟩ := Except.map_eq_ok h
      subst heq
      have := ih htmp'
      rw [List.length_cons]
      omega
    . injection h with h
      subst h
      exact ⟨Nat.le_refl 1, Nat.le_add_left 1 space⟩

theorem getLast?_varint (hw : 8 ≤ w) {space : Nat} {value : BitVec w} {tmp : List UInt8}
    (h : varint space value = .ok tmp) (hvalue : value.toNat ≠ 0) : tmp.getLast? ≠ some 0 := by
  induction space generalizing value tmp with
  | zero => cases h
  | succ space ih =>
    unfold varint at h
    split at h
    . next hge =>
      rw [ge_80_iff hw] at hge
      obtain ⟨tmp', htmp', heq⟩ := Except.map_eq_ok h
      subst heq
      have hlength := length_varint htmp'
      have hlast := ih htmp' (by rw [toNat_shiftRight_seven]; omega)
      cases tmp' with
      | nil => simp at hlength
      | cons b bytes =>
        rw [List.getLast?_cons_cons]
        exact hlast
    . next hlt =>
      rw [ge_80_iff hw] at hlt
      injection h with h
      subst h
      intro hzero
      have hbyte := toNat_last value (by omega)
      injection hzero with hzero
      rw [List.getLast_singleton] at hzero
      rw [hzero] at hbyte
      exact hvalue hbyte.symm

end Write

end ByteStore

namespace FlatStream

variable (order : Endian)

section Read

variable {w : Nat}

theorem toNat_or_shiftLeft_mod (result : BitVec w) (b : UInt8) (i : Nat) (hi : i < w)
    (hw : 8 ≤ w) (hresult : result.toNat < 2 ^ i)
    : (result ||| b.toBitVec.setWidth w <<< i).toNat
        = (result.toNat + b.toNat * 2 ^ i) % 2 ^ w := by
  have hpow : 2 ^ 8 ≤ 2 ^ w := Nat.pow_le_pow_right (by decide) hw
  have hset : (b.toBitVec.setWidth w).toNat = b.toNat := by
    rw [BitVec.toNat_setWidth]
    have := b.toBitVec.isLt
    exact Nat.mod_eq_of_lt (by omega)
  have hsplit : 2 ^ w = 2 ^ (w - i) * 2 ^ i := by
    rw [← Nat.pow_add]
    congr 1
    omega
  have hcut : b.toNat * 2 ^ i % 2 ^ w = 2 ^ i * (b.toNat % 2 ^ (w - i)) := by
    rw [hsplit, Nat.mul_mod_mul_right, Nat.mul_comm]
  have hfits : result.toNat + 2 ^ i * (b.toNat % 2 ^ (w - i)) < 2 ^ w := by
    have hmod : b.toNat % 2 ^ (w - i) + 1 ≤ 2 ^ (w - i) := Nat.mod_lt _ (Nat.two_pow_pos _)
    have := Nat.mul_le_mul_left (2 ^ i) hmod
    rw [Nat.mul_comm (2 ^ i) (2 ^ (w - i)), ← hsplit, Nat.mul_add, Nat.mul_one] at this
    omega
  calc (result ||| b.toBitVec.setWidth w <<< i).toNat
    _ = result.toNat + 2 ^ i * (b.toNat % 2 ^ (w - i)) := by
      rw [BitVec.toNat_or, BitVec.toNat_shiftLeft, hset, Nat.shiftLeft_eq, hcut, Nat.or_comm,
        ← Nat.two_pow_add_eq_or_of_lt hresult, Nat.add_comm]
    _ = (result.toNat + 2 ^ i * (b.toNat % 2 ^ (w - i))) % 2 ^ w := (Nat.mod_eq_of_lt hfits).symm
    _ = (result.toNat + b.toNat * 2 ^ i) % 2 ^ w := by
      rw [← hcut, Nat.add_mod_mod]

theorem varintLength_cons_lt {max : Nat} {b : UInt8} (bytes : List UInt8) (hb : b < 0x80)
    : varintLength (max + 1) (b :: bytes) = 1 := by
  unfold varintLength
  rw [List.findIdx_cons, decide_eq_true hb]
  simp

theorem varintLength_cons_ge {max : Nat} {b : UInt8} (bytes : List UInt8) (hb : ¬ b < 0x80)
    : varintLength (max + 1) (b :: bytes) = varintLength max bytes + 1 := by
  unfold varintLength
  rw [List.findIdx_cons, decide_eq_false hb]
  simp only [cond_false]
  omega

theorem toNat_or_group_lt {result : BitVec w} {i : Nat} (b : UInt8) (hi : i < w) (hw : 8 ≤ w)
    (hresult : result.toNat < 2 ^ i)
    : (result ||| (b &&& 0x7f).toBitVec.setWidth w <<< i).toNat < 2 ^ (i + 7) := by
  have hor := toNat_or_shiftLeft_mod result (b &&& 0x7f) i hi hw hresult
  have hlow := toNat_and_7f b
  have hgroup : (b &&& 0x7f).toNat * 2 ^ i ≤ 127 * 2 ^ i := Nat.mul_le_mul_right _ (by omega)
  have hle := Nat.mod_le (result.toNat + (b &&& 0x7f).toNat * 2 ^ i) (2 ^ w)
  have hpow : 2 ^ (i + 7) = 2 ^ i * 128 := Nat.pow_add 2 i 7
  omega

theorem ofNat_or_group {result : BitVec w} {i : Nat} (b : UInt8) (hi : i < w) (hw : 8 ≤ w)
    (hresult : result.toNat < 2 ^ i) (bytes : List UInt8)
    : BitVec.ofNat w ((result ||| (b &&& 0x7f).toBitVec.setWidth w <<< i).toNat
          + groupSum bytes * 2 ^ (i + 7))
        = BitVec.ofNat w (result.toNat + groupSum (b :: bytes) * 2 ^ i) := by
  apply BitVec.eq_of_toNat_eq
  rw [toNat_or_shiftLeft_mod result (b &&& 0x7f) i hi hw hresult, BitVec.toNat_ofNat,
    BitVec.toNat_ofNat, Nat.mod_add_mod, groupSum, Nat.pow_add]
  congr 1
  ring

theorem map_range_succ_shift (i n : Nat)
    : (List.range (n + 1)).map (i + 7 * ·) = i :: (List.range n).map (i + 7 + 7 * ·) := by
  have hstep : (i + 7 + 7 * ·) = (i + 7 * ·) ∘ Nat.succ := by
    funext n
    simp only [Function.comp_apply]
    omega
  rw [List.range_succ_eq_map, List.map_cons, List.map_map, hstep]
  rfl

theorem readuintShifts_go (hw : 8 ≤ w) (e : Endian) (bytes : List UInt8) (max i : Nat)
    (result : BitVec w) (shifts : List Nat) (hresult : result.toNat < 2 ^ i)
    (hmax : w ≤ i + 7 * max) (hmin : i + 7 * max < w + 7)
    (henough : varintLength max bytes ≤ bytes.length)
    : ByteStore.readuintShifts.go store order w i result shifts ⟨e, bytes⟩
        = .ok (BitVec.ofNat w
              (result.toNat + groupSum (bytes.take (varintLength max bytes)) * 2 ^ i),
            shifts ++ (List.range (varintLength max bytes)).map (i + 7 * ·),
            ⟨e, bytes.drop (varintLength max bytes)⟩) := by
  induction bytes generalizing max i result shifts with
  | nil =>
    have hzero : max = 0 := by
      unfold varintLength at henough
      simp only [List.findIdx_nil, List.length_nil] at henough
      omega
    subst hzero
    unfold ByteStore.readuintShifts.go
    rw [if_neg (by omega)]
    simp [varintLength, groupSum]
  | cons b bytes ih =>
    unfold ByteStore.readuintShifts.go
    cases max with
    | zero =>
      rw [if_neg (by omega)]
      simp [varintLength, groupSum]
    | succ max =>
      have hi : i < w := by omega
      rw [if_pos hi, readFuint8_cons]
      dsimp only
      split
      . next hb =>
        have hlow : b.toNat % 128 = b.toNat := by
          rw [UInt8.lt_iff_toNat_lt] at hb
          exact Nat.mod_eq_of_lt hb
        rw [varintLength_cons_lt bytes hb]
        have hvalue : result ||| b.toBitVec.setWidth w <<< i
            = BitVec.ofNat w (result.toNat + groupSum (List.take 1 (b :: bytes)) * 2 ^ i) := by
          apply BitVec.eq_of_toNat_eq
          rw [toNat_or_shiftLeft_mod result b i hi hw hresult, BitVec.toNat_ofNat]
          simp [groupSum, and_7f, hlow]
        rw [hvalue]
        simp
      . next hb =>
        rw [varintLength_cons_ge bytes hb]
        rw [varintLength_cons_ge bytes hb, List.length_cons] at henough
        rw [ih max (i + 7) _ (shifts ++ [i]) (toNat_or_group_lt b hi hw hresult) (by omega)
          (by omega) (by omega)]
        rw [ofNat_or_group b hi hw hresult, List.take_succ_cons, map_range_succ_shift,
          List.append_assoc]
        rfl

theorem readuintShifts_eq (hw : 8 ≤ w) (max : Nat) (hmax : w ≤ 7 * max) (hmin : 7 * max < w + 7)
    (e : Endian) (bytes : List UInt8) (henough : varintLength max bytes ≤ bytes.length)
    : store.readuintShifts order w ⟨e, bytes⟩
        = .ok (BitVec.ofNat w (groupSum (bytes.take (varintLength max bytes))),
            (List.range (varintLength max bytes)).map (7 * ·),
            ⟨e, bytes.drop (varintLength max bytes)⟩) := by
  unfold ByteStore.readuintShifts
  rw [readuintShifts_go order hw e bytes max 0 0#w [] (by simp) (by omega) (by omega) henough]
  simp

theorem readuint_eq_ok (hw : 8 ≤ w) (max : Nat) (hmax : w ≤ 7 * max) (hmin : 7 * max < w + 7)
    (e : Endian) (bytes : List UInt8) (henough : varintLength max bytes ≤ bytes.length)
    : store.readuint order ⟨e, bytes⟩ w
        = .ok (BitVec.ofNat w (groupSum (bytes.take (varintLength max bytes))),
            ⟨e, bytes.drop (varintLength max bytes)⟩) := by
  rw [ByteStore.readuint_eq, readuintShifts_eq order hw max hmax hmin e bytes henough]
  rfl

end Read

/--
Every value is written as 1 up to `max` bytes, the last one of them not zero but for the value 0, and
what one value is written as does not begin with what another one is written as.
-/
structure Canonical {α : Type} [OfNat α 0] (put : FlatStream → α → Except ByteArray.Fault FlatStream)
    (max : Nat) : Prop where
  written : ∀ (value : α) (e : Endian), ∃ tmp, Appends (fun s => put s value) e tmp
    ∧ 1 ≤ tmp.length ∧ tmp.length ≤ max ∧ (value ≠ 0 → tmp.getLast? ≠ some 0)
  prefix_free : ∀ (u v : α) (e : Endian) (tmp rest : List UInt8),
    Appends (fun s => put s u) e tmp → Appends (fun s => put s v) e (tmp ++ rest) → u = v

def ReadsGroups {α : Type} (get : FlatStream → Except ByteArray.Fault (α × FlatStream))
    (ofNat : Nat → α) (max : Nat) : Prop :=
  ∀ (e : Endian) (bytes : List UInt8), varintLength max bytes ≤ bytes.length
    → get ⟨e, bytes⟩ = .ok (ofNat (groupSum (bytes.take (varintLength max bytes))),
        ⟨e, bytes.drop (varintLength max bytes)⟩)

def ShiftsWithin (w max : Nat) : Prop :=
  ∀ (e : Endian) (bytes : List UInt8), varintLength max bytes ≤ bytes.length
    → ∃ result shifts s, store.readuintShifts order w ⟨e, bytes⟩ = .ok (result, shifts, s)
        ∧ store.readuint order ⟨e, bytes⟩ w = .ok (result, s) ∧ ∀ i ∈ shifts, i < w

theorem appends_writeuint {w space : Nat} {value : BitVec w} {tmp : List UInt8} (e : Endian)
    (h : ByteStore.varint space value = .ok tmp)
    : Appends (fun s => store.writeuint s space value) e tmp := by
  intro bytes
  unfold ByteStore.writeuint
  rw [h]
  rfl

theorem varint_of_appends {w space : Nat} {value : BitVec w} {tmp : List UInt8} {e : Endian}
    (h : Appends (fun s => store.writeuint s space value) e tmp)
    : ByteStore.varint space value = .ok tmp := by
  cases hvarint : ByteStore.varint space value with
  | error err =>
    have := h []
    unfold ByteStore.writeuint at this
    rw [hvarint] at this
    cases this
  | ok tmp' => rw [(appends_writeuint e hvarint).unique h]

theorem canonical_writeuint {w : Nat} (hw : 8 ≤ w) (space : Nat) (hspace : w ≤ 7 * (space + 1))
    : Canonical (fun s (value : BitVec w) => store.writeuint s (space + 1) value) (space + 1) where
  written := by
    intro value e
    have hlt : value.toNat < 128 ^ (space + 1) := by
      have h128 : 128 ^ (space + 1) = 2 ^ (7 * (space + 1)) := by rw [Nat.pow_mul]
      rw [h128]
      exact Nat.lt_of_lt_of_le value.isLt (Nat.pow_le_pow_right (by decide) hspace)
    obtain ⟨tmp, htmp⟩ := ByteStore.varint_eq_ok hw space value hlt
    obtain ⟨hpos, hle⟩ := ByteStore.length_varint htmp
    refine ⟨tmp, appends_writeuint e htmp, hpos, hle, ?_⟩
    intro hvalue
    apply ByteStore.getLast?_varint hw htmp
    intro hzero
    apply hvalue
    apply BitVec.eq_of_toNat_eq
    rw [hzero]
    simp
  prefix_free := by
    intro u v e tmp rest hu hv
    have hread (value : BitVec w) (bytes : List UInt8) (rest : List UInt8)
        (h : ByteStore.varint (space + 1) value = .ok bytes)
        : store.readuint .little ⟨e, bytes ++ rest⟩ w = .ok (value, ⟨e, rest⟩) := by
      unfold ByteStore.readuint
      rw [readuint_go_varint hw .little e rest (space + 1) value bytes 0 0#w h (by omega) (by simp)
        (by simpa using value.isLt)]
      simp
    have hreadu := hread u tmp rest (varint_of_appends hu)
    have hreadv := hread v (tmp ++ rest) [] (varint_of_appends hv)
    rw [List.append_nil, hreadu] at hreadv
    injection hreadv with h
    injection h

theorem Canonical.comap {α β : Type} [OfNat α 0] [OfNat β 0]
    {put : FlatStream → β → Except ByteArray.Fault FlatStream} {max : Nat} {f : α → β}
    (h : Canonical put max) (hinj : Function.Injective f) (hzero : f 0 = 0)
    : Canonical (fun s value => put s (f value)) max where
  written := by
    intro value e
    obtain ⟨tmp, happends, hpos, hle, hlast⟩ := h.written (f value) e
    refine ⟨tmp, happends, hpos, hle, ?_⟩
    intro hvalue
    apply hlast
    intro hf
    rw [← hzero] at hf
    exact hvalue (hinj hf)
  prefix_free := by
    intro u v e tmp rest hu hv
    exact hinj (h.prefix_free (f u) (f v) e tmp rest hu hv)

theorem shiftsWithin {w max : Nat} (hw : 8 ≤ w) (hmax : w ≤ 7 * max) (hmin : 7 * max < w + 7)
    : ShiftsWithin order w max := by
  intro e bytes henough
  refine ⟨_, _, _, readuintShifts_eq order hw max hmax hmin e bytes henough,
    readuint_eq_ok order hw max hmax hmin e bytes henough, ?_⟩
  intro i hi
  obtain ⟨n, hn, rfl⟩ := List.mem_map.mp hi
  have hlt := List.mem_range.mp hn
  have hle : varintLength max bytes ≤ max := Nat.min_le_right _ _
  omega

theorem uint_varints
    : Canonical store.writeuint32 5 ∧ Canonical store.writeuint64 10
      ∧ ReadsGroups (fun s => store.readuint32 order s) UInt32.ofNat 5
      ∧ ReadsGroups (fun s => store.readuint64 order s) UInt64.ofNat 10
      ∧ ShiftsWithin order 32 5 ∧ ShiftsWithin order 64 10 := by
  refine ⟨?_, ?_, ?_, ?_, shiftsWithin order (by decide) (by decide) (by decide),
    shiftsWithin order (by decide) (by decide) (by decide)⟩
  . exact (canonical_writeuint (by decide) 4 (by decide)).comap
      (fun u v h => UInt32.toBitVec_inj.mp h) rfl
  . exact (canonical_writeuint (by decide) 9 (by decide)).comap
      (fun u v h => UInt64.toBitVec_inj.mp h) rfl
  . intro e bytes henough
    dsimp only [ByteStore.readuint32]
    rw [readuint_eq_ok (w := 32) order (by decide) 5 (by decide) (by decide) e bytes henough]
    rfl
  . intro e bytes henough
    dsimp only [ByteStore.readuint64]
    rw [readuint_eq_ok (w := 64) order (by decide) 10 (by decide) (by decide) e bytes henough]
    rfl

end FlatStream

end CXS
