import Mathlib.Algebra.Group.Int.Defs
import CXS.ByteArray.RoundTrip

namespace CXS

def EncodeZigzag64 (v : Int64) : UInt32 :=
  if v < 0 then
    ((-v).toUInt64 * 2 - 1).toUInt32
  else
    (v * 2).toUInt64.toUInt32

def DecodeZigzag64 (v : UInt64) : Int64 :=
  ((v >>> 1) ^^^ (-(v &&& 1))).toInt64

namespace ByteStore

variable {σ : Type} (st : ByteStore σ) (order : Endian) (s : σ)

def writeint64 (value : Int64) : Except ByteArray.Fault σ :=
  st.writeuint64 s (EncodeZigzag64 value).toUInt64

def readint64 : Except ByteArray.Fault (Int64 × σ) :=
  (st.readuint64 order s).map fun (v, s) => (DecodeZigzag64 v, s)

end ByteStore

theorem Int64_neg_iff (v : Int64) : v < 0 ↔ 2 ^ 63 ≤ v.toBitVec.toNat := by
  have hlt := v.toBitVec.isLt
  have h0 : (0 : Int64).toInt = 0 := rfl
  have hint : v.toInt = v.toBitVec.toInt := rfl
  rw [Int64.lt_iff_toInt_lt, h0, hint, BitVec.toInt_eq_toNat_cond]
  split <;> omega

def zigzag64 (v : Int64) : Nat :=
  if v < 0 then 2 * (2 ^ 64 - v.toBitVec.toNat) - 1 else 2 * v.toBitVec.toNat

theorem toNat_EncodeZigzag64 (v : Int64) : (EncodeZigzag64 v).toNat = zigzag64 v % 2 ^ 32 := by
  have hlt := v.toBitVec.isLt
  have hsign := Int64_neg_iff v
  unfold EncodeZigzag64 zigzag64
  split
  . next hneg =>
    rw [hsign] at hneg
    have hn : (-v).toUInt64.toNat = (2 ^ 64 - v.toBitVec.toNat) % 2 ^ 64 :=
      BitVec.toNat_neg v.toBitVec
    have h1 : (1 : UInt64).toNat = 1 := rfl
    have h2 : (2 : UInt64).toNat = 2 := rfl
    rw [UInt64.toNat_toUInt32, UInt64.toNat_sub, UInt64.toNat_mul, hn, h1, h2]
    omega
  . next hpos =>
    rw [hsign] at hpos
    have hm : (v * 2).toUInt64.toNat = (v.toBitVec.toNat * 2) % 2 ^ 64 :=
      BitVec.toNat_mul v.toBitVec 2#64
    rw [UInt64.toNat_toUInt32, hm]
    omega

theorem toNat_DecodeZigzag64_even (v : UInt64) (h : v.toNat % 2 = 0)
    : (DecodeZigzag64 v).toBitVec.toNat = v.toNat / 2 :=
  toNat_unzigzag_even (by decide) v.toBitVec h

theorem toNat_DecodeZigzag64_odd (v : UInt64) (h : v.toNat % 2 = 1)
    : (DecodeZigzag64 v).toBitVec.toNat = 2 ^ 64 - 1 - v.toNat / 2 :=
  toNat_unzigzag_odd (by decide) v.toBitVec h

theorem zigzag64_lt_iff (v : Int64)
    : zigzag64 v < 2 ^ 32 ↔ -2 ^ 31 ≤ v.toInt ∧ v.toInt < 2 ^ 31 := by
  have hlt := v.toBitVec.isLt
  have hsign := Int64_neg_iff v
  have hint : v.toInt = v.toBitVec.toInt := rfl
  rw [hint, BitVec.toInt_eq_toNat_cond]
  unfold zigzag64
  split
  . next hneg =>
    rw [hsign] at hneg
    rw [if_neg (by omega)]
    omega
  . next hpos =>
    rw [hsign] at hpos
    rw [if_pos (by omega)]
    omega

theorem DecodeZigzag64_EncodeZigzag64_iff (v : Int64)
    : DecodeZigzag64 (EncodeZigzag64 v).toUInt64 = v ↔ zigzag64 v < 2 ^ 32 := by
  have hlt := v.toBitVec.isLt
  have hsign := Int64_neg_iff v
  have henc := toNat_EncodeZigzag64 v
  have hwide : (EncodeZigzag64 v).toUInt64.toNat = (EncodeZigzag64 v).toNat :=
    UInt32.toNat_toUInt64 _
  rw [← Int64.toBitVec_inj, ← BitVec.toNat_inj]
  by_cases hneg : v < 0
  . have hzigzag : zigzag64 v = 2 * (2 ^ 64 - v.toBitVec.toNat) - 1 := if_pos hneg
    rw [hsign] at hneg
    rw [toNat_DecodeZigzag64_odd _ (by omega)]
    omega
  . have hzigzag : zigzag64 v = 2 * v.toBitVec.toNat := if_neg hneg
    rw [hsign] at hneg
    rw [toNat_DecodeZigzag64_even _ (by omega)]
    omega

theorem zigzag64_DecodeZigzag64 (u : UInt64) : zigzag64 (DecodeZigzag64 u) = u.toNat := by
  have hlt := u.toBitVec.isLt
  have hnat : u.toBitVec.toNat = u.toNat := rfl
  have hsign := Int64_neg_iff (DecodeZigzag64 u)
  by_cases heven : u.toNat % 2 = 0
  . have hdecode := toNat_DecodeZigzag64_even u heven
    unfold zigzag64
    rw [if_neg (by rw [hsign]; omega)]
    omega
  . have hdecode := toNat_DecodeZigzag64_odd u (by omega)
    unfold zigzag64
    rw [if_pos (by rw [hsign]; omega)]
    omega

namespace FlatStream

variable (order : Endian)

theorem readsBack_Encode64 (v : Int64)
    : ReadsBack (fun s => store.writeint64 s v) (fun s => store.readint64 order s)
        (DecodeZigzag64 (EncodeZigzag64 v).toUInt64) :=
  (readsBack_uint64 order (EncodeZigzag64 v).toUInt64).map DecodeZigzag64

theorem ReadsBack.unique {α : Type} {put : FlatStream → Except ByteArray.Fault FlatStream}
    {get : FlatStream → Except ByteArray.Fault (α × FlatStream)} {a b : α}
    (h : ReadsBack put get a) (h' : ReadsBack put get b) : a = b := by
  obtain ⟨out, hput, hget⟩ := h .little
  obtain ⟨out', hput', hget'⟩ := h' .little
  have hout : out = out' := Appends.unique hput hput'
  have heq := hget []
  rw [hout, hget' []] at heq
  injection heq with heq
  injection heq with heq
  exact heq.symm

theorem readsBack_int64_iff (v : Int64)
    : ReadsBack (fun s => store.writeint64 s v) (fun s => store.readint64 order s) v
        ↔ DecodeZigzag64 (EncodeZigzag64 v).toUInt64 = v := by
  have h := readsBack_Encode64 order v
  constructor
  . intro hback
    exact h.unique hback
  . intro hdecode
    rw [hdecode] at h
    exact h

/-- `readint64` takes back what `writeint64` has written, and the unfolding undoes the folding. -/
def Int64RoundTrip (v : Int64) : Prop :=
  ReadsBack (fun s => store.writeint64 s v) (fun s => store.readint64 order s) v
  ∧ DecodeZigzag64 (EncodeZigzag64 v).toUInt64 = v

theorem int64RoundTrip_iff
    : (∀ v : Int64, Int64RoundTrip order v ↔ -2 ^ 31 ≤ v.toInt ∧ v.toInt < 2 ^ 31)
      ∧ ∀ u : UInt64, (∃ v, (EncodeZigzag64 v).toUInt64 = u) ↔ u.toNat < 2 ^ 32 := by
  constructor
  . intro v
    rw [← zigzag64_lt_iff, ← DecodeZigzag64_EncodeZigzag64_iff]
    constructor
    . intro h
      exact h.2
    . intro hdecode
      exact ⟨(readsBack_int64_iff order v).mpr hdecode, hdecode⟩
  . intro u
    constructor
    . intro ⟨v, hv⟩
      rw [← hv, UInt32.toNat_toUInt64]
      exact (EncodeZigzag64 v).toBitVec.isLt
    . intro hu
      refine ⟨DecodeZigzag64 u, ?_⟩
      apply UInt64.toNat_inj.mp
      rw [UInt32.toNat_toUInt64, toNat_EncodeZigzag64, zigzag64_DecodeZigzag64]
      exact Nat.mod_eq_of_lt hu

theorem int64RoundTrip_two_pow_31
    : EncodeZigzag64 2147483648 = 0 ∧ DecodeZigzag64 0 = 0
      ∧ ¬ Int64RoundTrip .little 2147483648
      ∧ ¬ ∀ u : UInt64, ∃ v, (EncodeZigzag64 v).toUInt64 = u := by
  refine ⟨by decide, by decide, ?_, ?_⟩
  . intro h
    exact absurd h.2 (by decide)
  . intro h
    obtain ⟨v, hv⟩ := h 4294967296
    have hlt := (EncodeZigzag64 v).toBitVec.isLt
    have hnat := congrArg UInt64.toNat hv
    rw [UInt32.toNat_toUInt64] at hnat
    have hbig : (4294967296 : UInt64).toNat = 4294967296 := by decide
    have hsame : (EncodeZigzag64 v).toBitVec.toNat = (EncodeZigzag64 v).toNat := rfl
    omega

end FlatStream

end CXS
