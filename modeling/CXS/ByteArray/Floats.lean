import CXS.ByteArray.RoundTrip
import CXS.Util.Binary

/-!
This module contains the floating point functions of `code/bytearray.cc`. A `float` and a `double` are
their 32 and 64 bit patterns, so the `memcpy` of the write functions does nothing to them.

The read functions return the integer `v` and not the `value` it was copied to, so the result is `v`
converted to the floating point type: the nearest value, the even one of two.
-/

namespace CXS

-- `return v` where `v` is a `uint32_t` and the function returns a `float`
def floatOfUInt32 (v : UInt32) : UInt32 :=
  UInt32.ofNat (binaryOfNat 24 127 v.toNat)

-- `return v` where `v` is a `uint64_t` and the function returns a `double`
def doubleOfUInt64 (v : UInt64) : UInt64 :=
  UInt64.ofNat (binaryOfNat 53 1023 v.toNat)

namespace ByteStore

variable {σ : Type} (st : ByteStore σ) (order : Endian) (s : σ)

def writeFloat (value : UInt32) : Except ByteArray.Fault σ :=
  st.writeFuint32 order s value

def writeDouble (value : UInt64) : Except ByteArray.Fault σ :=
  st.writeFuint64 order s value

def readFloat : Except ByteArray.Fault (UInt32 × σ) :=
  (st.readFuint32 order s).map fun (v, s) => (floatOfUInt32 v, s)

-- `v` is a `uint64_t` that is read with `readFuint32`
def readDouble : Except ByteArray.Fault (UInt64 × σ) :=
  (st.readFuint32 order s).map fun (v, s) => (doubleOfUInt64 v.toUInt64, s)

inductive Floating where
  | float (bits : UInt32)
  | double (bits : UInt64)
  deriving DecidableEq

def Floating.size : Floating → Nat
  | .float _ => 4
  | .double _ => 8

def writeFloating (s : σ) : Floating → Except ByteArray.Fault σ
  | .float bits => st.writeFloat order s bits
  | .double bits => st.writeDouble order s bits

def readFloating (s : σ) : Floating → Except ByteArray.Fault (Floating × σ)
  | .float _ => (st.readFloat order s).map fun (bits, s) => (.float bits, s)
  | .double _ => (st.readDouble order s).map fun (bits, s) => (.double bits, s)

def writeFloatings (s : σ) (vs : List Floating) : Except ByteArray.Fault σ :=
  writeEach (st.writeFloating order) s vs

end ByteStore

section FixedPoints

theorem binaryOfNat_eq_self_iff {v : Nat} (hlt : v < 2 ^ 32)
    : binaryOfNat 24 127 v = v ↔ v = 0 ∨ v = 1318926965 := by
  constructor
  . intro hfix
    by_cases hv : v = 0
    . exact .inl hv
    . have hge := @binaryOfNat_ge 24 127 v hv
      have hle := @binaryOfNat_le 24 127 v (by decide) hv
      have hlow := Nat.log2_self_le hv
      have hhigh := @Nat.lt_log2_self v
      have he : v.log2 < 32 := (Nat.log2_lt hv).mpr hlt
      have h30 : v.log2 = 30 := by
        apply Classical.byContradiction
        intro hne
        by_cases hsmall : v.log2 < 30
        . have hpow : 2 ^ (v.log2 + 1) ≤ 2 ^ 30 := Nat.pow_le_pow_right (by decide) hsmall
          by_cases hzero : v.log2 = 0
          . rw [hzero] at hhigh
            omega
          . omega
        . have h31 : v.log2 = 31 := by omega
          rw [h31] at hlow
          omega
      unfold binaryOfNat significand roundDiv at hfix
      rw [if_neg hv, h30, if_neg (by decide)] at hfix
      split at hfix
      . omega
      . omega
  . intro hcond
    cases hcond with
    | inl hzero =>
      rw [hzero]
      rfl
    | inr hval =>
      rw [hval]
      decide

theorem floatOfUInt32_eq_self_iff (bits : UInt32)
    : floatOfUInt32 bits = bits ↔ bits = 0 ∨ bits = 1318926965 := by
  have hlt : bits.toNat < 2 ^ 32 := bits.toBitVec.isLt
  have hpattern : binaryOfNat 24 127 bits.toNat < 2 ^ 32 := by
    by_cases hv : bits.toNat = 0
    . rw [hv]
      decide
    . have hle := @binaryOfNat_le 24 127 bits.toNat (by decide) hv
      have he : bits.toNat.log2 < 32 := (Nat.log2_lt hv).mpr hlt
      omega
  have hnat : (floatOfUInt32 bits).toNat = binaryOfNat 24 127 bits.toNat :=
    Nat.mod_eq_of_lt hpattern
  have hzero : (0 : UInt32).toNat = 0 := rfl
  have hval : (1318926965 : UInt32).toNat = 1318926965 := rfl
  rw [← UInt32.toNat_inj, ← UInt32.toNat_inj, ← UInt32.toNat_inj, hnat, hzero, hval]
  exact binaryOfNat_eq_self_iff hlt

end FixedPoints

namespace FlatStream

open ByteStore (Floating)

variable (order : Endian)

/--
Each value in turn is read with the pattern it was written with, and the read consumes as many bytes
as the type has.
-/
def EachReadsBack : List Floating → FlatStream → Prop
  | [], _ => True
  | v :: vs, s =>
    ∃ consumed s', store.readFloating order s v = .ok (v, s')
      ∧ s.bytes = consumed ++ s'.bytes ∧ consumed.length = v.size
      ∧ EachReadsBack vs s'

def FloatingsReadBack (vs : List Floating) : Prop :=
  ∀ e, ∃ out,
    Appends (fun s => store.writeFloatings order s vs) e out
      ∧
    ∀ rest, EachReadsBack order vs ⟨e, out ++ rest⟩

def IsFixedFloat (v : Floating) : Prop :=
  v = .float 0 ∨ v = .float 1318926965

section Floatings

variable {order} {vs : List Floating}

theorem readsBack_float (order : Endian) (bits : UInt32)
    : ReadsBack (fun s => store.writeFloat order s bits) (fun s => store.readFloat order s)
        (floatOfUInt32 bits) :=
  ((readsBack_F order (n := 4) bits.toBitVec).map UInt32.ofBitVec).map floatOfUInt32

theorem writeFloating_appends (order e : Endian) (v : Floating)
    : ∃ out, Appends (fun s => store.writeFloating order s v) e out := by
  cases v with
  | float bits =>
    obtain ⟨out, hput, -⟩ := readsBack_float order bits e
    exact ⟨out, hput⟩
  | double bits =>
    obtain ⟨out, hput, -⟩ := readsBack_F order (n := 8) bits.toBitVec e
    exact ⟨out, hput⟩

theorem readFuint32_consumes {s s' : FlatStream} {bits : UInt32}
    (h : store.readFuint32 order s = .ok (bits, s')) : s.bytes.length = s'.bytes.length + 4 := by
  unfold ByteStore.readFuint32 ByteStore.readF at h
  obtain ⟨⟨v, s₁⟩, h, heq₁⟩ := Except.map_eq_ok h
  obtain ⟨⟨bytes, s₂⟩, h, heq₂⟩ := Except.map_eq_ok h
  have hread : s.read 4 = .ok (bytes, s₂) := h
  unfold read at hread
  split at hread
  . cases hread
  . next hlen =>
    injection hread with hread
    injection hread with _ hs
    injection heq₁ with _ heq₁
    injection heq₂ with _ heq₂
    rw [← heq₁, ← heq₂, ← hs]
    dsimp only
    rw [List.length_drop]
    omega

theorem not_floatingsReadBack_double {bits : UInt64}
    : ¬ FloatingsReadBack order (.double bits :: vs) := by
  intro h
  obtain ⟨out, -, hget⟩ := h .little
  obtain ⟨consumed, s', hread, hbytes, hlen, -⟩ := hget []
  obtain ⟨⟨w, s₁⟩, hread, heq₁⟩ := Except.map_eq_ok hread
  obtain ⟨⟨v, s₂⟩, hread, heq₂⟩ := Except.map_eq_ok hread
  have hconsumed := readFuint32_consumes hread
  injection heq₁ with _ heq₁
  injection heq₂ with _ heq₂
  rw [heq₂, heq₁] at hconsumed
  have hsize : (Floating.double bits).size = 8 := rfl
  rw [hbytes, List.length_append, hlen, hsize] at hconsumed
  omega

theorem readFloating_float (order : Endian) (bits : UInt32) (vs : List Floating) (e : Endian)
    : ∃ out₁ out₂, out₁.length = 4
        ∧ Appends (fun s => store.writeFloatings order s vs) e out₂
        ∧ Appends (fun s => store.writeFloatings order s (.float bits :: vs)) e (out₁ ++ out₂)
        ∧ ∀ rest, store.readFloating order ⟨e, out₁ ++ rest⟩ (.float bits)
          = .ok (.float (floatOfUInt32 bits), ⟨e, rest⟩) := by
  obtain ⟨out₁, hput₁, hget₁⟩ := readsBack_float order bits e
  obtain ⟨out₂, hput₂⟩ := writeEach_appends (writeFloating_appends order e) vs
  have hput : Appends (fun s => store.writeFloating order s (.float bits)) e out₁ := hput₁
  refine ⟨out₁, out₂, ?_, hput₂, writeEach_cons hput hput₂, ?_⟩
  . have hread := hget₁ []
    obtain ⟨⟨v, s⟩, hread, heq⟩ := Except.map_eq_ok hread
    have hconsumed := readFuint32_consumes hread
    injection heq with _ hs
    rw [hs, List.append_nil] at hconsumed
    exact hconsumed
  . intro rest
    have hread := hget₁ rest
    unfold ByteStore.readFloating
    dsimp only at *
    rw [hread]
    rfl

theorem eachReadsBack_of_float {bits : UInt32} (h : FloatingsReadBack order (.float bits :: vs))
    (e : Endian)
    : ∃ out, Appends (fun s => store.writeFloatings order s vs) e out
        ∧ ∀ rest, floatOfUInt32 bits = bits ∧ EachReadsBack order vs ⟨e, out ++ rest⟩ := by
  obtain ⟨out₁, out₂, -, hput₂, hput, hget₁⟩ := readFloating_float order bits vs e
  obtain ⟨out, hwrite, hget⟩ := h e
  have hout : out = out₁ ++ out₂ := hwrite.unique hput
  refine ⟨out₂, hput₂, ?_⟩
  intro rest
  obtain ⟨consumed, s', hread, -, -, hrest⟩ := hget rest
  rw [hout, List.append_assoc, hget₁] at hread
  injection hread with hread
  injection hread with hbits hs
  injection hbits with hbits
  rw [← hs] at hrest
  exact ⟨hbits, hrest⟩

theorem floatingsReadBack_float_iff {bits : UInt32}
    : FloatingsReadBack order (.float bits :: vs)
        ↔ floatOfUInt32 bits = bits ∧ FloatingsReadBack order vs := by
  constructor
  . intro h
    constructor
    . obtain ⟨out, -, hread⟩ := eachReadsBack_of_float h .little
      exact (hread []).1
    . intro e
      obtain ⟨out, hput, hread⟩ := eachReadsBack_of_float h e
      exact ⟨out, hput, fun rest => (hread rest).2⟩
  . intro ⟨hfixed, h⟩ e
    obtain ⟨out₁, out₂, hlen, hput₂, hput, hget₁⟩ := readFloating_float order bits vs e
    obtain ⟨out, hwrite, hget⟩ := h e
    have hout : out = out₂ := hwrite.unique hput₂
    subst hout
    refine ⟨out₁ ++ out, hput, ?_⟩
    intro rest
    have hread := hget₁ (out ++ rest)
    rw [hfixed] at hread
    rw [List.append_assoc]
    exact ⟨out₁, _, hread, rfl, hlen, hget rest⟩

end Floatings

theorem floatingsReadBack_iff (vs : List Floating)
    : FloatingsReadBack order vs ↔ ∀ v ∈ vs, IsFixedFloat v := by
  induction vs with
  | nil =>
    constructor
    . intro _ v hv
      cases hv
    . intro _ e
      exact ⟨[], writeEach_nil, fun rest => trivial⟩
  | cons v vs ih =>
    rw [List.forall_mem_cons, ← ih]
    unfold IsFixedFloat
    cases v with
    | float bits =>
      rw [floatingsReadBack_float_iff, floatOfUInt32_eq_self_iff]
      simp only [Floating.float.injEq]
    | double bits =>
      constructor
      . intro h
        exact absurd h not_floatingsReadBack_double
      . intro ⟨hfixed, _⟩
        cases hfixed with
        | inl h => cases h
        | inr h => cases h

theorem floatingsReadBack_one
    : floatOfUInt32 0x3f800000 = 0x4e7e0000 ∧ ¬ FloatingsReadBack .little [.float 0x3f800000]
      ∧ ¬ FloatingsReadBack .little [.double 0] := by
  have hone : floatOfUInt32 0x3f800000 = 0x4e7e0000 := by decide
  refine ⟨hone, ?_, not_floatingsReadBack_double⟩
  intro h
  have hfixed := (floatingsReadBack_float_iff.mp h).1
  rw [hone] at hfixed
  exact absurd hfixed (by decide)

end FlatStream

end CXS
