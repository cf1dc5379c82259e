import CXS.ByteArray.Codec
import CXS.Util.LTS

namespace CXS

theorem two_pow_eight_mul (n : Nat) : 2 ^ (8 * n) = 256 ^ n := by
  rw [Nat.pow_mul]

section Fixed

variable {n : Nat}

theorem bytesOf_byteswap (value : BitVec (8 * n))
    : bytesOf n (byteswap value).toNat = (bytesOf n value.toNat).reverse := by
  have hlen : (bytesOf n value.toNat).reverse.length = n := by simp
  have hlt := ofBytes_lt (bytesOf n value.toNat).reverse
  rw [hlen] at hlt
  unfold byteswap
  rw [BitVec.toNat_ofNat, two_pow_eight_mul, Nat.mod_eq_of_lt hlt]
  have h := bytesOf_ofBytes (bytesOf n value.toNat).reverse
  rw [hlen] at h
  exact h

theorem ofNat_ofBytes_bytesOf (value : BitVec (8 * n))
    : BitVec.ofNat (8 * n) (ofBytes (bytesOf n value.toNat)) = value := by
  have hlt := value.isLt
  rw [two_pow_eight_mul] at hlt
  rw [ofBytes_bytesOf n value.toNat hlt]
  apply BitVec.eq_of_toNat_eq
  rw [BitVec.toNat_ofNat, Nat.mod_eq_of_lt value.isLt]

theorem byteswap_byteswap (value : BitVec (8 * n)) : byteswap (byteswap value) = value := by
  have h : byteswap (byteswap value)
      = BitVec.ofNat (8 * n) (ofBytes (bytesOf n (byteswap value).toNat).reverse) := rfl
  rw [h, bytesOf_byteswap, List.reverse_reverse]
  exact ofNat_ofBytes_bytesOf value

@[simp]
theorem Endian.length_load (order : Endian) (value : BitVec (8 * n))
    : (order.load value).length = n := by
  cases order <;> simp [Endian.load]

@[simp]
theorem Endian.store_load (order : Endian) (value : BitVec (8 * n))
    : order.store (order.load value) = value := by
  cases order with
  | little => exact ofNat_ofBytes_bytesOf value
  | big =>
    unfold Endian.load Endian.store
    rw [List.reverse_reverse]
    exact ofNat_ofBytes_bytesOf value

end Fixed

section Varint

variable {w : Nat}

theorem and_7f (n : Nat) : n &&& 127 = n % 128 :=
  Nat.and_two_pow_sub_one_eq_mod n 7

theorem or_80 (n : Nat) (h : n < 128) : n ||| 128 = n + 128 := by
  have hor : 128 + n = 128 ||| n := Nat.two_pow_add_eq_or_of_lt (i := 7) h 1
  rw [Nat.or_comm]
  omega

theorem toNat_payload (hw : 8 ≤ w) (value : BitVec w)
    : (UInt8.ofBitVec ((value &&& 0x7f#w ||| 0x80#w).setWidth 8)).toNat
        = value.toNat % 128 + 128 := by
  have hpow : 2 ^ 8 ≤ 2 ^ w := Nat.pow_le_pow_right (by decide) hw
  have h7f : (0x7f#w).toNat = 127 := by
    rw [BitVec.toNat_ofNat, Nat.mod_eq_of_lt (by omega)]
  have h80 : (0x80#w).toNat = 128 := by
    rw [BitVec.toNat_ofNat, Nat.mod_eq_of_lt (by omega)]
  rw [UInt8.toNat_ofBitVec, BitVec.toNat_setWidth, BitVec.toNat_or, BitVec.toNat_and, h7f, h80,
    and_7f, or_80 _ (Nat.mod_lt _ (by decide))]
  omega

theorem toNat_last (value : BitVec w) (h : value.toNat < 128)
    : (UInt8.ofBitVec (value.setWidth 8)).toNat = value.toNat := by
  rw [UInt8.toNat_ofBitVec, BitVec.toNat_setWidth]
  omega

theorem toNat_and_7f (b : UInt8) : (b &&& 0x7f).toNat = b.toNat % 128 := by
  rw [UInt8.toNat_and]
  exact and_7f b.toNat

theorem ge_80_iff (hw : 8 ≤ w) (value : BitVec w) : value ≥ 0x80#w ↔ 128 ≤ value.toNat := by
  have hpow : 2 ^ 8 ≤ 2 ^ w := Nat.pow_le_pow_right (by decide) hw
  have h80 : (0x80#w).toNat = 128 := by
    rw [BitVec.toNat_ofNat, Nat.mod_eq_of_lt (by omega)]
  rw [ge_iff_le, BitVec.le_def, h80]

theorem toNat_shiftRight_seven (value : BitVec w) : (value >>> 7).toNat = value.toNat / 128 := by
  rw [BitVec.toNat_ushiftRight, Nat.shiftRight_eq_div_pow]

theorem toNat_or_shiftLeft (result : BitVec w) (b : UInt8) (i : Nat) (hresult : result.toNat < 2 ^ i)
    (hb : b.toNat * 2 ^ i < 2 ^ w)
    : (result ||| b.toBitVec.setWidth w <<< i).toNat = result.toNat + b.toNat * 2 ^ i := by
  have hbw : b.toNat < 2 ^ w := by
    have := Nat.le_mul_of_pos_right b.toNat (Nat.two_pow_pos i)
    omega
  have hset : (b.toBitVec.setWidth w).toNat = b.toNat := by
    rw [BitVec.toNat_setWidth]
    exact Nat.mod_eq_of_lt hbw
  rw [BitVec.toNat_or, BitVec.toNat_shiftLeft, hset, Nat.shiftLeft_eq, Nat.mod_eq_of_lt hb]
  rw [Nat.or_comm, Nat.mul_comm, ← Nat.two_pow_add_eq_or_of_lt hresult]
  omega

theorem ByteStore.varint_eq_ok (hw : 8 ≤ w) (space : Nat) (value : BitVec w)
    (h : value.toNat < 128 ^ (space + 1)) : ∃ tmp, varint (space + 1) value = .ok tmp := by
  induction space generalizing value with
  | zero =>
    unfold varint
    rw [if_neg (by rw [ge_80_iff hw]; omega)]
    exact ⟨_, rfl⟩
  | succ space ih =>
    unfold varint
    split
    . obtain ⟨tmp, htmp⟩ := ih (value >>> 7) (by
        rw [toNat_shiftRight_seven]
        rw [Nat.pow_succ] at h
        omega)
      rw [htmp]
      exact ⟨_, rfl⟩
    . exact ⟨_, rfl⟩

end Varint

section Zigzag

theorem toNat_unzigzag_even {w : Nat} (hw : 1 < w) (v : BitVec w) (h : v.toNat % 2 = 0)
    : ((v >>> 1) ^^^ (-(v &&& 1#w))).toNat = v.toNat / 2 := by
  have hpow : 2 ^ 1 < 2 ^ w := Nat.pow_lt_pow_right (by decide) hw
  have hlow : v &&& 1#w = 0#w := by
    apply BitVec.eq_of_toNat_eq
    rw [BitVec.toNat_and, BitVec.toNat_ofNat, Nat.mod_eq_of_lt (by omega), Nat.and_one_is_mod, h]
    rfl
  rw [hlow, BitVec.neg_zero, BitVec.xor_zero, BitVec.toNat_ushiftRight]
  rfl

theorem toNat_unzigzag_odd {w : Nat} (hw : 1 < w) (v : BitVec w) (h : v.toNat % 2 = 1)
    : ((v >>> 1) ^^^ (-(v &&& 1#w))).toNat = 2 ^ w - 1 - v.toNat / 2 := by
  have hpow : 2 ^ 1 < 2 ^ w := Nat.pow_lt_pow_right (by decide) hw
  have hlow : v &&& 1#w = 1#w := by
    apply BitVec.eq_of_toNat_eq
    rw [BitVec.toNat_and, BitVec.toNat_ofNat, Nat.mod_eq_of_lt (by omega), Nat.and_one_is_mod, h]
  rw [hlow, BitVec.neg_one_eq_allOnes, BitVec.xor_allOnes, BitVec.toNat_not]
  rw [BitVec.toNat_ushiftRight, Nat.shiftRight_eq_div_pow, Nat.pow_one]

theorem toNat_DecodeZigzag32_even (v : UInt32) (h : v.toNat % 2 = 0)
    : (DecodeZigzag32 v).toBitVec.toNat = v.toNat / 2 :=
  toNat_unzigzag_even (by decide) v.toBitVec h

theorem toNat_DecodeZigzag32_odd (v : UInt32) (h : v.toNat % 2 = 1)
    : (DecodeZigzag32 v).toBitVec.toNat = 2 ^ 32 - 1 - v.toNat / 2 :=
  toNat_unzigzag_odd (by decide) v.toBitVec h

theorem Int32_neg_iff (v : Int32) : v < 0 ↔ 2 ^ 31 ≤ v.toBitVec.toNat := by
  have hlt := v.toBitVec.isLt
  have h0 : (0 : Int32).toInt = 0 := rfl
  have hint : v.toInt = v.toBitVec.toInt := rfl
  rw [Int32.lt_iff_toInt_lt, h0, hint, BitVec.toInt_eq_toNat_cond]
  split <;> omega

theorem toNat_EncodeZigzag32 (v : Int32)
    : (EncodeZigzag32 v).toNat
        =
      if v < 0 then 2 * (2 ^ 32 - v.toBitVec.toNat) - 1 else 2 * v.toBitVec.toNat := by
  have hlt := v.toBitVec.isLt
  have hsign := Int32_neg_iff v
  unfold EncodeZigzag32
  split
  . next hneg =>
    rw [hsign] at hneg
    have hn : (-v).toUInt32.toNat = (2 ^ 32 - v.toBitVec.toNat) % 2 ^ 32 :=
      BitVec.toNat_neg v.toBitVec
    have h1 : (1 : UInt32).toNat = 1 := rfl
    have h2 : (2 : UInt32).toNat = 2 := rfl
    rw [UInt32.toNat_sub, UInt32.toNat_mul, hn, h1, h2]
    omega
  . next hpos =>
    rw [hsign] at hpos
    have hm : (v * 2).toUInt32.toNat = (v.toBitVec.toNat * 2) % 2 ^ 32 :=
      BitVec.toNat_mul v.toBitVec 2#32
    rw [hm]
    omega

theorem DecodeZigzag32_EncodeZigzag32 (v : Int32) : DecodeZigzag32 (EncodeZigzag32 v) = v := by
  have hlt := v.toBitVec.isLt
  have hsign := Int32_neg_iff v
  have henc := toNat_EncodeZigzag32 v
  apply Int32.toBitVec_inj.mp
  apply BitVec.eq_of_toNat_eq
  split at henc
  . next hneg =>
    rw [hsign] at hneg
    rw [toNat_DecodeZigzag32_odd _ (by omega), henc]
    omega
  . next hpos =>
    rw [toNat_DecodeZigzag32_even _ (by omega), henc]
    omega

end Zigzag

namespace FlatStream

open ByteStore (Value Kind Op values)

theorem read_append (e : Endian) (buf rest : List UInt8)
    : read ⟨e, buf ++ rest⟩ buf.length = .ok (buf, ⟨e, rest⟩) := by
  unfold read
  rw [if_neg (by simp)]
  simp

theorem readFuint8_cons (order e : Endian) (b : UInt8) (rest : List UInt8)
    : store.readFuint8 order ⟨e, b :: rest⟩ = .ok (b, ⟨e, rest⟩) := by
  have hread : store.read ⟨e, b :: rest⟩ 1 = .ok ([b], ⟨e, rest⟩) := read_append e [b] rest
  have hload : [b] = order.load (n := 1) b.toBitVec := by
    cases order <;> simp [Endian.load, bytesOf]
  unfold ByteStore.readFuint8
  rw [hread, hload]
  simp only [Except.map, Endian.store_load]
  rfl

theorem readuint_go_varint {w : Nat} (hw : 8 ≤ w) (order e : Endian) (rest : List UInt8)
    (space : Nat) (value : BitVec w) (tmp : List UInt8) (i : Nat) (result : BitVec w)
    (htmp : ByteStore.varint space value = .ok tmp) (hi : i < w) (hresult : result.toNat < 2 ^ i)
    (hvalue : value.toNat * 2 ^ i < 2 ^ w)
    : ByteStore.readuint.go store order w i result ⟨e, tmp ++ rest⟩
        = .ok (BitVec.ofNat w (result.toNat + value.toNat * 2 ^ i), ⟨e, rest⟩) := by
  induction space generalizing value tmp i result with
  | zero => cases htmp
  | succ space ih =>
    unfold ByteStore.varint at htmp
    unfold ByteStore.readuint.go
    rw [if_pos hi]
    split at htmp
    . next hge =>
      rw [ge_80_iff hw] at hge
      obtain ⟨tmp', htmp', heq⟩ := Except.map_eq_ok htmp
      have hbyte := toNat_payload hw value
      generalize UInt8.ofBitVec ((value &&& 0x7f#w ||| 0x80#w).setWidth 8) = b at hbyte heq
      subst heq
      rw [List.cons_append, readFuint8_cons]
      dsimp only
      have hb : ¬ b < 0x80 := by
        rw [UInt8.lt_iff_toNat_lt]
        have : (0x80 : UInt8).toNat = 128 := rfl
        omega
      rw [if_neg hb]
      have hlow : (b &&& 0x7f).toNat = value.toNat % 128 := by
        rw [toNat_and_7f]
        omega
      have hsplit : value.toNat * 2 ^ i
          = (value.toNat % 128) * 2 ^ i + (value.toNat / 128) * 2 ^ (i + 7) := by
        rw [Nat.pow_add, Nat.mul_comm (2 ^ i), ← Nat.mul_assoc, ← Nat.add_mul]
        congr 1
        omega
      have hor := toNat_or_shiftLeft result (b &&& 0x7f) i hresult (by rw [hlow]; omega)
      rw [hlow] at hor
      have hdiv := toNat_shiftRight_seven value
      have hpos : 1 * 2 ^ (i + 7) ≤ (value.toNat / 128) * 2 ^ (i + 7) :=
        Nat.mul_le_mul_right _ (by omega)
      have hi' : i + 7 < w := by
        apply (Nat.pow_lt_pow_iff_right (a := 2) (by decide)).mp
        omega
      have hmod : (value.toNat % 128) * 2 ^ i ≤ 127 * 2 ^ i := Nat.mul_le_mul_right _ (by omega)
      have hpow : 2 ^ (i + 7) = 2 ^ i * 128 := by rw [Nat.pow_add]
      rw [ih (value >>> 7) tmp' (i + 7) _ htmp' hi' (by rw [hor]; omega) (by rw [hdiv]; omega)]
      rw [hor, hdiv, hsplit, Nat.add_assoc]
    . next hlt =>
      rw [ge_80_iff hw] at hlt
      injection htmp with htmp
      have hbyte := toNat_last value (by omega)
      generalize UInt8.ofBitVec (value.setWidth 8) = b at hbyte htmp
      subst htmp
      rw [List.singleton_append, readFuint8_cons]
      dsimp only
      have hb : b < 0x80 := by
        rw [UInt8.lt_iff_toNat_lt]
        have : (0x80 : UInt8).toNat = 128 := rfl
        omega
      rw [if_pos hb]
      have hor := toNat_or_shiftLeft result b i hresult (by rw [hbyte]; exact hvalue)
      rw [hbyte] at hor
      rw [← hor, BitVec.ofNat_toNat, BitVec.setWidth_eq]

/--
What `put` appends does not depend on what is there, and `get` takes exactly that away again and
returns `a`, with anything behind it.
-/
def ReadsBack {α : Type} (put : FlatStream → Except ByteArray.Fault FlatStream)
    (get : FlatStream → Except ByteArray.Fault (α × FlatStream)) (a : α) : Prop :=
  ∀ e, ∃ out,
    (∀ bytes, put ⟨e, bytes⟩ = .ok ⟨e, bytes ++ out⟩)
      ∧
    (∀ rest, get ⟨e, out ++ rest⟩ = .ok (a, ⟨e, rest⟩))

theorem ReadsBack.map {α β : Type} {put : FlatStream → Except ByteArray.Fault FlatStream}
    {get : FlatStream → Except ByteArray.Fault (α × FlatStream)} {a : α} (f : α → β)
    (h : ReadsBack put get a)
    : ReadsBack put (fun s => (get s).map fun (a, s) => (f a, s)) (f a) := by
  intro e
  obtain ⟨out, hput, hget⟩ := h e
  refine ⟨out, hput, ?_⟩
  intro rest
  dsimp only
  rw [hget]
  rfl

/-- What `put` appends does not depend on what is there. -/
def Appends (put : FlatStream → Except ByteArray.Fault FlatStream) (e : Endian) (out : List UInt8)
    : Prop :=
  ∀ bytes, put ⟨e, bytes⟩ = .ok ⟨e, bytes ++ out⟩

section Appends

variable {e : Endian} {out₁ out₂ : List UInt8}
  {put₁ : FlatStream → Except ByteArray.Fault FlatStream}

theorem Appends.unique (h₁ : Appends put₁ e out₁) (h₂ : Appends put₁ e out₂) : out₁ = out₂ := by
  have heq := h₁ []
  rw [h₂ []] at heq
  injection heq with heq
  injection heq with _ heq
  exact heq.symm

variable {α : Type} {put : FlatStream → α → Except ByteArray.Fault FlatStream}

theorem writeEach_nil : Appends (fun s => ByteStore.writeEach put s []) e [] := by
  intro bytes
  rw [List.append_nil]
  rfl

theorem writeEach_cons {a : α} {as : List α} (h₁ : Appends (fun s => put s a) e out₁)
    (h₂ : Appends (fun s => ByteStore.writeEach put s as) e out₂)
    : Appends (fun s => ByteStore.writeEach put s (a :: as)) e (out₁ ++ out₂) := by
  intro bytes
  have hfirst := h₁ bytes
  have hrest := h₂ (bytes ++ out₁)
  dsimp only at *
  unfold ByteStore.writeEach
  rw [hfirst]
  dsimp only
  rw [hrest, List.append_assoc]

theorem writeEach_appends (h : ∀ a, ∃ out, Appends (fun s => put s a) e out) (as : List α)
    : ∃ out, Appends (fun s => ByteStore.writeEach put s as) e out := by
  induction as with
  | nil => exact ⟨[], writeEach_nil⟩
  | cons a as ih =>
    obtain ⟨out₁, h₁⟩ := h a
    obtain ⟨out₂, h₂⟩ := ih
    exact ⟨out₁ ++ out₂, writeEach_cons h₁ h₂⟩

end Appends

variable (order : Endian)

theorem read_load (e : Endian) {n : Nat} (value : BitVec (8 * n)) (rest : List UInt8)
    : store.read ⟨e, order.load value ++ rest⟩ n = .ok (order.load value, ⟨e, rest⟩) := by
  have h := read_append e (order.load value) rest
  rw [Endian.length_load] at h
  exact h

theorem readsBack_load {α : Type} {n : Nat} (value : BitVec (8 * n)) (f : BitVec (8 * n) → α)
    : ReadsBack (fun s => store.write s (order.load value))
        (fun s => (store.read s n).map fun (bytes, s) => (f (order.store bytes), s)) (f value) := by
  intro e
  refine ⟨order.load value, ?_, ?_⟩
  . intro bytes
    rfl
  . intro rest
    dsimp only
    rw [read_load]
    simp only [Except.map, Endian.store_load]

theorem readsBack_F {n : Nat} (value : BitVec (8 * n))
    : ReadsBack (fun s => store.writeF order s value) (fun s => store.readF order s n) value := by
  intro e
  refine ⟨order.load (if e ≠ order then byteswap value else value), ?_, ?_⟩
  . intro bytes
    rfl
  . intro rest
    unfold ByteStore.readF
    dsimp only
    rw [read_load]
    simp only [Except.map, Endian.store_load, store]
    by_cases he : e = order
    . rw [if_pos he, if_neg (fun h => h he)]
    . rw [if_neg he, if_pos he, byteswap_byteswap]

theorem readsBack_uint {w : Nat} (hw : 8 ≤ w) (space : Nat) (hspace : 2 ^ w ≤ 128 ^ (space + 1))
    (value : BitVec w)
    : ReadsBack (fun s => store.writeuint s (space + 1) value) (fun s => store.readuint order s w)
        value := by
  intro e
  have hlt := value.isLt
  obtain ⟨tmp, htmp⟩ := ByteStore.varint_eq_ok hw space value (by omega)
  refine ⟨tmp, ?_, ?_⟩
  . intro bytes
    unfold ByteStore.writeuint
    rw [htmp]
    rfl
  . intro rest
    unfold ByteStore.readuint
    dsimp only
    rw [readuint_go_varint hw order e rest (space + 1) value tmp 0 0#w htmp (by omega)
      (by rw [BitVec.toNat_ofNat]; simp) (by omega)]
    rw [Nat.pow_zero, Nat.mul_one, BitVec.toNat_ofNat, Nat.zero_mod, Nat.zero_add,
      BitVec.ofNat_toNat, BitVec.setWidth_eq]

theorem readsBack_uint32 (v : UInt32)
    : ReadsBack (fun s => store.writeuint32 s v) (fun s => store.readuint32 order s) v :=
  (readsBack_uint order (by decide) 4 (by decide) v.toBitVec).map UInt32.ofBitVec

theorem readsBack_uint64 (v : UInt64)
    : ReadsBack (fun s => store.writeuint64 s v) (fun s => store.readuint64 order s) v :=
  (readsBack_uint order (by decide) 9 (by decide) v.toBitVec).map UInt64.ofBitVec

theorem readsBack_int32 (v : Int32)
    : ReadsBack (fun s => store.writeint32 s v) (fun s => store.readint32 order s) v := by
  have h := (readsBack_uint32 order (EncodeZigzag32 v)).map DecodeZigzag32
  rw [DecodeZigzag32_EncodeZigzag32] at h
  exact h

theorem readsBack_value (v : Value)
    : ReadsBack (fun s => store.writeValue order s v)
        (fun s => store.readValue order s v.kind) v := by
  cases v with
  | Fint8 v => exact (readsBack_load order (n := 1) v.toBitVec Int8.ofBitVec).map Value.Fint8
  | Fuint8 v =>
    exact (readsBack_load order (n := 1) v.toBitVec (fun v => (Int8.ofBitVec v).toUInt8)).map
      Value.Fuint8
  | Fint16 v => exact ((readsBack_F order (n := 2) v.toBitVec).map Int16.ofBitVec).map Value.Fint16
  | Fuint16 v => exact ((readsBack_F order (n := 2) v.toBitVec).map UInt16.ofBitVec).map Value.Fuint16
  | Fint32 v => exact ((readsBack_F order (n := 4) v.toBitVec).map Int32.ofBitVec).map Value.Fint32
  | Fuint32 v => exact ((readsBack_F order (n := 4) v.toBitVec).map UInt32.ofBitVec).map Value.Fuint32
  | Fint64 v => exact ((readsBack_F order (n := 8) v.toBitVec).map Int64.ofBitVec).map Value.Fint64
  | Fuint64 v => exact ((readsBack_F order (n := 8) v.toBitVec).map UInt64.ofBitVec).map Value.Fuint64
  | uint32 v => exact (readsBack_uint32 order v).map Value.uint32
  | uint64 v => exact (readsBack_uint64 order v).map Value.uint64
  | int32 v => exact (readsBack_int32 order v).map Value.int32

def finalEndian {α : Type} (e : Endian) : List (Op α) → Endian
  | [] => e
  | .setLittleEndian val :: ops => finalEndian (if val then .little else .big) ops
  | .value _ :: ops => finalEndian e ops

theorem readAll_writeAll (ops : List (Op Value)) (e : Endian)
    : ∃ out,
        (∀ bytes, store.writeAll order ⟨e, bytes⟩ ops = .ok ⟨finalEndian e ops, bytes ++ out⟩)
          ∧
        (∀ rest, store.readAll order ⟨e, out ++ rest⟩ (ops.map (.map Value.kind))
          = .ok (values ops, ⟨finalEndian e ops, rest⟩)) := by
  induction ops generalizing e with
  | nil =>
    refine ⟨[], ?_, ?_⟩
    . intro bytes
      rw [List.append_nil]
      rfl
    . intro rest
      rfl
  | cons op ops ih =>
    cases op with
    | setLittleEndian val => exact ih (if val then .little else .big)
    | value v =>
      obtain ⟨out₁, hput₁, hget₁⟩ := readsBack_value order v e
      obtain ⟨out₂, hput₂, hget₂⟩ := ih e
      refine ⟨out₁ ++ out₂, ?_, ?_⟩
      . intro bytes
        unfold ByteStore.writeAll
        dsimp only at hput₁
        rw [hput₁]
        dsimp only
        rw [hput₂, List.append_assoc]
        rfl
      . intro rest
        dsimp only at hget₁
        simp only [List.map_cons, Op.map]
        unfold ByteStore.readAll
        rw [List.append_assoc, hget₁]
        dsimp only
        rw [hget₂]
        rfl

end FlatStream

end CXS
