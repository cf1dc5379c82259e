import CXS.ByteArray.Capacity
import CXS.ByteArray.Floats
import CXS.ByteArray.Signed
import CXS.ByteArray.Strings

/-!
This module contains the proof that the typed member functions of `ByteArray` take back what they
have written, over the chain of nodes itself: the numbers of every width and sign, the varints, the
`float`s and the strings, in any order and with changes of the byte order in between.

The stores of `Codec` are related to the flat stream first. `Puts` and `Gets` say that a function on a
store does what the same function does on the stream, and they go through the typed functions one by
one. The chain is such a store in two ways: `write` extends what stands between the start and the
cursor, and `read` shortens what stands between the cursor and the end.
-/

namespace CXS

namespace ByteStore

variable {σ : Type} (st : ByteStore σ) (order : Endian)

inductive Item where
  | value (v : Value)
  | int64 (v : Int64)
  | float (bits : UInt32)
  | string (format : StringFormat) (value : StdString)

namespace Item

inductive Kind where
  | value (kind : ByteStore.Kind)
  | int64
  | float
  | string (format : StringFormat)
  deriving DecidableEq, Repr

inductive Result where
  | value (v : Value)
  | int64 (v : Int64)
  | float (bits : UInt32)
  | string (bytes : List UInt8)
  deriving DecidableEq

def kind : Item → Kind
  | .value v => .value v.kind
  | .int64 _ => .int64
  | .float _ => .float
  | .string format _ => .string format

def result : Item → Result
  | .value v => .value v
  | .int64 v => .int64 v
  | .float bits => .float bits
  | .string _ s => .string s.bytes

/--
The values that the formats can hold: `EncodeZigzag64` keeps 32 bits, `readFloat` converts its integer,
and the length of a string is narrowed to its field.
-/
def Fits : Item → Prop
  | .value _ => True
  | .int64 v => -2 ^ 31 ≤ v.toInt ∧ v.toInt < 2 ^ 31
  | .float bits => floatOfUInt32 bits = bits
  | .string format s => s.size < 2 ^ format.width

end Item

def Item.Result.IsEmpty : Item.Result → Prop
  | .string bytes => bytes = []
  | _ => False

def writeItem (s : σ) : Item → Except ByteArray.Fault σ
  | .value v => st.writeValue order s v
  | .int64 v => st.writeint64 s v
  | .float bits => st.writeFloat order s bits
  | .string format value => st.writeStringAs order s value format

def readItem (s : σ) : Item.Kind → Except ByteArray.Fault (Item.Result × σ)
  | .value kind => (st.readValue order s kind).map fun (v, s) => (.value v, s)
  | .int64 => (st.readint64 order s).map fun (v, s) => (.int64 v, s)
  | .float => (st.readFloat order s).map fun (bits, s) => (.float bits, s)
  | .string format => (st.readStringAs order s format).map fun (bytes, s) => (.string bytes, s)

def writeItems (s : σ) : List (Op Item) → Except ByteArray.Fault σ
  | [] => .ok s
  | .setLittleEndian val :: ops => writeItems (st.setLittleEndian s val) ops
  | .value item :: ops =>
    match st.writeItem order s item with
    | .error e => .error e
    | .ok s => writeItems s ops

def readItems (s : σ) : List (Op Item.Kind) → Except ByteArray.Fault (List Item.Result × σ)
  | [] => .ok ([], s)
  | .setLittleEndian val :: ops => readItems (st.setLittleEndian s val) ops
  | .value kind :: ops =>
    match st.readItem order s kind with
    | .error e => .error e
    | .ok (result, s) => (readItems s ops).map fun (results, s) => (result :: results, s)

end ByteStore

open ByteStore (Value Kind Op Item StringFormat values)

section Puts

variable {σ : Type} {st : ByteStore σ} {order : Endian} {R : FlatStream → σ → Prop}

/-- The store appends when the stream does. -/
structure WritesLike (st : ByteStore σ) (R : FlatStream → σ → Prop) : Prop where
  m_endian : ∀ {t s}, R t s → st.m_endian s = t.m_endian
  setEndian : ∀ {t s} (e : Endian), R t s → R { t with m_endian := e } (st.setEndian s e)
  write : ∀ {t s s'} (buf : List UInt8), R t s → st.write s buf = .ok s'
    → R { t with bytes := t.bytes ++ buf } s'

def Puts (R : FlatStream → σ → Prop) (put₀ : FlatStream → Except ByteArray.Fault FlatStream)
    (put : σ → Except ByteArray.Fault σ) : Prop :=
  ∀ t s s', R t s → put s = .ok s' → ∃ t', put₀ t = .ok t' ∧ R t' s'

namespace WritesLike

open FlatStream (store)

theorem puts_load (h : WritesLike st R) {n : Nat} (value : BitVec (8 * n))
    : Puts R (fun t => store.write t (order.load value)) (fun s => st.write s (order.load value)) := by
  intro t s s' hR hput
  exact ⟨_, rfl, h.write _ hR hput⟩

theorem puts_F (h : WritesLike st R) {n : Nat} (value : BitVec (8 * n))
    : Puts R (fun t => store.writeF order t value) (fun s => st.writeF order s value) := by
  intro t s s' hR hput
  unfold ByteStore.writeF at hput
  dsimp only at hput
  rw [h.m_endian hR] at hput
  exact ⟨_, rfl, h.write _ hR hput⟩

theorem puts_uint (h : WritesLike st R) {w : Nat} (space : Nat) (value : BitVec w)
    : Puts R (fun t => store.writeuint t space value) (fun s => st.writeuint s space value) := by
  intro t s s' hR hput
  unfold ByteStore.writeuint at *
  dsimp only at *
  split at hput
  . cases hput
  . next tmp htmp => exact ⟨_, rfl, h.write _ hR hput⟩

theorem puts_payload (h : WritesLike st R) (value : StdString)
    {put₀ : FlatStream → Except ByteArray.Fault FlatStream} {put : σ → Except ByteArray.Fault σ}
    (hlen : Puts R put₀ put)
    : Puts R (fun t => store.writePayload value (put₀ t)) (fun s => st.writePayload value (put s)) := by
  intro t s s' hR hput
  unfold ByteStore.writePayload at *
  dsimp only at *
  split at hput
  . cases hput
  . next written hwritten =>
    obtain ⟨t₁, ht₁, hR₁⟩ := hlen t s written hR hwritten
    rw [ht₁]
    exact ⟨_, rfl, h.write _ hR₁ hput⟩

theorem puts_value (h : WritesLike st R) (v : Value)
    : Puts R (fun t => store.writeValue order t v) (fun s => st.writeValue order s v) := by
  cases v with
  | Fint8 v => exact h.puts_load (n := 1) v.toBitVec
  | Fuint8 v => exact h.puts_load (n := 1) v.toBitVec
  | Fint16 v => exact h.puts_F (n := 2) v.toBitVec
  | Fuint16 v => exact h.puts_F (n := 2) v.toBitVec
  | Fint32 v => exact h.puts_F (n := 4) v.toBitVec
  | Fuint32 v => exact h.puts_F (n := 4) v.toBitVec
  | Fint64 v => exact h.puts_F (n := 8) v.toBitVec
  | Fuint64 v => exact h.puts_F (n := 8) v.toBitVec
  | uint32 v => exact h.puts_uint 5 v.toBitVec
  | uint64 v => exact h.puts_uint 10 v.toBitVec
  | int32 v => exact h.puts_uint 5 (EncodeZigzag32 v).toBitVec

theorem puts_item (h : WritesLike st R) (item : Item)
    : Puts R (fun t => store.writeItem order t item) (fun s => st.writeItem order s item) := by
  cases item with
  | value v => exact h.puts_value v
  | int64 v => exact h.puts_uint 10 (EncodeZigzag64 v).toUInt64.toBitVec
  | float bits => exact h.puts_F (n := 4) bits.toBitVec
  | string format value =>
    cases format with
    | F16 => exact h.puts_payload value (h.puts_F (n := 2) (UInt16.ofNat value.size).toBitVec)
    | F32 => exact h.puts_payload value (h.puts_F (n := 4) (UInt32.ofNat value.size).toBitVec)
    | F64 => exact h.puts_payload value (h.puts_F (n := 8) (UInt64.ofNat value.size).toBitVec)
    | Vint => exact h.puts_payload value (h.puts_F (n := 8) (UInt64.ofNat value.size).toBitVec)

theorem puts_items (h : WritesLike st R) (ops : List (Op Item))
    : Puts R (fun t => store.writeItems order t ops) (fun s => st.writeItems order s ops) := by
  induction ops with
  | nil =>
    intro t s s' hR hput
    injection hput with hput
    rw [← hput]
    exact ⟨t, rfl, hR⟩
  | cons op ops ih =>
    intro t s s' hR hput
    cases op with
    | setLittleEndian val =>
      exact ih _ _ s' (h.setEndian (if val then .little else .big) hR) hput
    | value item =>
      dsimp only at hput
      unfold ByteStore.writeItems at hput
      split at hput
      . cases hput
      . next written hwritten =>
        obtain ⟨t₁, ht₁, hR₁⟩ := h.puts_item item t s written hR hwritten
        obtain ⟨t', ht', hR'⟩ := ih t₁ written s' hR₁ hput
        refine ⟨t', ?_, hR'⟩
        dsimp only at ht₁
        dsimp only
        unfold ByteStore.writeItems
        rw [ht₁]
        exact ht'

end WritesLike

end Puts

section Gets

variable {σ : Type} {st : ByteStore σ} {R : FlatStream → σ → Prop} {room : Prop}

/--
The store hands out what the stream does. A read of no bytes is only certain to return normally where
there are bytes left or there is `room` behind them.
-/
structure ReadsLike (st : ByteStore σ) (R : FlatStream → σ → Prop) (room : Prop) : Prop where
  m_endian : ∀ {t s}, R t s → st.m_endian s = t.m_endian
  setEndian : ∀ {t s} (e : Endian), R t s → R { t with m_endian := e } (st.setEndian s e)
  read : ∀ {t s} (n : Nat), R t s → n ≤ t.bytes.length → n ≠ 0 ∨ t.bytes ≠ [] ∨ room
    → ∃ s', st.read s n = .ok (t.bytes.take n, s') ∧ R { t with bytes := t.bytes.drop n } s'

def Gets {α : Type} (R : FlatStream → σ → Prop)
    (get₀ : FlatStream → Except ByteArray.Fault (α × FlatStream))
    (get : σ → Except ByteArray.Fault (α × σ)) : Prop :=
  ∀ t s a t', R t s → get₀ t = .ok (a, t') → ∃ s', get s = .ok (a, s') ∧ R t' s'

theorem Gets.map {α β : Type} {get₀ : FlatStream → Except ByteArray.Fault (α × FlatStream)}
    {get : σ → Except ByteArray.Fault (α × σ)} (f : α → β) (h : Gets R get₀ get)
    : Gets R (fun t => (get₀ t).map fun (a, t) => (f a, t))
        (fun s => (get s).map fun (a, s) => (f a, s)) := by
  intro t s b t' hR hget
  obtain ⟨⟨a, t₁⟩, hget₀, heq⟩ := Except.map_eq_ok hget
  injection heq with hb ht
  subst hb ht
  obtain ⟨s', hs', hR'⟩ := h t s a t₁ hR hget₀
  refine ⟨s', ?_, hR'⟩
  dsimp only
  rw [hs']
  rfl

theorem FlatStream.read_eq_ok {t t' : FlatStream} {n : Nat} {bytes : List UInt8}
    (h : FlatStream.store.read t n = .ok (bytes, t'))
    : n ≤ t.bytes.length ∧ bytes = t.bytes.take n ∧ t' = { t with bytes := t.bytes.drop n } := by
  change FlatStream.read t n = _ at h
  unfold FlatStream.read at h
  split at h
  . cases h
  . next hle =>
    injection h with h
    injection h with hbytes ht
    exact ⟨by omega, hbytes.symm, ht.symm⟩

namespace ReadsLike

open FlatStream (store)

variable (order : Endian)

theorem gets_read (h : ReadsLike st R room) {n : Nat} (hn : n ≠ 0)
    : Gets R (fun t => store.read t n) (fun s => st.read s n) := by
  intro t s bytes t' hR hget
  obtain ⟨hle, rfl, rfl⟩ := FlatStream.read_eq_ok hget
  exact h.read n hR hle (.inl hn)

theorem gets_F (h : ReadsLike st R room) {n : Nat} (hn : n ≠ 0)
    : Gets R (fun t => store.readF order t n) (fun s => st.readF order s n) := by
  intro t s v t' hR hget
  unfold ByteStore.readF at *
  obtain ⟨⟨bytes, t₁⟩, hget₀, heq⟩ := Except.map_eq_ok hget
  injection heq with hv ht
  subst hv ht
  obtain ⟨s', hs', hR'⟩ := h.gets_read hn t s bytes t₁ hR hget₀
  have hread : store.m_endian t₁ = t₁.m_endian := rfl
  refine ⟨s', ?_, hR'⟩
  dsimp only at hs'
  dsimp only
  rw [hs', hread]
  simp only [Except.map, h.m_endian hR']

theorem gets_Fuint8 (h : ReadsLike st R room)
    : Gets R (fun t => store.readFuint8 order t) (fun s => st.readFuint8 order s) :=
  (h.gets_read (n := 1) (by decide)).map
    (fun bytes => (Int8.ofBitVec (order.store (n := 1) bytes)).toUInt8)

theorem gets_uint_go (h : ReadsLike st R room) (w i : Nat) (result : BitVec w)
    : Gets R (fun t => ByteStore.readuint.go store order w i result t)
        (fun s => ByteStore.readuint.go st order w i result s) := by
  intro t s v t' hR hget
  dsimp only at *
  unfold ByteStore.readuint.go at *
  split at hget
  . next hi =>
    rw [if_pos hi]
    split at hget
    . cases hget
    . next b t₁ hbyte =>
      obtain ⟨s₁, hs₁, hR₁⟩ := h.gets_Fuint8 order t s b t₁ hR hbyte
      dsimp only at hs₁
      rw [hs₁]
      dsimp only
      split at hget
      . next hlast =>
        rw [if_pos hlast]
        injection hget with heq
        injection heq with hv ht
        subst hv ht
        exact ⟨s₁, rfl, hR₁⟩
      . next hmore =>
        rw [if_neg hmore]
        exact gets_uint_go h w (i + 7) _ t₁ s₁ v t' hR₁ hget
  . next hi =>
    rw [if_neg hi]
    injection hget with heq
    injection heq with hv ht
    subst hv ht
    exact ⟨s, rfl, hR⟩
termination_by w - i

theorem gets_uint (h : ReadsLike st R room) (w : Nat)
    : Gets R (fun t => store.readuint order t w) (fun s => st.readuint order s w) :=
  h.gets_uint_go order w 0 0#w

theorem gets_value (h : ReadsLike st R room) (kind : Kind)
    : Gets R (fun t => store.readValue order t kind) (fun s => st.readValue order s kind) := by
  have h1 := h.gets_read (n := 1) (by decide)
  have h2 := h.gets_F order (n := 2) (by decide)
  have h4 := h.gets_F order (n := 4) (by decide)
  have h8 := h.gets_F order (n := 8) (by decide)
  have h32 := (h.gets_uint order 32).map UInt32.ofBitVec
  cases kind with
  | Fint8 =>
    exact (h1.map fun bytes => Int8.ofBitVec (order.store (n := 1) bytes)).map Value.Fint8
  | Fuint8 => exact (h.gets_Fuint8 order).map Value.Fuint8
  | Fint16 => exact (h2.map Int16.ofBitVec).map Value.Fint16
  | Fuint16 => exact (h2.map UInt16.ofBitVec).map Value.Fuint16
  | Fint32 => exact (h4.map Int32.ofBitVec).map Value.Fint32
  | Fuint32 => exact (h4.map UInt32.ofBitVec).map Value.Fuint32
  | Fint64 => exact (h8.map Int64.ofBitVec).map Value.Fint64
  | Fuint64 => exact (h8.map UInt64.ofBitVec).map Value.Fuint64
  | uint32 => exact h32.map Value.uint32
  | uint64 => exact ((h.gets_uint order 64).map UInt64.ofBitVec).map Value.uint64
  | int32 => exact (h32.map DecodeZigzag32).map Value.int32

theorem gets_payload (h : ReadsLike st R room)
    {get₀ : FlatStream → Except ByteArray.Fault (Nat × FlatStream)}
    {get : σ → Except ByteArray.Fault (Nat × σ)} (hlen : Gets R get₀ get) {t t' : FlatStream} {s : σ}
    {bytes : List UInt8} (hR : R t s) (hget : store.readPayload (get₀ t) = .ok (bytes, t'))
    (hready : bytes ≠ [] ∨ t'.bytes ≠ [] ∨ room)
    : ∃ s', st.readPayload (get s) = .ok (bytes, s') ∧ R t' s' := by
  unfold ByteStore.readPayload at *
  split at hget
  . cases hget
  . next len t₁ hlen₀ =>
    obtain ⟨s₁, hs₁, hR₁⟩ := hlen t s len t₁ hR hlen₀
    obtain ⟨hle, rfl, rfl⟩ := FlatStream.read_eq_ok hget
    rw [hs₁]
    apply h.read len hR₁ hle
    by_cases hzero : len = 0
    . subst hzero
      rw [List.take_zero, List.drop_zero] at hready
      exact .inr (hready.resolve_left fun hne => hne rfl)
    . exact .inl hzero

theorem gets_item (h : ReadsLike st R room) (kind : Item.Kind) {t t' : FlatStream} {s : σ}
    {result : Item.Result} (hR : R t s) (hget : store.readItem order t kind = .ok (result, t'))
    (hready : ¬ result.IsEmpty ∨ t'.bytes ≠ [] ∨ room)
    : ∃ s', st.readItem order s kind = .ok (result, s') ∧ R t' s' := by
  cases kind with
  | value kind => exact (h.gets_value order kind).map Item.Result.value t s result t' hR hget
  | int64 =>
    exact (((h.gets_uint order 64).map UInt64.ofBitVec).map DecodeZigzag64).map Item.Result.int64
      t s result t' hR hget
  | float =>
    exact (((h.gets_F order (n := 4) (by decide)).map UInt32.ofBitVec).map floatOfUInt32).map
      Item.Result.float t s result t' hR hget
  | string format =>
    obtain ⟨⟨bytes, t₁⟩, hstring, heq⟩ := Except.map_eq_ok hget
    injection heq with hresult ht
    subst hresult ht
    have hlen : ∃ s', st.readStringAs order s format = .ok (bytes, s') ∧ R t₁ s' := by
      have h2 := ((h.gets_F order (n := 2) (by decide)).map UInt16.ofBitVec).map UInt16.toNat
      have h4 := ((h.gets_F order (n := 4) (by decide)).map UInt32.ofBitVec).map UInt32.toNat
      have h8 := ((h.gets_F order (n := 8) (by decide)).map UInt64.ofBitVec).map UInt64.toNat
      cases format with
      | F16 => exact h.gets_payload h2 hR hstring hready
      | F32 => exact h.gets_payload h4 hR hstring hready
      | F64 => exact h.gets_payload h8 hR hstring hready
      | Vint => exact h.gets_payload h8 hR hstring hready
    obtain ⟨s', hs', hR'⟩ := hlen
    refine ⟨s', ?_, hR'⟩
    unfold ByteStore.readItem
    dsimp only
    rw [hs']
    rfl

end ReadsLike

section Empty

open FlatStream (store)

variable (order e : Endian)

theorem FlatStream.read_empty {n : Nat} (hn : n ≠ 0)
    : store.read ⟨e, []⟩ n = .error .outOfRange := by
  change FlatStream.read ⟨e, []⟩ n = _
  unfold FlatStream.read
  rw [if_pos]
  dsimp only
  rw [List.length_nil]
  omega

theorem FlatStream.readF_empty {n : Nat} (hn : n ≠ 0)
    : store.readF order ⟨e, []⟩ n = .error .outOfRange := by
  unfold ByteStore.readF
  rw [FlatStream.read_empty e hn]
  rfl

theorem FlatStream.readuint_empty {w : Nat} (hw : 0 < w)
    : store.readuint order ⟨e, []⟩ w = .error .outOfRange := by
  unfold ByteStore.readuint ByteStore.readuint.go ByteStore.readFuint8
  rw [if_pos hw, FlatStream.read_empty e (by decide)]
  rfl

theorem FlatStream.readItem_empty (kind : Item.Kind)
    : store.readItem order ⟨e, []⟩ kind = .error .outOfRange := by
  have h1 := FlatStream.read_empty e (n := 1) (by decide)
  have h2 := FlatStream.readF_empty order e (n := 2) (by decide)
  have h4 := FlatStream.readF_empty order e (n := 4) (by decide)
  have h8 := FlatStream.readF_empty order e (n := 8) (by decide)
  have h32 := FlatStream.readuint_empty order e (w := 32) (by decide)
  have h64 := FlatStream.readuint_empty order e (w := 64) (by decide)
  cases kind with
  | value kind =>
    unfold ByteStore.readItem
    dsimp only
    cases kind with
    | Fint8 => rw [ByteStore.readValue, ByteStore.readFint8, h1]; rfl
    | Fuint8 => rw [ByteStore.readValue, ByteStore.readFuint8, h1]; rfl
    | Fint16 => rw [ByteStore.readValue, ByteStore.readFint16, h2]; rfl
    | Fuint16 => rw [ByteStore.readValue, ByteStore.readFuint16, h2]; rfl
    | Fint32 => rw [ByteStore.readValue, ByteStore.readFint32, h4]; rfl
    | Fuint32 => rw [ByteStore.readValue, ByteStore.readFuint32, h4]; rfl
    | Fint64 => rw [ByteStore.readValue, ByteStore.readFint64, h8]; rfl
    | Fuint64 => rw [ByteStore.readValue, ByteStore.readFuint64, h8]; rfl
    | uint32 => rw [ByteStore.readValue, ByteStore.readuint32, h32]; rfl
    | uint64 => rw [ByteStore.readValue, ByteStore.readuint64, h64]; rfl
    | int32 => rw [ByteStore.readValue, ByteStore.readint32, ByteStore.readuint32, h32]; rfl
  | int64 => rw [ByteStore.readItem, ByteStore.readint64, ByteStore.readuint64, h64]; rfl
  | float => rw [ByteStore.readItem, ByteStore.readFloat, ByteStore.readFuint32, h4]; rfl
  | string format =>
    unfold ByteStore.readItem
    dsimp only
    cases format with
    | F16 =>
      rw [ByteStore.readStringAs, ByteStore.readStringF16, ByteStore.readFuint16, h2]
      rfl
    | F32 =>
      rw [ByteStore.readStringAs, ByteStore.readStringF32, ByteStore.readFuint32, h4]
      rfl
    | F64 =>
      rw [ByteStore.readStringAs, ByteStore.readStringF64, ByteStore.readFuint64, h8]
      rfl
    | Vint =>
      rw [ByteStore.readStringAs, ByteStore.readStringVint, ByteStore.readFuint64, h8]
      rfl

theorem FlatStream.readItems_empty {kinds : List (Op Item.Kind)} {results : List Item.Result}
    {e : Endian} {t' : FlatStream}
    (h : store.readItems order ⟨e, []⟩ kinds = .ok (results, t')) : results = [] := by
  induction kinds generalizing e with
  | nil =>
    injection h with h
    injection h with h
    exact h.symm
  | cons op kinds ih =>
    cases op with
    | setLittleEndian val => exact ih h
    | value kind =>
      unfold ByteStore.readItems at h
      rw [FlatStream.readItem_empty] at h
      cases h

end Empty

theorem ReadsLike.gets_items (h : ReadsLike st R room) (order : Endian) (kinds : List (Op Item.Kind))
    {t t' : FlatStream} {s : σ} {results : List Item.Result} (hR : R t s)
    (hget : FlatStream.store.readItems order t kinds = .ok (results, t'))
    (hlast : room ∨ ∀ result ∈ results.getLast?, ¬ result.IsEmpty)
    : ∃ s', st.readItems order s kinds = .ok (results, s') ∧ R t' s' := by
  induction kinds generalizing t s results with
  | nil =>
    injection hget with heq
    injection heq with hresults ht
    subst hresults ht
    exact ⟨s, rfl, hR⟩
  | cons op kinds ih =>
    cases op with
    | setLittleEndian val => exact ih (h.setEndian (if val then .little else .big) hR) hget hlast
    | value kind =>
      unfold ByteStore.readItems at hget ⊢
      split at hget
      . cases hget
      . next result t₁ hitem =>
        obtain ⟨⟨rest, t₂⟩, hrest, heq⟩ := Except.map_eq_ok hget
        injection heq with hresults ht
        subst hresults ht
        have hready : ¬ result.IsEmpty ∨ t₁.bytes ≠ [] ∨ room := by
          by_cases hbytes : t₁.bytes = []
          . have hnil : rest = [] := by
              obtain ⟨e, bytes⟩ := t₁
              dsimp only at hbytes
              rw [hbytes] at hrest
              exact FlatStream.readItems_empty order hrest
            rcases hlast with hroom | hlast
            . exact .inr (.inr hroom)
            . rw [hnil] at hlast
              exact .inl (hlast result rfl)
          . exact .inr (.inl hbytes)
        have hlast' : room ∨ ∀ result ∈ rest.getLast?, ¬ result.IsEmpty := by
          rcases hlast with hroom | hlast
          . exact .inl hroom
          . right
            intro last hmem
            apply hlast
            rw [List.getLast?_cons]
            rw [Option.mem_def] at *
            rw [hmem]
            rfl
        obtain ⟨s₁, hs₁, hR₁⟩ := h.gets_item order kind hR hitem hready
        obtain ⟨s', hs', hR'⟩ := ih hR₁ hrest hlast'
        rw [hs₁]
        dsimp only
        rw [hs']
        exact ⟨s', rfl, hR'⟩

end Gets

namespace FlatStream

variable (order : Endian)

theorem readsBack_item (item : Item) (hfits : item.Fits)
    : ReadsBack (fun s => store.writeItem order s item)
        (fun s => store.readItem order s item.kind) item.result := by
  cases item with
  | value v => exact (readsBack_value order v).map Item.Result.value
  | int64 v =>
    rw [Item.Fits, ← zigzag64_lt_iff, ← DecodeZigzag64_EncodeZigzag64_iff] at hfits
    exact ((readsBack_int64_iff order v).mpr hfits).map Item.Result.int64
  | float bits =>
    have hback := (readsBack_float order bits).map Item.Result.float
    rw [Item.Fits] at hfits
    rw [hfits] at hback
    exact hback
  | string format value =>
    intro e
    obtain ⟨out, hput, hget⟩ := readStringAs_writeStringAs order format value e
    rw [Item.Fits] at hfits
    rw [Nat.mod_eq_of_lt hfits] at hget
    unfold StdString.size at hget
    rw [List.take_length, List.drop_length] at hget
    refine ⟨out ++ value.bytes, hput, ?_⟩
    intro rest
    change (store.readStringAs order ⟨e, out ++ value.bytes ++ rest⟩ format).map _ = _
    rw [hget]
    rfl

theorem readItems_writeItems (ops : List (Op Item)) (hfits : ∀ item ∈ values ops, item.Fits)
    (e : Endian)
    : ∃ out,
        (∀ bytes, store.writeItems order ⟨e, bytes⟩ ops = .ok ⟨finalEndian e ops, bytes ++ out⟩)
          ∧
        (∀ rest, store.readItems order ⟨e, out ++ rest⟩ (ops.map (.map Item.kind))
          = .ok ((values ops).map Item.result, ⟨finalEndian e ops, rest⟩)) := by
  induction ops generalizing e with
  | nil =>
    refine ⟨[], ?_, ?_⟩
    . intro bytes
      rw [List.append_nil]
      rfl
    . intro rest
      rfl
  | cons op ops ih =>
    cases op with
    | setLittleEndian val => exact ih hfits (if val then .little else .big)
    | value item =>
      rw [values, List.forall_mem_cons] at hfits
      obtain ⟨out₁, hput₁, hget₁⟩ := readsBack_item order item hfits.1 e
      obtain ⟨out₂, hput₂, hget₂⟩ := ih hfits.2 e
      refine ⟨out₁ ++ out₂, ?_, ?_⟩
      . intro bytes
        unfold ByteStore.writeItems
        dsimp only at hput₁
        rw [hput₁]
        dsimp only
        rw [hput₂, List.append_assoc]
        rfl
      . intro rest
        dsimp only at hget₁
        rw [List.map_cons, Op.map]
        unfold ByteStore.readItems
        rw [List.append_assoc, hget₁]
        dsimp only
        rw [hget₂]
        rfl

end FlatStream

namespace ByteArray

/--
What the program does not determine: the content of new nodes, the memory behind a node and the
content of the variables that are read into.
-/
structure Memory where
  fresh : ByteArray → Nat → Nat → UInt8
  beyond : ByteArray → Nat → Nat → UInt8
  uninit : ByteArray → Nat → UInt8

def Memory.store (mem : Memory) : ByteStore ByteArray where
  m_endian := ByteArray.m_endian
  setEndian ba e := { ba with m_endian := e }
  write ba buf := ba.write (mem.fresh ba) buf buf.length
  read ba size :=
    (ba.read (mem.beyond ba) ((List.range size).map (mem.uninit ba)) size).map
      fun (ba, bytes) => (bytes, ba)

theorem WF.setEndian {ba : ByteArray} (h : WF ba) (e : Endian) : WF { ba with m_endian := e } where
  base_pos := h.base_pos
  uniform := h.uniform
  root_pos := h.root_pos
  capacity_eq := h.capacity_eq
  position_le := h.position_le
  size_le := h.size_le
  current_eq := h.current_eq

theorem addCapacity_endian (ba : ByteArray) (fresh : Nat → Nat → UInt8) (size : Nat)
    : (ba.addCapacity fresh size).m_endian = ba.m_endian := by
  unfold addCapacity
  dsimp only
  split
  . rfl
  . split <;> rfl

theorem write_endian {ba ba' : ByteArray} {fresh : Nat → Nat → UInt8} {buf : List UInt8} {size : Nat}
    (h : ba.write fresh buf size = .ok ba') : ba'.m_endian = ba.m_endian := by
  unfold write at h
  split at h
  . injection h with h
    rw [h]
  . dsimp only at h
    split at h
    . cases h
    . split at h
      . cases h
      . split at h
        . cases h
        . injection h with h
          rw [← h]
          exact addCapacity_endian ba fresh size

structure Written (start : ByteArray) (t : FlatStream) (ba : ByteArray) : Prop where
  wf : WF ba
  m_endian : ba.m_endian = t.m_endian
  bytes : ∃ extra, start.m_position + t.bytes.length ≤ (flatten start.m_root ++ extra).length
    ∧ flatten ba.m_root = (flatten start.m_root ++ extra).overwrite start.m_position t.bytes
  m_position : ba.m_position = start.m_position + t.bytes.length
  m_size : ba.m_size = max start.m_size (start.m_position + t.bytes.length)

theorem written_start {ba : ByteArray} (h : WF ba) : Written ba ⟨ba.m_endian, []⟩ ba where
  wf := h
  m_endian := rfl
  bytes := by
    have hle := h.position_le
    have hsize := h.size_le
    have hlen := h.length_flatten
    refine ⟨[], ?_, ?_⟩
    . rw [List.append_nil, List.length_nil]
      omega
    . rw [List.append_nil, List.overwrite_nil]
  m_position := rfl
  m_size := by
    have hle := h.position_le
    rw [List.length_nil]
    omega

theorem FlatArray.write_cases {base_size : Nat} {f f' : FlatArray} {fresh : Nat → Nat → UInt8}
    {buf : List UInt8} (h : FlatArray.Step base_size f (.write fresh buf, .void) f')
    : ∃ extra, f.cursor + buf.length ≤ (f.bytes ++ extra).length
        ∧ f' = ⟨(f.bytes ++ extra).overwrite f.cursor buf, f.cursor + buf.length,
            max f.size (f.cursor + buf.length)⟩ := by
  cases h with
  | write _ _ extra hfit => exact ⟨extra, hfit, rfl⟩

theorem writesLike_store (mem : Memory) (start : ByteArray)
    : WritesLike mem.store (Written start) where
  m_endian h := h.m_endian
  setEndian e h :=
    {
      wf := h.wf.setEndian e
      m_endian := rfl
      bytes := h.bytes
      m_position := h.m_position
      m_size := h.m_size
    }
  write {t s s'} buf h hwrite := by
    obtain ⟨hstep, hwf, -⟩ := write_refines h.wf hwrite
    obtain ⟨extra', hfit', hflat⟩ := FlatArray.write_cases hstep
    obtain ⟨extra, hfit, hbytes⟩ := h.bytes
    have hpos := h.m_position
    have hsize := h.m_size
    unfold flat at hfit' hflat
    dsimp only at hfit' hflat
    rw [FlatArray.mk.injEq, hbytes] at hflat
    rw [hbytes] at hfit'
    obtain ⟨hbytes', hpos', hsize'⟩ := hflat
    have hle : start.m_position ≤ (flatten start.m_root ++ (extra ++ extra')).length := by
      rw [← List.append_assoc, List.length_append]
      omega
    rw [← List.overwrite_append hfit, List.append_assoc] at hbytes' hfit'
    constructor
    . exact hwf
    . rw [write_endian hwrite]
      exact h.m_endian
    . refine ⟨extra ++ extra', ?_, ?_⟩
      . rw [List.length_overwrite (by rw [← List.append_assoc, List.length_append]; omega)] at hfit'
        rw [List.length_append]
        omega
      . rw [hbytes', hpos, List.overwrite_overwrite hle]
    . rw [hpos', hpos, List.length_append]
      omega
    . rw [hsize', hsize, hpos, List.length_append]
      omega

def cursorAt (ba : ByteArray) (p : Nat) (e : Endian) : ByteArray :=
  { ba with
    m_position := p
    m_current := nodeOf ba.m_baseSize ba.m_root.length p
    m_endian := e
  }

theorem WF.cursorAt {ba : ByteArray} (h : WF ba) {p : Nat} (hp : p ≤ ba.m_size) (e : Endian)
    : WF (ba.cursorAt p e) where
  base_pos := h.base_pos
  uniform := h.uniform
  root_pos := h.root_pos
  capacity_eq := h.capacity_eq
  position_le := hp
  size_le := h.size_le
  current_eq := rfl

theorem WF.cursorAt_self {ba : ByteArray} (h : WF ba) : ba.cursorAt ba.m_position ba.m_endian = ba := by
  unfold ByteArray.cursorAt
  rw [← h.current_eq]

theorem setPosition_eq_cursorAt {ba : ByteArray} (h : WF ba) {p : Nat} (hsize : p ≤ ba.m_size)
    (hcap : p < ba.m_capacity) : ba.setPosition p = .ok (ba.cursorAt p ba.m_endian) := by
  have hcapeq := h.capacity_eq
  unfold setPosition
  rw [if_neg (by omega), setPosition.go_eq_ok h.uniform 0 p (by omega)]
  dsimp only
  rw [if_neg (by omega), Nat.zero_add]
  unfold ByteArray.cursorAt nodeOf
  rw [if_neg (by omega)]

def Unread (ba : ByteArray) (last : Nat) (t : FlatStream) (s : ByteArray) : Prop :=
  ∃ p ≤ last, s = ba.cursorAt p t.m_endian ∧ t.bytes = ((flatten ba.m_root).take last).drop p

theorem readsLike_store (mem : Memory) {ba : ByteArray} (hwf : WF ba) {last : Nat}
    (hlast : last ≤ ba.m_size)
    : ReadsLike mem.store (Unread ba last) (last < ba.m_capacity) where
  m_endian := by
    rintro t s ⟨p, -, rfl, -⟩
    rfl
  setEndian := by
    rintro t s e ⟨p, hp, rfl, hbytes⟩
    exact ⟨p, hp, rfl, hbytes⟩
  read := by
    rintro t s n ⟨p, hp, rfl, hbytes⟩ hn hready
    have hsize := hwf.size_le
    have hlen := hwf.length_flatten
    have hleft : t.bytes.length = last - p := by
      rw [hbytes, List.length_drop, List.length_take]
      omega
    have hcap : p < ba.m_capacity := by
      rcases hready with hzero | hnil | hroom
      . omega
      . have hpos := List.length_pos_of_ne_nil hnil
        omega
      . omega
    have hread := read_eq_ok (hwf.cursorAt (by omega : p ≤ ba.m_size) t.m_endian)
      (mem.beyond (ba.cursorAt p t.m_endian))
      ((List.range n).map (mem.uninit (ba.cursorAt p t.m_endian)))
      (by
        rw [List.length_map, List.length_range]
        unfold getReadSize ByteArray.cursorAt
        dsimp only
        omega)
      hcap
    rw [List.length_map, List.length_range] at hread
    have htake : ((flatten ba.m_root).drop p).take n = t.bytes.take n := by
      rw [hbytes, List.drop_take, List.take_take, Nat.min_eq_left (by omega)]
    refine ⟨ba.cursorAt (p + n) t.m_endian, ?_, p + n, by omega, rfl, ?_⟩
    . unfold Memory.store
      dsimp only
      rw [hread]
      unfold ByteArray.cursorAt
      simp only [Except.map, htake]
    . dsimp only
      rw [hbytes, List.drop_drop]

/--
What typed writes put into a reachable array, typed reads from the place where the writes began take
out again. They leave the array as the writes have left it, and the writes have done what one `write`
of all their bytes does.
-/
theorem typed_roundTrip (mem : Memory) (order : Endian) (ba : ByteArray)
    (hreach : lts.Reachable IsNew ba) (ops : List (Op Item)) (hfits : ∀ item ∈ values ops, item.Fits)
    (ba₁ : ByteArray) (hwrite : mem.store.writeItems order ba ops = .ok ba₁)
    (hlast : ba₁.m_position < ba₁.m_capacity
      ∨ ∃ item, (values ops).getLast? = some item ∧ ¬ item.result.IsEmpty)
    : ∃ out extra ba₂,
        flatten ba₁.m_root = (flatten ba.m_root ++ extra).overwrite ba.m_position out
        ∧ ba₁.m_position = ba.m_position + out.length
        ∧ ba₁.m_size = max ba.m_size ba₁.m_position
        ∧ ba₁.setPosition ba.m_position = .ok ba₂
        ∧ mem.store.readItems order (mem.store.setEndian ba₂ ba.m_endian) (ops.map (.map Item.kind))
            = .ok ((values ops).map Item.result, ba₁) := by
  have hwf := reachable_wf hreach
  obtain ⟨out, hput, hget⟩ := FlatStream.readItems_writeItems order ops hfits ba.m_endian
  obtain ⟨t, ht, hwritten⟩ := (writesLike_store mem ba).puts_items ops _ ba ba₁ (written_start hwf) hwrite
  dsimp only at ht
  rw [hput, List.nil_append] at ht
  injection ht with ht
  subst ht
  obtain ⟨extra, hfit, hbytes⟩ := hwritten.bytes
  have hpos := hwritten.m_position
  have hsize := hwritten.m_size
  have hendian := hwritten.m_endian
  have hle₁ := hwritten.wf.size_le
  dsimp only at hfit hbytes hpos hsize hendian
  have hunread : out = ((flatten ba₁.m_root).take ba₁.m_position).drop ba.m_position := by
    have hlen : ((flatten ba.m_root ++ extra).take ba.m_position).length = ba.m_position := by
      rw [List.length_take]
      omega
    rw [hbytes, hpos, List.take_overwrite (by omega), List.drop_left' hlen]
  have hcap : ba.m_position < ba₁.m_capacity := by
    rcases hlast with hroom | ⟨item, hitem, -⟩
    . omega
    . have hout : out ≠ [] := by
        intro hnil
        have hnone := hget []
        rw [hnil, List.append_nil] at hnone
        have hempty := List.map_eq_nil_iff.mp (FlatStream.readItems_empty order hnone)
        rw [hempty] at hitem
        cases hitem
      have hlen := List.length_pos_of_ne_nil hout
      omega
  have hready : ba₁.m_position < ba₁.m_capacity
      ∨ ∀ result ∈ ((values ops).map Item.result).getLast?, ¬ result.IsEmpty := by
    rcases hlast with hroom | ⟨item, hitem, hnonempty⟩
    . exact .inl hroom
    . right
      rw [List.getLast?_map, hitem]
      intro result hresult
      injection hresult with hresult
      rw [← hresult]
      exact hnonempty
  have hstart : Unread ba₁ ba₁.m_position ⟨ba.m_endian, out⟩ (ba₁.cursorAt ba.m_position ba.m_endian) :=
    ⟨ba.m_position, by omega, rfl, hunread⟩
  have hget₀ := hget []
  rw [List.append_nil] at hget₀
  obtain ⟨s', hread, p, hp, hs', hrest⟩ :=
    (readsLike_store mem hwritten.wf (by omega)).gets_items order _ hstart hget₀ hready
  have hs₁ : s' = ba₁ := by
    have hlenflat := hwritten.wf.length_flatten
    have hlen := congrArg List.length hrest
    dsimp only at hlen hs'
    rw [List.length_nil, List.length_drop, List.length_take] at hlen
    have hp₁ : p = ba₁.m_position := by omega
    rw [hs', hp₁, ← hendian]
    exact hwritten.wf.cursorAt_self
  rw [hs₁] at hread
  refine ⟨out, extra, ba₁.cursorAt ba.m_position ba₁.m_endian, hbytes, hpos, by omega, ?_, ?_⟩
  . exact setPosition_eq_cursorAt hwritten.wf (by omega) hcap
  . exact hread

def sampleMemory : Memory where
  fresh _ _ _ := 9
  beyond _ _ _ := 9
  uninit _ _ := 9

def sampleOps : List (Op Item) :=
  [.value (.value (.Fint16 (-2))), .setLittleEndian true, .value (.string .F16 ⟨[104, 105], by decide⟩)]

theorem sampleMemory_write (ba : ByteArray) (buf : List UInt8)
    : sampleMemory.store.write ba buf = ba.write (fun _ _ => 9) buf buf.length :=
  rfl

theorem typed_roundTrip_two_nodes
    : ∃ out extra ba₂,
        [255, 254, 2, 0, 104, 105, 9, 9] = ([9, 9, 9, 9] ++ extra : List UInt8).overwrite 0 out
        ∧ 6 = 0 + out.length
        ∧ 6 = max 0 6
        ∧ (⟨6, 8, 4, 6, .little, [⟨4, [255, 254, 2, 0], rfl⟩, ⟨4, [104, 105, 9, 9], rfl⟩], some 1⟩
            : ByteArray).setPosition 0 = .ok ba₂
        ∧ sampleMemory.store.readItems .little (sampleMemory.store.setEndian ba₂ .big)
            [.value (.value .Fint16), .setLittleEndian true, .value (.string .F16)]
          = .ok ([.value (.Fint16 (-2)), .string [104, 105]],
              ⟨6, 8, 4, 6, .little, [⟨4, [255, 254, 2, 0], rfl⟩, ⟨4, [104, 105, 9, 9], rfl⟩], some 1⟩) := by
  have hwrite : sampleMemory.store.writeItems .little (new 4 fun _ => 9) sampleOps
      = .ok ⟨6, 8, 4, 6, .little, [⟨4, [255, 254, 2, 0], rfl⟩, ⟨4, [104, 105, 9, 9], rfl⟩], some 1⟩ := by
    have hnumber : sampleMemory.store.writeItem .little (new 4 fun _ => 9) (.value (.Fint16 (-2)))
        = .ok ⟨2, 4, 4, 2, .big, [⟨4, [255, 254, 9, 9], rfl⟩], some 0⟩ := by
      have hbytes : Endian.load (n := 2) .little (byteswap (n := 2) (-2 : Int16).toBitVec)
          = [255, 254] := by
        decide
      have hswap : sampleMemory.store.m_endian (new 4 fun _ => 9) ≠ .little := by decide
      unfold ByteStore.writeItem ByteStore.writeValue ByteStore.writeFint16 ByteStore.writeF
      dsimp only
      rw [if_pos hswap, hbytes, sampleMemory_write]
      simp [write, write.go, addCapacity, getCapacity, new, Node.new, Node.store, List.overwrite,
        List.range, List.range.loop]
    have hlength : sampleMemory.store.write
        ⟨2, 4, 4, 2, .little, [⟨4, [255, 254, 9, 9], rfl⟩], some 0⟩ [2, 0]
        = .ok ⟨4, 4, 4, 4, .little, [⟨4, [255, 254, 2, 0], rfl⟩], none⟩ := by
      rw [sampleMemory_write]
      simp [write, write.go, addCapacity, getCapacity, Node.store, List.overwrite, next]
    have hpayload : sampleMemory.store.write
        ⟨4, 4, 4, 4, .little, [⟨4, [255, 254, 2, 0], rfl⟩], none⟩ [104, 105]
        = .ok ⟨6, 8, 4, 6, .little,
            [⟨4, [255, 254, 2, 0], rfl⟩, ⟨4, [104, 105, 9, 9], rfl⟩], some 1⟩ := by
      rw [sampleMemory_write]
      simp [write, write.go, addCapacity, getCapacity, Node.new, Node.store, List.overwrite, List.range,
        List.range.loop]
    have hstring : sampleMemory.store.writeItem .little
        ⟨2, 4, 4, 2, .little, [⟨4, [255, 254, 9, 9], rfl⟩], some 0⟩
        (.string .F16 ⟨[104, 105], by decide⟩)
        = .ok ⟨6, 8, 4, 6, .little, [⟨4, [255, 254, 2, 0], rfl⟩, ⟨4, [104, 105, 9, 9], rfl⟩],
            some 1⟩ := by
      have hbytes : Endian.load (n := 2) .little (UInt16.ofNat 2).toBitVec = [2, 0] := by
        decide
      unfold ByteStore.writeItem ByteStore.writeStringAs ByteStore.writeStringF16
        ByteStore.writeFuint16 ByteStore.writeF StdString.size
      dsimp only
      rw [if_neg (fun h => h rfl)]
      change sampleMemory.store.writePayload _ (sampleMemory.store.write _
        (Endian.load (n := 2) .little (UInt16.ofNat 2).toBitVec)) = _
      rw [hbytes, hlength]
      exact hpayload
    unfold sampleOps ByteStore.writeItems
    rw [hnumber]
    change sampleMemory.store.writeItems .little
      ⟨2, 4, 4, 2, .little, [⟨4, [255, 254, 9, 9], rfl⟩], some 0⟩ [.value _] = _
    unfold ByteStore.writeItems
    rw [hstring]
    rfl
  have hfits : ∀ item ∈ values sampleOps, item.Fits := by
    unfold sampleOps values values values values
    rw [List.forall_mem_cons, List.forall_mem_singleton]
    refine ⟨trivial, ?_⟩
    unfold Item.Fits StdString.size StringFormat.width
    decide
  exact typed_roundTrip sampleMemory .little (new 4 fun _ => 9)
    ⟨_, [], ⟨4, fun _ => 9, by decide, rfl⟩, .nil _⟩ sampleOps hfits _ hwrite
    (.inl (by decide))

end ByteArray

end CXS
