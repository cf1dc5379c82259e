import CXS.ByteArray.RoundTrip

namespace CXS

structure StdString where
  bytes : List UInt8
  hsize : bytes.length < 2 ^ 64

def StdString.size (value : StdString) : Nat :=
  value.bytes.length

namespace ByteStore

variable {σ : Type} (st : ByteStore σ) (order : Endian)

section Write

variable (s : σ) (value : StdString)

def writePayload (written : Except ByteArray.Fault σ) : Except ByteArray.Fault σ :=
  match written with
  | .error e => .error e
  | .ok s => st.write s value.bytes

def writeStringF16 : Except ByteArray.Fault σ :=
  st.writePayload value (st.writeFuint16 order s (UInt16.ofNat value.size))

def writeStringF32 : Except ByteArray.Fault σ :=
  st.writePayload value (st.writeFuint32 order s (UInt32.ofNat value.size))

def writeStringF64 : Except ByteArray.Fault σ :=
  st.writePayload value (st.writeFuint64 order s (UInt64.ofNat value.size))

def writeStringVint : Except ByteArray.Fault σ :=
  st.writePayload value (st.writeFuint64 order s (UInt64.ofNat value.size))

end Write

section Read

variable (s : σ)

def readPayload (length : Except ByteArray.Fault (Nat × σ))
    : Except ByteArray.Fault (List UInt8 × σ) :=
  match length with
  | .error e => .error e
  | .ok (len, s) => st.read s len

def readStringF16 : Except ByteArray.Fault (List UInt8 × σ) :=
  st.readPayload ((st.readFuint16 order s).map fun (len, s) => (len.toNat, s))

def readStringF32 : Except ByteArray.Fault (List UInt8 × σ) :=
  st.readPayload ((st.readFuint32 order s).map fun (len, s) => (len.toNat, s))

def readStringF64 : Except ByteArray.Fault (List UInt8 × σ) :=
  st.readPayload ((st.readFuint64 order s).map fun (len, s) => (len.toNat, s))

def readStringVint : Except ByteArray.Fault (List UInt8 × σ) :=
  st.readPayload ((st.readFuint64 order s).map fun (len, s) => (len.toNat, s))

end Read

inductive StringFormat where
  | F16
  | F32
  | F64
  | Vint
  deriving DecidableEq, Repr

def StringFormat.width : StringFormat → Nat
  | .F16 => 16
  | .F32 => 32
  | .F64 => 64
  | .Vint => 64

def writeStringAs (s : σ) (value : StdString) : StringFormat → Except ByteArray.Fault σ
  | .F16 => st.writeStringF16 order s value
  | .F32 => st.writeStringF32 order s value
  | .F64 => st.writeStringF64 order s value
  | .Vint => st.writeStringVint order s value

def readStringAs (s : σ) : StringFormat → Except ByteArray.Fault (List UInt8 × σ)
  | .F16 => st.readStringF16 order s
  | .F32 => st.readStringF32 order s
  | .F64 => st.readStringF64 order s
  | .Vint => st.readStringVint order s

def writeStrings (s : σ) (strings : List (StringFormat × StdString)) : Except ByteArray.Fault σ :=
  writeEach (fun s entry => st.writeStringAs order s entry.2 entry.1) s strings

def readStrings (s : σ) : List StringFormat → Except ByteArray.Fault (List (List UInt8) × σ)
  | [] => .ok ([], s)
  | format :: formats =>
    match st.readStringAs order s format with
    | .error e => .error e
    | .ok (value, s) => (readStrings s formats).map fun (values, s) => (value :: values, s)

end ByteStore

namespace FlatStream

open ByteStore (StringFormat)

variable (order : Endian)

theorem readsBack_payload {put : FlatStream → Except ByteArray.Fault FlatStream}
    {get : FlatStream → Except ByteArray.Fault (Nat × FlatStream)} {len : Nat}
    (h : ReadsBack put get len) (value : StdString) (hlen : len ≤ value.size) (e : Endian)
    : ∃ out,
        Appends (fun s => store.writePayload value (put s)) e (out ++ value.bytes)
          ∧
        (∀ rest, store.readPayload (get ⟨e, out ++ value.bytes ++ rest⟩)
          = .ok (value.bytes.take len, ⟨e, value.bytes.drop len ++ rest⟩)) := by
  obtain ⟨out, hput, hget⟩ := h e
  unfold StdString.size at hlen
  refine ⟨out, ?_, ?_⟩
  . intro bytes
    dsimp only
    rw [hput, ← List.append_assoc]
    rfl
  . intro rest
    have hread : store.read ⟨e, value.bytes ++ rest⟩ len
        = read ⟨e, value.bytes ++ rest⟩ len := rfl
    rw [List.append_assoc, hget]
    unfold ByteStore.readPayload
    dsimp only
    rw [hread]
    unfold read
    rw [if_neg (by dsimp only; rw [List.length_append]; omega)]
    rw [List.take_append_of_le_length hlen, List.drop_append_of_le_length hlen]

theorem readStringAs_writeStringAs (format : StringFormat) (value : StdString) (e : Endian)
    : ∃ out,
        Appends (fun s => store.writeStringAs order s value format) e (out ++ value.bytes)
          ∧
        (∀ rest, store.readStringAs order ⟨e, out ++ value.bytes ++ rest⟩ format
          = .ok (value.bytes.take (value.size % 2 ^ format.width),
              ⟨e, value.bytes.drop (value.size % 2 ^ format.width) ++ rest⟩)) := by
  have hlen : value.size % 2 ^ format.width ≤ value.size := Nat.mod_le _ _
  cases format with
  | F16 =>
    have h := (((readsBack_F order (n := 2) (UInt16.ofNat value.size).toBitVec).map
      UInt16.ofBitVec).map UInt16.toNat)
    exact readsBack_payload h value hlen e
  | F32 =>
    have h := (((readsBack_F order (n := 4) (UInt32.ofNat value.size).toBitVec).map
      UInt32.ofBitVec).map UInt32.toNat)
    exact readsBack_payload h value hlen e
  | F64 =>
    have h := (((readsBack_F order (n := 8) (UInt64.ofNat value.size).toBitVec).map
      UInt64.ofBitVec).map UInt64.toNat)
    exact readsBack_payload h value hlen e
  | Vint =>
    have h := (((readsBack_F order (n := 8) (UInt64.ofNat value.size).toBitVec).map
      UInt64.ofBitVec).map UInt64.toNat)
    exact readsBack_payload h value hlen e

/--
What is written does not depend on what is there, and reading takes exactly that away again and
returns the same strings.
-/
def StringsReadBack (strings : List (StringFormat × StdString)) : Prop :=
  ∀ e, ∃ out,
    Appends (fun s => store.writeStrings order s strings) e out
      ∧
    (∀ rest, store.readStrings order ⟨e, out ++ rest⟩ (strings.map Prod.fst)
      = .ok (strings.map fun (_, value) => value.bytes, ⟨e, rest⟩))

section Strings

variable {order} {format : StringFormat} {value : StdString}
  {strings : List (StringFormat × StdString)}

theorem stringsReadBack_nil : StringsReadBack order [] := by
  intro e
  refine ⟨[], writeEach_nil, ?_⟩
  intro rest
  rfl

theorem stringsReadBack_cons (hfit : value.size < 2 ^ format.width)
    (h : StringsReadBack order strings) : StringsReadBack order ((format, value) :: strings) := by
  intro e
  obtain ⟨out₁, hput₁, hget₁⟩ := readStringAs_writeStringAs order format value e
  obtain ⟨out₂, hput₂, hget₂⟩ := h e
  rw [Nat.mod_eq_of_lt hfit] at hget₁
  unfold StdString.size at hget₁
  rw [List.take_length, List.drop_length] at hget₁
  refine ⟨out₁ ++ value.bytes ++ out₂, writeEach_cons hput₁ hput₂, ?_⟩
  intro rest
  rw [List.map_cons, List.map_cons]
  unfold ByteStore.readStrings
  rw [List.append_assoc _ out₂, hget₁]
  dsimp only
  rw [List.nil_append, hget₂]
  rfl

theorem readStrings_of_stringsReadBack_cons
    (h : StringsReadBack order ((format, value) :: strings)) (e : Endian)
    : ∃ out, Appends (fun s => store.writeStrings order s strings) e out
        ∧ ∀ rest, value.bytes.take (value.size % 2 ^ format.width) = value.bytes
          ∧ store.readStrings order
              ⟨e, value.bytes.drop (value.size % 2 ^ format.width) ++ (out ++ rest)⟩
              (strings.map Prod.fst)
            = .ok (strings.map fun (_, value) => value.bytes, ⟨e, rest⟩) := by
  obtain ⟨out, hput, hget⟩ := h e
  obtain ⟨out₁, hput₁, hget₁⟩ := readStringAs_writeStringAs order format value e
  obtain ⟨out₂, hput₂⟩ := writeEach_appends
    (fun entry => (readStringAs_writeStringAs order entry.1 entry.2 e).imp'
      (fun out => out ++ entry.2.bytes) fun _ h => h.1) strings
  have hout : out = out₁ ++ value.bytes ++ out₂ := hput.unique (writeEach_cons hput₁ hput₂)
  refine ⟨out₂, hput₂, ?_⟩
  intro rest
  have hread := hget rest
  rw [hout, List.append_assoc _ out₂, List.map_cons, List.map_cons] at hread
  unfold ByteStore.readStrings at hread
  rw [hget₁] at hread
  dsimp only at hread
  obtain ⟨⟨values, s⟩, htail, heq⟩ := Except.map_eq_ok hread
  injection heq with hvalues hs
  injection hvalues with hhead hvalues
  dsimp only at hvalues hs
  rw [hvalues, hs] at htail
  exact ⟨hhead, htail⟩

theorem stringsReadBack_cons_inv (h : StringsReadBack order ((format, value) :: strings))
    : value.size < 2 ^ format.width ∧ StringsReadBack order strings := by
  have hfit : value.size < 2 ^ format.width := by
    obtain ⟨out, -, hread⟩ := readStrings_of_stringsReadBack_cons h .little
    have hlen := congrArg List.length (hread []).1
    have hmod := Nat.mod_lt value.size (Nat.two_pow_pos format.width)
    rw [List.length_take] at hlen
    unfold StdString.size at *
    omega
  refine ⟨hfit, ?_⟩
  intro e
  obtain ⟨out, hput, hread⟩ := readStrings_of_stringsReadBack_cons h e
  refine ⟨out, hput, ?_⟩
  intro rest
  have htail := (hread rest).2
  rw [Nat.mod_eq_of_lt hfit] at htail
  unfold StdString.size at htail
  rw [List.drop_length, List.nil_append] at htail
  exact htail

end Strings

theorem stringsReadBack_iff (strings : List (StringFormat × StdString))
    : StringsReadBack order strings
        ↔ ∀ entry ∈ strings, entry.2.size < 2 ^ entry.1.width := by
  induction strings with
  | nil =>
    constructor
    . intro _ entry hentry
      cases hentry
    . intro _
      apply stringsReadBack_nil
  | cons entry strings ih =>
    rw [List.forall_mem_cons, ← ih]
    constructor
    . apply stringsReadBack_cons_inv
    . intro ⟨hfit, hrest⟩
      exact stringsReadBack_cons hfit hrest

def longString : StdString where
  bytes := List.replicate 65536 7
  hsize := by
    rw [List.length_replicate]
    decide

theorem stringsReadBack_long_F16 : ¬ StringsReadBack .little [(.F16, longString)] := by
  intro h
  have hfit := (stringsReadBack_cons_inv h).1
  unfold longString StdString.size StringFormat.width at hfit
  rw [List.length_replicate] at hfit
  exact absurd hfit (by decide)

end FlatStream

end CXS
