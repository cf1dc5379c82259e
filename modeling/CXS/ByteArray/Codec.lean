import CXS.ByteArray.Basic
import CXS.Util.Bytes

/-!
This module contains the typed member functions of `ByteArray` from `code/bytearray.cc`: the fixed
width integers, the varints and the zigzag varints, with `byteswap` from `code/endian.h`.

They move all their bytes through `write` and `read` and look at `m_endian`, and that is what a
`ByteStore` has. `order` is `CXS_BYTE_ORDER`, the byte order of the host: the bytes that `write` finds
behind `&value` are those of the value in that order. Signed arithmetic wraps.
-/

namespace CXS

structure ByteStore (σ : Type) where
  m_endian : σ → Endian
  setEndian : σ → Endian → σ
  write : σ → List UInt8 → Except ByteArray.Fault σ
  read : σ → Nat → Except ByteArray.Fault (List UInt8 × σ)

def byteswap {n : Nat} (value : BitVec (8 * n)) : BitVec (8 * n) :=
  BitVec.ofNat (8 * n) (ofBytes (bytesOf n value.toNat).reverse)

def Endian.load {n : Nat} (order : Endian) (value : BitVec (8 * n)) : List UInt8 :=
  match order with
  | .little => bytesOf n value.toNat
  | .big => (bytesOf n value.toNat).reverse

def Endian.store {n : Nat} (order : Endian) (bytes : List UInt8) : BitVec (8 * n) :=
  match order with
  | .little => BitVec.ofNat (8 * n) (ofBytes bytes)
  | .big => BitVec.ofNat (8 * n) (ofBytes bytes.reverse)

def EncodeZigzag32 (v : Int32) : UInt32 :=
  if v < 0 then
    (-v).toUInt32 * 2 - 1
  else
    (v * 2).toUInt32

def DecodeZigzag32 (v : UInt32) : Int32 :=
  ((v >>> 1) ^^^ (-(v &&& 1))).toInt32

namespace ByteStore

variable {σ : Type} (st : ByteStore σ) (order : Endian)

def setLittleEndian (s : σ) (val : Bool) : σ :=
  st.setEndian s (if val then .little else .big)

section Write

variable (s : σ)

def writeFint8 (value : Int8) : Except ByteArray.Fault σ :=
  st.write s (order.load (n := 1) value.toBitVec)

def writeFuint8 (value : UInt8) : Except ByteArray.Fault σ :=
  st.write s (order.load (n := 1) value.toBitVec)

def writeF {n : Nat} (value : BitVec (8 * n)) : Except ByteArray.Fault σ :=
  let value := if st.m_endian s ≠ order then byteswap value else value
  st.write s (order.load value)

def writeFint16 (value : Int16) : Except ByteArray.Fault σ :=
  st.writeF order s (n := 2) value.toBitVec

def writeFuint16 (value : UInt16) : Except ByteArray.Fault σ :=
  st.writeF order s (n := 2) value.toBitVec

def writeFint32 (value : Int32) : Except ByteArray.Fault σ :=
  st.writeF order s (n := 4) value.toBitVec

def writeFuint32 (value : UInt32) : Except ByteArray.Fault σ :=
  st.writeF order s (n := 4) value.toBitVec

def writeFint64 (value : Int64) : Except ByteArray.Fault σ :=
  st.writeF order s (n := 8) value.toBitVec

def writeFuint64 (value : UInt64) : Except ByteArray.Fault σ :=
  st.writeF order s (n := 8) value.toBitVec

-- the bytes put into `tmp`, which has room for `space` more of them
def varint {w : Nat} (space : Nat) (value : BitVec w) : Except ByteArray.Fault (List UInt8) :=
  match space with
  | 0 => .error .overrun
  | space + 1 =>
    if value ≥ 0x80#w then
      (varint space (value >>> 7)).map
        (UInt8.ofBitVec ((value &&& 0x7f#w ||| 0x80#w).setWidth 8) :: ·)
    else
      .ok [UInt8.ofBitVec (value.setWidth 8)]

def writeuint {w : Nat} (space : Nat) (value : BitVec w) : Except ByteArray.Fault σ :=
  match varint space value with
  | .error e => .error e
  | .ok tmp => st.write s tmp

def writeuint32 (value : UInt32) : Except ByteArray.Fault σ :=
  st.writeuint s 5 value.toBitVec

def writeuint64 (value : UInt64) : Except ByteArray.Fault σ :=
  st.writeuint s 10 value.toBitVec

def writeint32 (value : Int32) : Except ByteArray.Fault σ :=
  st.writeuint32 s (EncodeZigzag32 value)

end Write

section Read

variable (s : σ)

def readFint8 : Except ByteArray.Fault (Int8 × σ) :=
  (st.read s 1).map fun (bytes, s) => (Int8.ofBitVec (order.store (n := 1) bytes), s)

-- `v` is declared as an `int8_t` here too
def readFuint8 : Except ByteArray.Fault (UInt8 × σ) :=
  (st.read s 1).map fun (bytes, s) => ((Int8.ofBitVec (order.store (n := 1) bytes)).toUInt8, s)

def readF (n : Nat) : Except ByteArray.Fault (BitVec (8 * n) × σ) :=
  (st.read s n).map fun (bytes, s) =>
    let v := order.store bytes
    (if st.m_endian s = order then v else byteswap v, s)

def readFint16 : Except ByteArray.Fault (Int16 × σ) :=
  (st.readF order s 2).map fun (v, s) => (Int16.ofBitVec v, s)

def readFuint16 : Except ByteArray.Fault (UInt16 × σ) :=
  (st.readF order s 2).map fun (v, s) => (UInt16.ofBitVec v, s)

def readFint32 : Except ByteArray.Fault (Int32 × σ) :=
  (st.readF order s 4).map fun (v, s) => (Int32.ofBitVec v, s)

def readFuint32 : Except ByteArray.Fault (UInt32 × σ) :=
  (st.readF order s 4).map fun (v, s) => (UInt32.ofBitVec v, s)

def readFint64 : Except ByteArray.Fault (Int64 × σ) :=
  (st.readF order s 8).map fun (v, s) => (Int64.ofBitVec v, s)

def readFuint64 : Except ByteArray.Fault (UInt64 × σ) :=
  (st.readF order s 8).map fun (v, s) => (UInt64.ofBitVec v, s)

def readuint (w : Nat) : Except ByteArray.Fault (BitVec w × σ) :=
  go 0 0#w s
where
  go (i : Nat) (result : BitVec w) (s : σ) : Except ByteArray.Fault (BitVec w × σ) :=
    if i < w then
      match st.readFuint8 order s with
      | .error e => .error e
      | .ok (b, s) =>
        if b < 0x80 then
          .ok (result ||| b.toBitVec.setWidth w <<< i, s)
        else
          go (i + 7) (result ||| (b &&& 0x7f).toBitVec.setWidth w <<< i) s
    else
      .ok (result, s)
  termination_by w - i

def readuint32 : Except ByteArray.Fault (UInt32 × σ) :=
  (st.readuint order s 32).map fun (v, s) => (UInt32.ofBitVec v, s)

def readuint64 : Except ByteArray.Fault (UInt64 × σ) :=
  (st.readuint order s 64).map fun (v, s) => (UInt64.ofBitVec v, s)

def readint32 : Except ByteArray.Fault (Int32 × σ) :=
  (st.readuint32 order s).map fun (v, s) => (DecodeZigzag32 v, s)

end Read

inductive Value where
  | Fint8 (v : Int8)
  | Fuint8 (v : UInt8)
  | Fint16 (v : Int16)
  | Fuint16 (v : UInt16)
  | Fint32 (v : Int32)
  | Fuint32 (v : UInt32)
  | Fint64 (v : Int64)
  | Fuint64 (v : UInt64)
  | uint32 (v : UInt32)
  | uint64 (v : UInt64)
  | int32 (v : Int32)
  deriving DecidableEq

inductive Kind where
  | Fint8
  | Fuint8
  | Fint16
  | Fuint16
  | Fint32
  | Fuint32
  | Fint64
  | Fuint64
  | uint32
  | uint64
  | int32
  deriving DecidableEq, Repr

def Value.kind : Value → Kind
  | .Fint8 _ => .Fint8
  | .Fuint8 _ => .Fuint8
  | .Fint16 _ => .Fint16
  | .Fuint16 _ => .Fuint16
  | .Fint32 _ => .Fint32
  | .Fuint32 _ => .Fuint32
  | .Fint64 _ => .Fint64
  | .Fuint64 _ => .Fuint64
  | .uint32 _ => .uint32
  | .uint64 _ => .uint64
  | .int32 _ => .int32

def writeValue (s : σ) : Value → Except ByteArray.Fault σ
  | .Fint8 v => st.writeFint8 order s v
  | .Fuint8 v => st.writeFuint8 order s v
  | .Fint16 v => st.writeFint16 order s v
  | .Fuint16 v => st.writeFuint16 order s v
  | .Fint32 v => st.writeFint32 order s v
  | .Fuint32 v => st.writeFuint32 order s v
  | .Fint64 v => st.writeFint64 order s v
  | .Fuint64 v => st.writeFuint64 order s v
  | .uint32 v => st.writeuint32 s v
  | .uint64 v => st.writeuint64 s v
  | .int32 v => st.writeint32 s v

def readValue (s : σ) : Kind → Except ByteArray.Fault (Value × σ)
  | .Fint8 => (st.readFint8 order s).map fun (v, s) => (.Fint8 v, s)
  | .Fuint8 => (st.readFuint8 order s).map fun (v, s) => (.Fuint8 v, s)
  | .Fint16 => (st.readFint16 order s).map fun (v, s) => (.Fint16 v, s)
  | .Fuint16 => (st.readFuint16 order s).map fun (v, s) => (.Fuint16 v, s)
  | .Fint32 => (st.readFint32 order s).map fun (v, s) => (.Fint32 v, s)
  | .Fuint32 => (st.readFuint32 order s).map fun (v, s) => (.Fuint32 v, s)
  | .Fint64 => (st.readFint64 order s).map fun (v, s) => (.Fint64 v, s)
  | .Fuint64 => (st.readFuint64 order s).map fun (v, s) => (.Fuint64 v, s)
  | .uint32 => (st.readuint32 order s).map fun (v, s) => (.uint32 v, s)
  | .uint64 => (st.readuint64 order s).map fun (v, s) => (.uint64 v, s)
  | .int32 => (st.readint32 order s).map fun (v, s) => (.int32 v, s)

inductive Op (α : Type) where
  | setLittleEndian (val : Bool)
  | value (a : α)
  deriving DecidableEq, Repr

def Op.map {α β : Type} (f : α → β) : Op α → Op β
  | .setLittleEndian val => .setLittleEndian val
  | .value a => .value (f a)

def values {α : Type} : List (Op α) → List α
  | [] => []
  | .setLittleEndian _ :: ops => values ops
  | .value a :: ops => a :: values ops

def writeEach {α : Type} (put : σ → α → Except ByteArray.Fault σ) (s : σ)
    : List α → Except ByteArray.Fault σ
  | [] => .ok s
  | a :: as =>
    match put s a with
    | .error e => .error e
    | .ok s => writeEach put s as

def writeAll (s : σ) : List (Op Value) → Except ByteArray.Fault σ
  | [] => .ok s
  | .setLittleEndian val :: ops => writeAll (st.setLittleEndian s val) ops
  | .value v :: ops =>
    match st.writeValue order s v with
    | .error e => .error e
    | .ok s => writeAll s ops

def readAll (s : σ) : List (Op Kind) → Except ByteArray.Fault (List Value × σ)
  | [] => .ok ([], s)
  | .setLittleEndian val :: ops => readAll (st.setLittleEndian s val) ops
  | .value k :: ops =>
    match st.readValue order s k with
    | .error e => .error e
    | .ok (v, s) => (readAll s ops).map fun (vs, s) => (v :: vs, s)

end ByteStore

structure FlatStream where
  m_endian : Endian
  bytes : List UInt8
  deriving DecidableEq, Repr

namespace FlatStream

def write (s : FlatStream) (buf : List UInt8) : Except ByteArray.Fault FlatStream :=
  .ok { s with bytes := s.bytes ++ buf }

def read (s : FlatStream) (size : Nat) : Except ByteArray.Fault (List UInt8 × FlatStream) :=
  if size > s.bytes.length then
    .error .outOfRange
  else
    .ok (s.bytes.take size, { s with bytes := s.bytes.drop size })

def store : ByteStore FlatStream where
  m_endian := FlatStream.m_endian
  setEndian s e := { s with m_endian := e }
  write := write
  read := read

end FlatStream

end CXS
