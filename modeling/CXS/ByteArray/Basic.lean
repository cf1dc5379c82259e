import CXS.Util.Chunks

/-!
This module contains the data model of `ByteArray` from `code/bytearray.h`: a byte buffer that is
stored in a chain of equally sized nodes and carries a cursor.

The chain that starts at `m_root` is a list of nodes, so a `Node *` is a place in that list or `none`
for the null pointer, and `next` follows from the place. A `Fault` is a way in which a member
function does not return normally: it throws `std::out_of_range`, it follows a null `Node *`, or a
`memcpy` into a node runs past the end of its `data`. The content of a new node is whatever `content`
says, and `load` takes what stands behind the end of `data` from `beyond`.
-/

namespace CXS

inductive ByteArray.Fault where
  | outOfRange
  | nullNode
  | overrun
  deriving DecidableEq, Repr

inductive Endian where
  | little
  | big
  deriving DecidableEq, Repr

structure Node where
  size : Nat
  data : List UInt8
  hsize : data.length = size
  deriving DecidableEq, Repr

namespace Node

def new (s : Nat) (content : Nat → UInt8) : Node where
  size := s
  data := (List.range s).map content
  hsize := by simp

def store (node : Node) (npos : Nat) (bytes : List UInt8) : Except ByteArray.Fault Node :=
  if h : npos + bytes.length ≤ node.size then
    .ok
      {
        size := node.size
        data := node.data.overwrite npos bytes
        hsize := by rw [List.length_overwrite (by rw [node.hsize]; exact h), node.hsize]
      }
  else
    .error .overrun

def load (node : Node) (beyond : Nat → UInt8) (npos len : Nat) : List UInt8 :=
  ((node.data ++ (List.range len).map beyond).drop npos).take len

end Node

structure ByteArray where
  m_position : Nat
  m_capacity : Nat
  m_baseSize : Nat
  m_size : Nat
  m_endian : Endian
  m_root : List Node
  m_current : Option Nat
  deriving DecidableEq, Repr

namespace ByteArray

def new (base_size : Nat) (content : Nat → UInt8) : ByteArray where
  m_position := 0
  m_capacity := base_size
  m_baseSize := base_size
  m_size := 0
  m_endian := .big
  m_root := [Node.new base_size content]
  m_current := some 0

def getPosition (ba : ByteArray) : Nat :=
  ba.m_position

def getReadSize (ba : ByteArray) : Nat :=
  ba.m_size - ba.m_position

def getCapacity (ba : ByteArray) : Nat :=
  ba.m_capacity - ba.m_position

def next (chain : List Node) (i : Nat) : Option Nat :=
  if i + 1 < chain.length then some (i + 1) else none

def flatten (chain : List Node) : List UInt8 :=
  (chain.map Node.data).flatten

end ByteArray

end CXS
