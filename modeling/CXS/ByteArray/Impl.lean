import CXS.ByteArray.Basic
import CXS.Util.LTS

/-!
This module contains the member functions of `ByteArray` from `code/bytearray.cc` that move bytes in
and out of the chain of nodes. Every function takes what the program does not determine as an
argument: `fresh` is the content of newly allocated nodes, `beyond` the content of the memory behind
the end of a node.

`write` and `read` keep the cursor, `readAt` is the `const` overload of `read` with a position and
`copyOut` is the loop of both overloads. A `Call` is a call of a public member function with a buffer
of the size it asks for, and the runs of `lts` are the sequences of calls that all return normally.
-/

namespace CXS
namespace ByteArray

def clear (ba : ByteArray) : ByteArray :=
  { ba with
    m_position := 0
    m_size := 0
    m_capacity := ba.m_baseSize
    m_root := ba.m_root.take 1
    m_current := some 0
  }

def addCapacity (ba : ByteArray) (fresh : Nat → Nat → UInt8) (size : Nat) : ByteArray :=
  if size = 0 then
    ba
  else
    let old_cap := ba.getCapacity
    if size ≤ old_cap then
      ba
    else
      let size := size - old_cap
      let count := size / ba.m_baseSize + (if size % ba.m_baseSize > old_cap then 1 else 0)
      let first := if 0 < count then some ba.m_root.length else none
      { ba with
        m_root := ba.m_root ++ (List.range count).map (fun i => Node.new ba.m_baseSize (fresh i))
        m_capacity := ba.m_capacity + count * ba.m_baseSize
        m_current := if old_cap = 0 then first else ba.m_current
      }

def write (ba : ByteArray) (fresh : Nat → Nat → UInt8) (buf : List UInt8) (size : Nat)
    : Except Fault ByteArray :=
  if size = 0 then
    .ok ba
  else
    let ba := ba.addCapacity fresh size
    let npos := ba.m_position % ba.m_baseSize
    match ba.m_current with
    | none => .error .nullNode
    | some i =>
      match ba.m_root[i]? with
      | none => .error .nullNode
      | some cur =>
        match go ba.m_root buf i size npos (cur.size - npos) 0 ba.m_position with
        | .error e => .error e
        | .ok (chain, cur, position) =>
          .ok { ba with
            m_root := chain
            m_current := cur
            m_position := position
            m_size := if position > ba.m_size then position else ba.m_size
          }
where
  go (chain : List Node) (buf : List UInt8) (i size npos ncap bpos position : Nat)
      : Except Fault (List Node × Option Nat × Nat) :=
    if size = 0 then
      .ok (chain, some i, position)
    else
      match chain[i]? with
      | none => .error .nullNode
      | some cur =>
        if ncap ≥ size then
          match cur.store npos ((buf.drop bpos).take size) with
          | .error e => .error e
          | .ok cur' =>
            let ptr := if cur.size = npos + size then next chain i else some i
            .ok (chain.set i cur', ptr, position + size)
        else
          match cur.store npos ((buf.drop bpos).take ncap) with
          | .error e => .error e
          | .ok cur' =>
            if h : i + 1 < chain.length then
              go (chain.set i cur') buf (i + 1) (size - ncap) 0 chain[i + 1].size (bpos + ncap)
                (position + ncap)
            else
              .error .nullNode
  termination_by chain.length - i
  decreasing_by
    rw [List.length_set]
    omega

def copyOut (chain : List Node) (beyond : Nat → Nat → UInt8) (buf : List UInt8)
    (i size npos ncap bpos position : Nat) : Except Fault (List UInt8 × Option Nat × Nat) :=
  if size = 0 then
    .ok (buf, some i, position)
  else
    match chain[i]? with
    | none => .error .nullNode
    | some cur =>
      -- both branches copy `size` bytes, also when the node has only `ncap` of them left
      let buf := buf.overwrite bpos (cur.load (beyond i) npos size)
      if ncap ≥ size then
        .ok (buf, if cur.size = npos + size then next chain i else some i, position + size)
      else
        if h : i + 1 < chain.length then
          copyOut chain beyond buf (i + 1) (size - ncap) 0 chain[i + 1].size (bpos + ncap)
            (position + ncap)
        else
          .error .nullNode
termination_by chain.length - i

def read (ba : ByteArray) (beyond : Nat → Nat → UInt8) (buf : List UInt8) (size : Nat)
    : Except Fault (ByteArray × List UInt8) :=
  if size > ba.getReadSize then
    .error .outOfRange
  else
    let npos := ba.m_position % ba.m_baseSize
    match ba.m_current with
    | none => .error .nullNode
    | some i =>
      match ba.m_root[i]? with
      | none => .error .nullNode
      | some cur =>
        match copyOut ba.m_root beyond buf i size npos (cur.size - npos) 0 ba.m_position with
        | .error e => .error e
        | .ok (buf, cur, position) =>
          .ok ({ ba with m_current := cur, m_position := position }, buf)

def readAt (ba : ByteArray) (beyond : Nat → Nat → UInt8) (buf : List UInt8) (size position : Nat)
    : Except Fault (List UInt8) :=
  if size > ba.getReadSize then
    .error .outOfRange
  else
    let npos := position % ba.m_baseSize
    match ba.m_current with
    | none => .error .nullNode
    | some i =>
      match ba.m_root[i]? with
      | none => .error .nullNode
      | some cur =>
        match copyOut ba.m_root beyond buf i size npos (cur.size - npos) 0 position with
        | .error e => .error e
        | .ok (buf, _, _) => .ok buf

def setPosition (ba : ByteArray) (val : Nat) : Except Fault ByteArray :=
  if val > ba.m_capacity then
    .error .outOfRange
  else
    match go ba.m_root 0 val with
    | .error e => .error e
    | .ok cur =>
      .ok { ba with
        m_position := val
        m_size := if val > ba.m_size then val else ba.m_size
        m_current := cur
      }
where
  go (chain : List Node) (i val : Nat) : Except Fault (Option Nat) :=
    if h : i < chain.length then
      if val ≥ chain[i].size then
        go chain (i + 1) (val - chain[i].size)
      else
        .ok (if val = chain[i].size then next chain i else some i)
    else
      .error .nullNode
  termination_by chain.length - i

def toString (ba : ByteArray) (beyond : Nat → Nat → UInt8) : Except Fault (List UInt8) :=
  let str := List.replicate ba.getReadSize 0
  if str.isEmpty then
    .ok str
  else
    ba.readAt beyond str str.length ba.m_position

structure Iovec where
  node : Nat
  offset : Nat
  iov_len : Nat
  deriving DecidableEq, Repr

def getWriteBuffers (ba : ByteArray) (fresh : Nat → Nat → UInt8) (len : Nat)
    : Except Fault (ByteArray × List Iovec × Nat) :=
  if len = 0 then
    .ok (ba, [], 0)
  else
    let ba := ba.addCapacity fresh len
    let npos := ba.m_position % ba.m_baseSize
    match ba.m_current with
    | none => .error .nullNode
    | some i =>
      match ba.m_root[i]? with
      | none => .error .nullNode
      | some cur =>
        match go ba.m_root i len npos (cur.size - npos) with
        | .error e => .error e
        | .ok iovs => .ok (ba, iovs, len)
where
  go (chain : List Node) (i len npos ncap : Nat) : Except Fault (List Iovec) :=
    if len = 0 then
      .ok []
    else if ncap ≥ len then
      .ok [{ node := i, offset := npos, iov_len := len }]
    else
      if h : i + 1 < chain.length then
        match go chain (i + 1) (len - ncap) 0 chain[i + 1].size with
        | .error e => .error e
        | .ok iovs => .ok ({ node := i, offset := npos, iov_len := ncap } :: iovs)
      else
        .error .nullNode
  termination_by chain.length - i

inductive Call where
  | write (fresh : Nat → Nat → UInt8) (buf : List UInt8)
  | read (beyond : Nat → Nat → UInt8) (buf : List UInt8)
  | setPosition (val : Nat)
  | clear
  | toString (beyond : Nat → Nat → UInt8)
  | getWriteBuffers (fresh : Nat → Nat → UInt8) (len : Nat)

inductive Result where
  | void
  | bytes (bytes : List UInt8)
  | buffers (iovs : List Iovec) (size : Nat)
  deriving DecidableEq, Repr

def call (ba : ByteArray) : Call → Except Fault (ByteArray × Result)
  | .write fresh buf => (ba.write fresh buf buf.length).map (·, .void)
  | .read beyond buf => (ba.read beyond buf buf.length).map fun (ba, buf) => (ba, .bytes buf)
  | .setPosition val => (ba.setPosition val).map (·, .void)
  | .clear => .ok (ba.clear, .void)
  | .toString beyond => (ba.toString beyond).map fun str => (ba, .bytes str)
  | .getWriteBuffers fresh len =>
    (ba.getWriteBuffers fresh len).map fun (ba, iovs, size) => (ba, .buffers iovs size)

def lts : LTS ByteArray (Call × Result) :=
  LTS.ofExcept call

def IsNew (ba : ByteArray) : Prop :=
  ∃ base_size content, 1 ≤ base_size ∧ ba = new base_size content

end ByteArray
end CXS
