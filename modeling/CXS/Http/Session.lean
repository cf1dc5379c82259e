import CXS.Http.Parser
import CXS.Stream.FixSize

/-!
This module contains `HttpSession::recvRequest` from `http/http_session.cc`.

The peer is the list of the pieces in which its bytes arrive. A `read` takes what it has room for
from the first piece, and returns `0` when there is none. The contents of the fresh `buffer` and of
the memory that `body.reserve` yields are arguments.
-/

namespace CXS
namespace Http

abbrev Peer :=
  List (List UInt8)

def read (n : Nat) (peer : Peer) : List UInt8 × Peer :=
  match peer with
  | [] => ([], [])
  | piece :: peer => (piece.take n, if piece.length ≤ n then peer else piece.drop n :: peer)

theorem read_flatten (n : Nat) (peer : Peer)
    : (read n peer).1 ++ (read n peer).2.flatten = peer.flatten := by
  cases peer with
  | nil => rfl
  | cons piece peer =>
    simp only [read]
    split
    next h => rw [List.take_of_length_le h, List.flatten_cons]
    next h => rw [List.flatten_cons, List.flatten_cons, ← List.append_assoc, List.take_append_drop]

theorem read_length_lt {n : Nat} {peer : Peer} (h : (read n peer).1 ≠ [])
    : (read n peer).2.flatten.length < peer.flatten.length := by
  have hpos := List.length_pos_of_ne_nil h
  rw [← read_flatten n peer, List.length_append]
  omega

def buff_size : Nat := 100

inductive Header where
  | threw
  | nullptr
  | finished (parser : HttpRequestParser) (data : List UInt8) (offset : Nat) (peer : Peer)
  deriving DecidableEq, Repr

/--
The `do`-loop of `recvRequest`, with what it leaves behind at its `break`.
-/
def recvHeader (uri_relaxed : Bool) (data : List UInt8) (offset : Nat) (parser : HttpRequestParser)
    (peer : Peer) : Header :=
  let received := read (buff_size - offset) peer
  if _ : received.1 = [] then
    .nullptr
  else
    let len := received.1.length + offset
    match parser.execute uri_relaxed (data.overwrite offset received.1) len with
    | none => .threw
    | some (rtParser, data, parser) =>
      if parser.hasError then
        .nullptr
      else if len - rtParser = buff_size then
        .nullptr
      else if parser.isFinished ≠ 0 then
        .finished parser data (len - rtParser) received.2
      else
        recvHeader uri_relaxed data (len - rtParser) parser received.2
termination_by peer.flatten.length
decreasing_by
  apply read_length_lt
  assumption

structure StdString where
  chars : List UInt8
  spare : List UInt8
  deriving DecidableEq, Repr

namespace StdString

def reserve (memory : List UInt8) : StdString where
  chars := []
  spare := memory

def append (s : StdString) (cs : List UInt8) : StdString where
  chars := s.chars ++ cs
  spare := s.spare.drop cs.length

def store (s : StdString) (i : Nat) (cs : List UInt8) : StdString :=
  let memory := (s.chars ++ s.spare).overwrite i cs
  { chars := memory.take s.chars.length, spare := memory.drop s.chars.length }

end StdString

def deliver (left : Nat) (peer : Peer) : List (List UInt8) :=
  match peer with
  | [] => []
  | piece :: peer =>
    if left = 0 then
      []
    else
      piece.take left :: deliver (left - piece.length) peer

structure Body where
  body : StdString
  stored : List Nat
  ret : Int
  deriving DecidableEq, Repr

-- `readFixSize(&body[at], length)`
def readBody (body : StdString) (start length : Nat) (peer : Peer) : Body :=
  let pieces := deliver length peer
  let out := Stream.readFixSize length (pieces.map (fun piece => (piece.length : Int)) ++ [0])
  let stores := out.1.zip (pieces ++ [[]])
  {
    body := stores.foldl (fun body s => body.store (start + s.1.offset) s.2) body
    stored := stores.flatMap (fun s => (List.range s.2.length).map (start + s.1.offset + ·))
    ret := match out.2 with
      | .returned ret => ret
      | .waiting => 0
  }

@[irreducible]
def toInt64 (n : Nat) : Int :=
  (n : Int).bmod (2 ^ 64)

inductive Received where
  | threw
  | nullptr
  | request (req : HttpRequest) (stored : List Nat)
  deriving DecidableEq, Repr

-- `recvRequest` behind its loop
def recvBody (lexical_cast : List UInt8 → Option Nat) (memory : Nat → List UInt8)
    (parser : HttpRequestParser) (data : List UInt8) (offset : Nat) (peer : Peer) : Received :=
  let length := toInt64 (parser.getContentLength lexical_cast)
  if length > 0 then
    let body := StdString.reserve (memory length.toNat)
    let body :=
      if length ≥ offset then
        body.append (data.take offset)
      else
        body.append (data.take length.toNat)
    let length := length - offset
    if length > 0 then
      let out := readBody body body.chars.length length.toNat peer
      if out.ret ≤ 0 then
        .nullptr
      else
        .request { parser.m_data with m_body := out.body.chars } out.stored
    else
      .request { parser.m_data with m_body := body.chars } []
  else
    .request parser.m_data []

def recvRequest (lexical_cast : List UInt8 → Option Nat) (memory : Nat → List UInt8)
    (uri_relaxed : Bool) (query_start : Nat) (buffer : List UInt8) (peer : Peer) : Received :=
  match recvHeader uri_relaxed buffer 0 (HttpRequestParser.new query_start) peer with
  | .threw => .threw
  | .nullptr => .nullptr
  | .finished parser data offset peer => recvBody lexical_cast memory parser data offset peer

end Http
end CXS
