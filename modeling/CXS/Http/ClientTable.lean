import CXS.Http.Table

/-!
This module contains the transition table of the machine that `httpclient_paeser.rl.cc` runs, which
is generated from `httpclient_parser.rl`. State `0` is `httpclient_parser_error`, state `1` is
`httpclient_parser_start` and the states from `120` on are final. The first edge that takes the byte
is the edge of the generated code. A byte without an edge leads to the error state.
-/

namespace CXS
namespace Http
namespace Client

inductive Action where
  | mark
  | start_field
  | write_field
  | start_value
  | write_content_len
  | write_connection_close
  | write_value
  | reason_phrase
  | status_code
  | http_version
  | chunk_size
  | trans_chunked
  | done
  deriving DecidableEq, Repr

structure Edge where
  range : List (Nat × Nat)
  actions : List Action
  target : Nat
  deriving DecidableEq, Repr

def httpclient_parser_error : Nat := 0

def httpclient_parser_start : Nat := 1

def httpclient_parser_first_final : Nat := 120

namespace Table

open Http.Table (on ranges digit xdigit)

def letter (c : Char) : List (Nat × Nat) :=
  ranges [(c.toNat - 32, c.toNat - 32), (c.toNat, c.toNat)]

def space : List (Nat × Nat) :=
  ranges [(9, 13), (32, 32)]

def token : List (Nat × Nat) :=
  ranges [(33, 33), (35, 39), (42, 43), (45, 46), (48, 57), (65, 90), (94, 122), (124, 124),
    (126, 126)]

def any : List (Nat × Nat) :=
  ranges [(0, 255)]

def edges1 : List (List Edge) :=
  [
    [⟨on 'H', [.mark], 8⟩, ⟨xdigit, [.mark], 2⟩],
    [⟨on '\n', [.chunk_size, .done], 120⟩, ⟨on '\r', [.chunk_size], 3⟩,
      ⟨on ';', [.chunk_size], 4⟩, ⟨xdigit, [], 2⟩],
    [⟨on '\n', [.done], 120⟩],
    [⟨token, [.start_field], 5⟩],
    [⟨on '\n', [.write_field, .start_value, .write_value, .done], 120⟩,
      ⟨on '\r', [.write_field, .start_value, .write_value], 3⟩,
      ⟨on ';', [.write_field, .start_value, .write_value], 4⟩,
      ⟨on '=', [.write_field, .start_value], 6⟩, ⟨token, [], 5⟩],
    [⟨token, [.start_value], 7⟩],
    [⟨on '\n', [.write_value, .done], 120⟩, ⟨on '\r', [.write_value], 3⟩,
      ⟨on ';', [.write_value], 4⟩, ⟨token, [], 7⟩],
    [⟨on 'T', [], 9⟩],
    [⟨on 'T', [], 10⟩],
    [⟨on 'P', [], 11⟩],
    [⟨on '/', [], 12⟩],
    [⟨digit, [], 13⟩],
    [⟨on '.', [], 14⟩, ⟨digit, [], 13⟩],
    [⟨digit, [], 15⟩],
    [⟨on ' ', [.http_version], 16⟩, ⟨digit, [], 15⟩],
    [⟨digit, [.mark], 17⟩],
    [⟨on ' ', [.status_code], 18⟩, ⟨digit, [], 17⟩],
    [⟨ranges [(0, 9), (11, 255)], [.mark], 19⟩],
    [⟨on '\n', [.reason_phrase], 20⟩, ⟨on '\r', [.reason_phrase], 24⟩, ⟨any, [], 19⟩],
    [⟨on '\n', [.done], 120⟩, ⟨on '\r', [], 3⟩, ⟨letter 'c', [.start_field], 25⟩,
      ⟨letter 't', [.start_field], 44⟩, ⟨token, [.start_field], 21⟩],
    [⟨on ':', [.write_field], 22⟩, ⟨token, [], 21⟩],
    [⟨on '\n', [.start_value, .write_value], 20⟩, ⟨on '\r', [.start_value, .write_value], 24⟩,
      ⟨space, [.start_value], 22⟩, ⟨any, [.start_value], 23⟩],
    [⟨on '\n', [.write_value], 20⟩, ⟨on '\r', [.write_value], 24⟩, ⟨any, [], 23⟩],
    [⟨on '\n', [], 20⟩],
    [⟨on ':', [.write_field], 22⟩, ⟨letter 'o', [], 26⟩, ⟨token, [], 21⟩],
    [⟨on ':', [.write_field], 22⟩, ⟨letter 'n', [], 27⟩, ⟨token, [], 21⟩],
    [⟨on ':', [.write_field], 22⟩, ⟨letter 'n', [], 28⟩, ⟨letter 't', [], 101⟩, ⟨token, [], 21⟩],
    [⟨on ':', [.write_field], 22⟩, ⟨letter 'e', [], 29⟩, ⟨token, [], 21⟩],
    [⟨on ':', [.write_field], 22⟩, ⟨letter 'c', [], 30⟩, ⟨token, [], 21⟩],
    [⟨on ':', [.write_field], 22⟩, ⟨letter 't', [], 31⟩, ⟨token, [], 21⟩],
    [⟨on ':', [.write_field], 22⟩, ⟨letter 'i', [], 32⟩, ⟨token, [], 21⟩],
    [⟨on ':', [.write_field], 22⟩, ⟨letter 'o', [], 33⟩, ⟨token, [], 21⟩],
    [⟨on ':', [.write_field], 22⟩, ⟨letter 'n', [], 34⟩, ⟨token, [], 21⟩],
    [⟨on ':', [.write_field], 35⟩, ⟨token, [], 21⟩],
    [⟨on '\n', [.start_value, .write_value], 36⟩, ⟨on '\r', [.start_value, .write_value], 95⟩,
      ⟨letter 'c', [.start_value], 96⟩, ⟨space, [.start_value], 35⟩, ⟨any, [.start_value], 23⟩]
  ]

def edges36 : List (List Edge) :=
  [
    [⟨on '\n', [.done], 122⟩, ⟨on '\r', [], 89⟩, ⟨letter 'c', [.start_field], 90⟩,
      ⟨letter 't', [.start_field], 44⟩, ⟨space, [], 37⟩, ⟨token, [.start_field], 21⟩],
    [⟨letter 'c', [], 38⟩, ⟨space, [], 37⟩],
    [⟨letter 'l', [], 39⟩],
    [⟨letter 'o', [], 40⟩],
    [⟨letter 's', [], 41⟩],
    [⟨letter 'e', [], 42⟩],
    [⟨on '\n', [], 43⟩, ⟨on '\r', [], 88⟩],
    [⟨on '\n', [.write_connection_close, .done], 120⟩, ⟨on '\r', [.write_connection_close], 3⟩,
      ⟨letter 'c', [.write_connection_close, .start_field], 25⟩,
      ⟨letter 't', [.write_connection_close, .start_field], 44⟩,
      ⟨token, [.write_connection_close, .start_field], 21⟩],
    [⟨on ':', [.write_field], 22⟩, ⟨letter 'r', [], 45⟩, ⟨token, [], 21⟩],
    [⟨on ':', [.write_field], 22⟩, ⟨letter 'a', [], 46⟩, ⟨token, [], 21⟩],
    [⟨on ':', [.write_field], 22⟩, ⟨letter 'n', [], 47⟩, ⟨token, [], 21⟩],
    [⟨on ':', [.write_field], 22⟩, ⟨letter 's', [], 48⟩, ⟨token, [], 21⟩],
    [⟨on ':', [.write_field], 22⟩, ⟨letter 'f', [], 49⟩, ⟨token, [], 21⟩],
    [⟨on ':', [.write_field], 22⟩, ⟨letter 'e', [], 50⟩, ⟨token, [], 21⟩],
    [⟨on ':', [.write_field], 22⟩, ⟨letter 'r', [], 51⟩, ⟨token, [], 21⟩],
    [⟨on '-', [], 52⟩, ⟨on ':', [.write_field], 22⟩, ⟨token, [], 21⟩],
    [⟨on ':', [.write_field], 22⟩, ⟨letter 'e', [], 53⟩, ⟨token, [], 21⟩],
    [⟨on ':', [.write_field], 22⟩, ⟨letter 'n', [], 54⟩, ⟨token, [], 21⟩],
    [⟨on ':', [.write_field], 22⟩, ⟨letter 'c', [], 55⟩, ⟨token, [], 21⟩],
    [⟨on ':', [.write_field], 22⟩, ⟨letter 'o', [], 56⟩, ⟨token, [], 21⟩],
    [⟨on ':', [.write_field], 22⟩, ⟨letter 'd', [], 57⟩, ⟨token, [], 21⟩],
    [⟨on ':', [.write_field], 22⟩, ⟨letter 'i', [], 58⟩, ⟨token, [], 21⟩],
    [⟨on ':', [.write_field], 22⟩, ⟨letter 'n', [], 59⟩, ⟨token, [], 21⟩],
    [⟨on ':', [.write_field], 22⟩, ⟨letter 'g', [], 60⟩, ⟨token, [], 21⟩],
    [⟨on ':', [.write_field], 61⟩, ⟨token, [], 21⟩],
    [⟨on '\n', [.start_value, .write_value], 62⟩, ⟨on '\r', [.start_value, .write_value], 80⟩,
      ⟨letter 'c', [.start_value], 81⟩, ⟨space, [.start_value], 61⟩, ⟨any, [.start_value], 23⟩],
    [⟨on '\n', [.done], 121⟩, ⟨on '\r', [], 72⟩, ⟨letter 'c', [.start_value, .start_field], 73⟩,
      ⟨letter 't', [.start_field], 44⟩, ⟨space, [], 63⟩, ⟨token, [.start_field], 21⟩],
    [⟨letter 'c', [.start_value], 64⟩, ⟨space, [], 63⟩],
    [⟨letter 'h', [], 65⟩],
    [⟨letter 'u', [], 66⟩],
    [⟨letter 'n', [], 67⟩],
    [⟨letter 'k', [], 68⟩],
    [⟨letter 'e', [], 69⟩],
    [⟨letter 'd', [], 70⟩],
    [⟨on '\n', [.write_value, .trans_chunked], 20⟩, ⟨on '\r', [.write_value], 71⟩],
    [⟨on '\n', [.trans_chunked], 20⟩],
    [⟨on '\n', [.done], 121⟩, ⟨letter 'c', [.start_value], 64⟩, ⟨space, [], 63⟩],
    [⟨on ':', [.write_field], 22⟩, ⟨letter 'h', [], 74⟩, ⟨letter 'o', [], 26⟩, ⟨token, [], 21⟩],
    [⟨on ':', [.write_field], 22⟩, ⟨letter 'u', [], 75⟩, ⟨token, [], 21⟩],
    [⟨on ':', [.write_field], 22⟩, ⟨letter 'n', [], 76⟩, ⟨token, [], 21⟩],
    [⟨on ':', [.write_field], 22⟩, ⟨letter 'k', [], 77⟩, ⟨token, [], 21⟩],
    [⟨on ':', [.write_field], 22⟩, ⟨letter 'e', [], 78⟩, ⟨token, [], 21⟩],
    [⟨on ':', [.write_field], 22⟩, ⟨letter 'd', [], 79⟩, ⟨token, [], 21⟩],
    [⟨on '\n', [.write_value, .trans_chunked], 20⟩, ⟨on '\r', [.write_value], 71⟩,
      ⟨on ':', [.write_field], 22⟩, ⟨token, [], 21⟩]
  ]

def edges80 : List (List Edge) :=
  [
    [⟨on '\n', [], 62⟩, ⟨letter 'c', [.start_value], 64⟩, ⟨space, [], 63⟩],
    [⟨on '\n', [.write_value], 20⟩, ⟨on '\r', [.write_value], 24⟩, ⟨letter 'h', [], 82⟩,
      ⟨any, [], 23⟩],
    [⟨on '\n', [.write_value], 20⟩, ⟨on '\r', [.write_value], 24⟩, ⟨letter 'u', [], 83⟩,
      ⟨any, [], 23⟩],
    [⟨on '\n', [.write_value], 20⟩, ⟨on '\r', [.write_value], 24⟩, ⟨letter 'n', [], 84⟩,
      ⟨any, [], 23⟩],
    [⟨on '\n', [.write_value], 20⟩, ⟨on '\r', [.write_value], 24⟩, ⟨letter 'k', [], 85⟩,
      ⟨any, [], 23⟩],
    [⟨on '\n', [.write_value], 20⟩, ⟨on '\r', [.write_value], 24⟩, ⟨letter 'e', [], 86⟩,
      ⟨any, [], 23⟩],
    [⟨on '\n', [.write_value], 20⟩, ⟨on '\r', [.write_value], 24⟩, ⟨letter 'd', [], 87⟩,
      ⟨any, [], 23⟩],
    [⟨on '\n', [.write_value, .trans_chunked], 20⟩, ⟨on '\r', [.write_value], 71⟩,
      ⟨any, [], 23⟩],
    [⟨on '\n', [], 43⟩],
    [⟨on '\n', [.done], 122⟩, ⟨letter 'c', [], 38⟩, ⟨space, [], 37⟩],
    [⟨on ':', [.write_field], 22⟩, ⟨letter 'l', [], 91⟩, ⟨letter 'o', [], 26⟩, ⟨token, [], 21⟩],
    [⟨on ':', [.write_field], 22⟩, ⟨letter 'o', [], 92⟩, ⟨token, [], 21⟩],
    [⟨on ':', [.write_field], 22⟩, ⟨letter 's', [], 93⟩, ⟨token, [], 21⟩],
    [⟨on ':', [.write_field], 22⟩, ⟨letter 'e', [], 94⟩, ⟨token, [], 21⟩],
    [⟨on '\n', [], 43⟩, ⟨on '\r', [], 88⟩, ⟨on ':', [.write_field], 22⟩, ⟨token, [], 21⟩],
    [⟨on '\n', [], 36⟩, ⟨letter 'c', [], 38⟩, ⟨space, [], 37⟩],
    [⟨on '\n', [.write_value], 20⟩, ⟨on '\r', [.write_value], 24⟩, ⟨letter 'l', [], 97⟩,
      ⟨any, [], 23⟩],
    [⟨on '\n', [.write_value], 20⟩, ⟨on '\r', [.write_value], 24⟩, ⟨letter 'o', [], 98⟩,
      ⟨any, [], 23⟩],
    [⟨on '\n', [.write_value], 20⟩, ⟨on '\r', [.write_value], 24⟩, ⟨letter 's', [], 99⟩,
      ⟨any, [], 23⟩],
    [⟨on '\n', [.write_value], 20⟩, ⟨on '\r', [.write_value], 24⟩, ⟨letter 'e', [], 100⟩,
      ⟨any, [], 23⟩],
    [⟨on '\n', [.write_value], 43⟩, ⟨on '\r', [.write_value], 88⟩, ⟨any, [], 23⟩],
    [⟨on ':', [.write_field], 22⟩, ⟨letter 'e', [], 102⟩, ⟨token, [], 21⟩],
    [⟨on ':', [.write_field], 22⟩, ⟨letter 'n', [], 103⟩, ⟨token, [], 21⟩],
    [⟨on ':', [.write_field], 22⟩, ⟨letter 't', [], 104⟩, ⟨token, [], 21⟩],
    [⟨on '-', [], 105⟩, ⟨on ':', [.write_field], 22⟩, ⟨token, [], 21⟩],
    [⟨on ':', [.write_field], 22⟩, ⟨letter 'l', [], 106⟩, ⟨token, [], 21⟩],
    [⟨on ':', [.write_field], 22⟩, ⟨letter 'e', [], 107⟩, ⟨token, [], 21⟩],
    [⟨on ':', [.write_field], 22⟩, ⟨letter 'n', [], 108⟩, ⟨token, [], 21⟩],
    [⟨on ':', [.write_field], 22⟩, ⟨letter 'g', [], 109⟩, ⟨token, [], 21⟩],
    [⟨on ':', [.write_field], 22⟩, ⟨letter 't', [], 110⟩, ⟨token, [], 21⟩],
    [⟨on ':', [.write_field], 22⟩, ⟨letter 'h', [], 111⟩, ⟨token, [], 21⟩],
    [⟨on ':', [.write_field], 112⟩, ⟨token, [], 21⟩],
    [⟨on '\n', [.start_value, .write_value], 113⟩, ⟨on '\r', [.start_value, .write_value], 118⟩,
      ⟨space, [.start_value], 112⟩, ⟨digit, [.start_value], 119⟩, ⟨any, [.start_value], 23⟩],
    [⟨on '\n', [.done], 123⟩, ⟨on '\r', [], 116⟩, ⟨letter 'c', [.start_field], 25⟩,
      ⟨letter 't', [.start_field], 44⟩, ⟨space, [], 114⟩,
      ⟨digit, [.start_value, .start_field], 117⟩, ⟨token, [.start_field], 21⟩],
    [⟨space, [], 114⟩, ⟨digit, [.start_value], 115⟩],
    [⟨on '\n', [.write_content_len, .write_value], 20⟩,
      ⟨on '\r', [.write_content_len, .write_value], 24⟩, ⟨digit, [], 115⟩],
    [⟨on '\n', [.done], 123⟩, ⟨space, [], 114⟩, ⟨digit, [.start_value], 115⟩],
    [⟨on '\n', [.write_content_len, .write_value], 20⟩,
      ⟨on '\r', [.write_content_len, .write_value], 24⟩, ⟨on ':', [.write_field], 22⟩,
      ⟨digit, [], 117⟩, ⟨token, [], 21⟩],
    [⟨on '\n', [], 113⟩, ⟨space, [], 114⟩, ⟨digit, [.start_value], 115⟩],
    [⟨on '\n', [.write_content_len, .write_value], 20⟩,
      ⟨on '\r', [.write_content_len, .write_value], 24⟩, ⟨digit, [], 119⟩, ⟨any, [], 23⟩],
    [],
    [⟨letter 'c', [.start_value], 64⟩, ⟨space, [], 63⟩],
    [⟨letter 'c', [], 38⟩, ⟨space, [], 37⟩],
    [⟨space, [], 114⟩, ⟨digit, [.start_value], 115⟩]
  ]

def edges : List (List Edge) :=
  [] :: edges1 ++ edges36 ++ edges80

end Table

def edgesFrom (cs : Nat) : List Edge :=
  (Table.edges[cs]?).getD []

def trans (cs : Nat) (b : UInt8) : List Action × Nat :=
  match (edgesFrom cs).find? (fun e => inRange b e.range) with
  | some e => (e.actions, e.target)
  | none => ([], httpclient_parser_error)

end Client
end Http
end CXS
