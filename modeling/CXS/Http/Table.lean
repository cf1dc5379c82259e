import CXS.Http.Message

/-!
This module contains the transition table of the machine that `http11_paeser.rl.cc` runs, which is
generated from `http11_parser.rl`. State `0` is `http_parser_error`, state `1` is
`http_parser_start` and the states from `348` on are final. A state has an edge for each class of
bytes that it treats alike, with the actions of the edge in the order in which they run. A byte
without an edge leads to the error state.

Some edges also take the bytes `^`, `\x7b` and `\x7d` if `uri_relaxed` is set.
-/

namespace CXS
namespace Http

inductive Action where
  | mark
  | start_field
  | write_field
  | write_value
  | request_method
  | request_uri
  | fragment
  | start_query
  | query_string
  | http_version
  | request_path
  | done
  | xml
  | json
  deriving DecidableEq, Repr

structure Edge where
  range : List (Nat × Nat)
  actions : List Action
  target : Nat
  deriving DecidableEq, Repr

def http_parser_error : Nat := 0

def http_parser_start : Nat := 1

def http_parser_first_final : Nat := 348

namespace Table

def on (c : Char) : List (Nat × Nat) :=
  [(c.toNat, c.toNat)]

def ranges (rs : List (Nat × Nat)) : List (Nat × Nat) :=
  rs

def relaxed (r : Bool) (rs : List (Nat × Nat)) : List (Nat × Nat) :=
  if r then rs ++ [(94, 94), (123, 123), (125, 125)] else rs

def method : List (Nat × Nat) :=
  ranges [(48, 57), (65, 90)]

def digit : List (Nat × Nat) :=
  ranges [(48, 57)]

def xdigit : List (Nat × Nat) :=
  ranges [(48, 57), (65, 70), (97, 102)]

def xalpha : List (Nat × Nat) :=
  ranges [(65, 70), (97, 102)]

def scheme : List (Nat × Nat) :=
  ranges [(43, 43), (45, 46), (48, 57), (65, 90), (97, 122)]

def token : List (Nat × Nat) :=
  ranges [(1, 8), (10, 31), (33, 33), (35, 39), (42, 43), (45, 46), (48, 57), (65, 90),
    (94, 122), (124, 124), (126, 126)]

def fieldStart : List (Nat × Nat) :=
  ranges [(1, 8), (11, 12), (14, 31), (33, 33), (35, 39), (42, 43), (45, 46), (48, 57), (65, 90),
    (94, 122), (124, 124), (126, 126)]

def fieldAfterCr : List (Nat × Nat) :=
  ranges [(1, 8), (11, 31), (33, 33), (35, 39), (42, 43), (45, 46), (48, 57), (65, 90),
    (94, 122), (124, 124), (126, 126)]

def valueStart : List (Nat × Nat) :=
  ranges [(1, 8), (11, 12), (14, 31), (33, 126), (128, 255)]

def value : List (Nat × Nat) :=
  ranges [(1, 9), (11, 12), (14, 126), (128, 255)]

def regName (r : Bool) : List (Nat × Nat) :=
  relaxed r [(33, 33), (36, 36), (38, 46), (48, 57), (59, 59), (61, 61), (65, 90), (95, 95),
    (97, 122), (126, 126)]

def userinfo (r : Bool) : List (Nat × Nat) :=
  relaxed r [(33, 33), (36, 36), (38, 46), (48, 59), (61, 61), (65, 90), (95, 95), (97, 122),
    (126, 126)]

def userinfoNoDigit (r : Bool) : List (Nat × Nat) :=
  relaxed r [(33, 33), (36, 36), (38, 46), (58, 59), (61, 61), (65, 90), (95, 95), (97, 122),
    (126, 126)]

def query (r : Bool) : List (Nat × Nat) :=
  relaxed r [(33, 33), (36, 36), (38, 59), (61, 61), (63, 90), (95, 95), (97, 122), (126, 126),
    (128, 255)]

def segmentNc (r : Bool) : List (Nat × Nat) :=
  relaxed r [(33, 33), (36, 36), (38, 46), (48, 57), (59, 59), (61, 61), (64, 90), (95, 95),
    (97, 122), (126, 126)]

def pchar (r : Bool) : List (Nat × Nat) :=
  relaxed r [(33, 33), (36, 36), (38, 46), (48, 59), (61, 61), (64, 90), (95, 95), (97, 122),
    (126, 126), (128, 255)]

def path (r : Bool) : List (Nat × Nat) :=
  relaxed r [(33, 33), (36, 36), (38, 59), (61, 61), (64, 90), (95, 95), (97, 122), (126, 126),
    (128, 255)]

def relativeStart (r : Bool) : List (Nat × Nat) :=
  relaxed r [(33, 33), (36, 36), (38, 46), (48, 57), (59, 59), (61, 61), (64, 64), (95, 95),
    (126, 126)]

def noScheme (r : Bool) : List (Nat × Nat) :=
  relaxed r [(33, 33), (36, 36), (38, 42), (44, 44), (59, 59), (61, 61), (64, 64), (95, 95),
    (126, 126)]

def edges1 (r : Bool) : List (List Edge) :=
  [
    [⟨method, [.mark], 2⟩, ⟨on '<', [.mark], 194⟩, ⟨on '@', [.mark], 198⟩],
    [⟨on ' ', [.request_method], 3⟩, ⟨method, [], 175⟩],
    [⟨on ' ', [.mark, .request_path, .request_uri], 4⟩, ⟨relativeStart r, [.mark], 19⟩,
      ⟨on '#', [.mark, .request_path, .request_uri], 20⟩, ⟨on '%', [.mark], 24⟩,
      ⟨on '/', [.mark], 33⟩, ⟨on '?', [.mark, .request_path], 29⟩,
      ⟨ranges [(65, 90), (97, 122)], [.mark], 173⟩],
    [⟨on 'H', [.mark], 5⟩],
    [⟨on 'T', [], 6⟩],
    [⟨on 'T', [], 7⟩],
    [⟨on 'P', [], 8⟩],
    [⟨on '/', [], 9⟩],
    [⟨on '1', [], 10⟩],
    [⟨on '.', [], 11⟩],
    [⟨ranges [(48, 49)], [], 12⟩],
    [⟨on '\n', [.http_version], 13⟩, ⟨on '\r', [.http_version], 17⟩],
    [⟨fieldStart, [.start_field], 14⟩, ⟨on '\n', [.start_field, .done], 348⟩,
      ⟨on '\r', [.start_field], 18⟩],
    [⟨token, [], 14⟩, ⟨on ':', [.write_field], 15⟩],
    [⟨valueStart, [.mark], 16⟩, ⟨ranges [(9, 9), (32, 32)], [.mark], 15⟩,
      ⟨on '\n', [.mark, .write_value], 13⟩, ⟨on '\r', [.mark, .write_value], 17⟩],
    [⟨value, [], 16⟩, ⟨on '\n', [.write_value], 13⟩, ⟨on '\r', [.write_value], 17⟩],
    [⟨on '\n', [], 13⟩],
    [⟨fieldAfterCr, [], 14⟩, ⟨on '\n', [.done], 348⟩, ⟨on ':', [.write_field], 15⟩],
    [⟨on ' ', [.request_path, .request_uri], 4⟩, ⟨segmentNc r, [], 19⟩,
      ⟨on '#', [.request_path, .request_uri], 20⟩, ⟨on '%', [], 24⟩, ⟨on '/', [], 26⟩,
      ⟨on '?', [.request_path], 29⟩],
    [⟨on ' ', [.mark, .fragment], 4⟩, ⟨query r, [.mark], 21⟩, ⟨on '%', [.mark], 22⟩],
    [⟨on ' ', [.fragment], 4⟩, ⟨query r, [], 21⟩, ⟨on '%', [], 22⟩],
    [⟨xdigit, [], 23⟩],
    [⟨xdigit, [], 21⟩],
    [⟨xdigit, [], 25⟩],
    [⟨xdigit, [], 19⟩],
    [⟨on ' ', [.request_path, .request_uri], 4⟩, ⟨path r, [], 26⟩,
      ⟨on '#', [.request_path, .request_uri], 20⟩, ⟨on '%', [], 27⟩,
      ⟨on '?', [.request_path], 29⟩],
    [⟨xdigit, [], 28⟩],
    [⟨xdigit, [], 26⟩],
    [⟨on ' ', [.start_query, .query_string, .request_uri], 4⟩, ⟨query r, [.start_query], 30⟩,
      ⟨on '#', [.start_query, .query_string, .request_uri], 20⟩, ⟨on '%', [.start_query], 31⟩],
    [⟨on ' ', [.query_string, .request_uri], 4⟩, ⟨query r, [], 30⟩,
      ⟨on '#', [.query_string, .request_uri], 20⟩, ⟨on '%', [], 31⟩],
    [⟨xdigit, [], 32⟩],
    [⟨xdigit, [], 30⟩],
    [⟨on ' ', [.request_path, .request_uri], 4⟩, ⟨pchar r, [], 26⟩,
      ⟨on '#', [.request_path, .request_uri], 20⟩, ⟨on '%', [], 27⟩, ⟨on '/', [], 34⟩,
      ⟨on '?', [.request_path], 29⟩],
    [⟨on ' ', [.request_path, .request_uri], 4⟩, ⟨regName r, [], 35⟩,
      ⟨on '#', [.request_path, .request_uri], 20⟩, ⟨on '%', [], 36⟩, ⟨on '/', [], 26⟩,
      ⟨on ':', [], 38⟩, ⟨on '?', [.request_path], 29⟩, ⟨on '@', [], 42⟩, ⟨on '[', [], 47⟩],
    [⟨on ' ', [.request_path, .request_uri], 4⟩, ⟨regName r, [], 35⟩,
      ⟨on '#', [.request_path, .request_uri], 20⟩, ⟨on '%', [], 36⟩, ⟨on '/', [], 26⟩,
      ⟨on ':', [], 38⟩, ⟨on '?', [.request_path], 29⟩, ⟨on '@', [], 42⟩],
    [⟨xdigit, [], 37⟩],
    [⟨xdigit, [], 35⟩],
    [⟨on ' ', [.request_path, .request_uri], 4⟩, ⟨userinfoNoDigit r, [], 39⟩,
      ⟨on '#', [.request_path, .request_uri], 20⟩, ⟨on '%', [], 40⟩, ⟨on '/', [], 26⟩,
      ⟨digit, [], 38⟩, ⟨on '?', [.request_path], 29⟩, ⟨on '@', [], 42⟩],
    [⟨userinfo r, [], 39⟩, ⟨on '%', [], 40⟩, ⟨on '@', [], 42⟩],
    [⟨xdigit, [], 41⟩],
    [⟨xdigit, [], 39⟩],
    [⟨on ' ', [.request_path, .request_uri], 4⟩, ⟨regName r, [], 43⟩,
      ⟨on '#', [.request_path, .request_uri], 20⟩, ⟨on '%', [], 44⟩, ⟨on '/', [], 26⟩,
      ⟨on ':', [], 46⟩, ⟨on '?', [.request_path], 29⟩, ⟨on '[', [], 47⟩],
    [⟨on ' ', [.request_path, .request_uri], 4⟩, ⟨regName r, [], 43⟩,
      ⟨on '#', [.request_path, .request_uri], 20⟩, ⟨on '%', [], 44⟩, ⟨on '/', [], 26⟩,
      ⟨on ':', [], 46⟩, ⟨on '?', [.request_path], 29⟩],
    [⟨xdigit, [], 45⟩],
    [⟨xdigit, [], 43⟩],
    [⟨on ' ', [.request_path, .request_uri], 4⟩, ⟨on '#', [.request_path, .request_uri], 20⟩,
      ⟨on '/', [], 26⟩, ⟨digit, [], 46⟩, ⟨on '?', [.request_path], 29⟩],
    [⟨on '\x06', [], 48⟩, ⟨xdigit, [], 91⟩, ⟨on ':', [], 167⟩, ⟨on 'v', [], 169⟩],
    [⟨xdigit, [], 49⟩],
    [⟨xdigit, [], 50⟩, ⟨on ':', [], 53⟩]
  ]

def edges50 : List (List Edge) :=
  [
    [⟨xdigit, [], 51⟩, ⟨on ':', [], 53⟩],
    [⟨xdigit, [], 52⟩, ⟨on ':', [], 53⟩],
    [⟨on ':', [], 53⟩],
    [⟨ranges [(48, 48), (51, 57)], [], 54⟩, ⟨on '1', [], 84⟩, ⟨on '2', [], 87⟩, ⟨xalpha, [], 90⟩],
    [⟨on '.', [], 55⟩, ⟨xdigit, [], 77⟩, ⟨on ':', [], 80⟩],
    [⟨ranges [(48, 48), (51, 57)], [], 56⟩, ⟨on '1', [], 72⟩, ⟨on '2', [], 74⟩],
    [⟨on '.', [], 57⟩],
    [⟨ranges [(48, 48), (51, 57)], [], 58⟩, ⟨on '1', [], 67⟩, ⟨on '2', [], 69⟩],
    [⟨on '.', [], 59⟩],
    [⟨ranges [(48, 48), (51, 57)], [], 60⟩, ⟨on '1', [], 62⟩, ⟨on '2', [], 64⟩],
    [⟨on ']', [], 61⟩],
    [⟨on ' ', [.request_path, .request_uri], 4⟩, ⟨on '#', [.request_path, .request_uri], 20⟩,
      ⟨on '/', [], 26⟩, ⟨on ':', [], 46⟩, ⟨on '?', [.request_path], 29⟩],
    [⟨digit, [], 63⟩, ⟨on ']', [], 61⟩],
    [⟨digit, [], 60⟩, ⟨on ']', [], 61⟩],
    [⟨on '0', [], 65⟩, ⟨on '5', [], 66⟩, ⟨on ']', [], 61⟩],
    [⟨digit, [], 60⟩],
    [⟨on '0', [], 60⟩],
    [⟨on '.', [], 59⟩, ⟨digit, [], 68⟩],
    [⟨on '.', [], 59⟩, ⟨digit, [], 58⟩],
    [⟨on '.', [], 59⟩, ⟨on '0', [], 70⟩, ⟨on '5', [], 71⟩],
    [⟨digit, [], 58⟩],
    [⟨on '0', [], 58⟩],
    [⟨on '.', [], 57⟩, ⟨digit, [], 73⟩],
    [⟨on '.', [], 57⟩, ⟨digit, [], 56⟩],
    [⟨on '.', [], 57⟩, ⟨on '0', [], 75⟩, ⟨on '5', [], 76⟩],
    [⟨digit, [], 56⟩],
    [⟨on '0', [], 56⟩],
    [⟨xdigit, [], 78⟩, ⟨on ':', [], 80⟩],
    [⟨xdigit, [], 79⟩, ⟨on ':', [], 80⟩],
    [⟨on ':', [], 80⟩],
    [⟨xdigit, [], 81⟩],
    [⟨xdigit, [], 82⟩, ⟨on ']', [], 61⟩],
    [⟨xdigit, [], 83⟩, ⟨on ']', [], 61⟩],
    [⟨xdigit, [], 60⟩, ⟨on ']', [], 61⟩],
    [⟨on '.', [], 55⟩, ⟨digit, [], 85⟩, ⟨on ':', [], 80⟩, ⟨xalpha, [], 77⟩],
    [⟨on '.', [], 55⟩, ⟨digit, [], 86⟩, ⟨on ':', [], 80⟩, ⟨xalpha, [], 78⟩],
    [⟨on '.', [], 55⟩, ⟨xdigit, [], 79⟩, ⟨on ':', [], 80⟩],
    [⟨on '.', [], 55⟩, ⟨on '0', [], 88⟩,
      ⟨ranges [(49, 52), (54, 57), (65, 70), (97, 102)], [], 77⟩, ⟨on '5', [], 89⟩,
      ⟨on ':', [], 80⟩],
    [⟨digit, [], 86⟩, ⟨on ':', [], 80⟩, ⟨xalpha, [], 78⟩],
    [⟨on '0', [], 86⟩, ⟨ranges [(49, 57), (65, 70), (97, 102)], [], 78⟩, ⟨on ':', [], 80⟩],
    [⟨xdigit, [], 77⟩, ⟨on ':', [], 80⟩],
    [⟨xdigit, [], 92⟩, ⟨on ':', [], 95⟩],
    [⟨xdigit, [], 93⟩, ⟨on ':', [], 95⟩],
    [⟨xdigit, [], 94⟩, ⟨on ':', [], 95⟩],
    [⟨on ':', [], 95⟩],
    [⟨xdigit, [], 96⟩, ⟨on ':', [], 166⟩],
    [⟨xdigit, [], 97⟩, ⟨on ':', [], 100⟩],
    [⟨xdigit, [], 98⟩, ⟨on ':', [], 100⟩],
    [⟨xdigit, [], 99⟩, ⟨on ':', [], 100⟩],
    [⟨on ':', [], 100⟩]
  ]

def edges100 : List (List Edge) :=
  [
    [⟨xdigit, [], 101⟩, ⟨on ':', [], 165⟩],
    [⟨xdigit, [], 102⟩, ⟨on ':', [], 105⟩],
    [⟨xdigit, [], 103⟩, ⟨on ':', [], 105⟩],
    [⟨xdigit, [], 104⟩, ⟨on ':', [], 105⟩],
    [⟨on ':', [], 105⟩],
    [⟨xdigit, [], 106⟩, ⟨on ':', [], 164⟩],
    [⟨xdigit, [], 107⟩, ⟨on ':', [], 110⟩],
    [⟨xdigit, [], 108⟩, ⟨on ':', [], 110⟩],
    [⟨xdigit, [], 109⟩, ⟨on ':', [], 110⟩],
    [⟨on ':', [], 110⟩],
    [⟨xdigit, [], 111⟩, ⟨on ':', [], 163⟩],
    [⟨xdigit, [], 112⟩, ⟨on ':', [], 115⟩],
    [⟨xdigit, [], 113⟩, ⟨on ':', [], 115⟩],
    [⟨xdigit, [], 114⟩, ⟨on ':', [], 115⟩],
    [⟨on ':', [], 115⟩],
    [⟨xdigit, [], 116⟩, ⟨on ':', [], 151⟩],
    [⟨xdigit, [], 117⟩, ⟨on ':', [], 120⟩],
    [⟨xdigit, [], 118⟩, ⟨on ':', [], 120⟩],
    [⟨xdigit, [], 119⟩, ⟨on ':', [], 120⟩],
    [⟨on ':', [], 120⟩],
    [⟨xdigit, [], 121⟩, ⟨on ':', [], 150⟩],
    [⟨xdigit, [], 122⟩, ⟨on ':', [], 125⟩],
    [⟨xdigit, [], 123⟩, ⟨on ':', [], 125⟩],
    [⟨xdigit, [], 124⟩, ⟨on ':', [], 125⟩],
    [⟨on ':', [], 125⟩],
    [⟨xdigit, [], 121⟩, ⟨on ':', [], 126⟩],
    [⟨ranges [(2, 3)], [], 48⟩, ⟨ranges [(48, 48), (51, 57)], [], 127⟩, ⟨on '1', [], 143⟩,
      ⟨on '2', [], 146⟩, ⟨xalpha, [], 149⟩, ⟨on ']', [], 61⟩],
    [⟨on '.', [], 55⟩, ⟨xdigit, [], 128⟩, ⟨on ':', [], 131⟩, ⟨on ']', [], 61⟩],
    [⟨xdigit, [], 129⟩, ⟨on ':', [], 131⟩, ⟨on ']', [], 61⟩],
    [⟨xdigit, [], 130⟩, ⟨on ':', [], 131⟩, ⟨on ']', [], 61⟩],
    [⟨on ':', [], 131⟩, ⟨on ']', [], 61⟩],
    [⟨ranges [(48, 48), (51, 57)], [], 132⟩, ⟨on '1', [], 136⟩, ⟨on '2', [], 139⟩,
      ⟨xalpha, [], 142⟩],
    [⟨on '.', [], 55⟩, ⟨xdigit, [], 133⟩, ⟨on ':', [], 80⟩, ⟨on ']', [], 61⟩],
    [⟨xdigit, [], 134⟩, ⟨on ':', [], 80⟩, ⟨on ']', [], 61⟩],
    [⟨xdigit, [], 135⟩, ⟨on ':', [], 80⟩, ⟨on ']', [], 61⟩],
    [⟨on ':', [], 80⟩, ⟨on ']', [], 61⟩],
    [⟨on '.', [], 55⟩, ⟨digit, [], 137⟩, ⟨on ':', [], 80⟩, ⟨xalpha, [], 133⟩, ⟨on ']', [], 61⟩],
    [⟨on '.', [], 55⟩, ⟨digit, [], 138⟩, ⟨on ':', [], 80⟩, ⟨xalpha, [], 134⟩, ⟨on ']', [], 61⟩],
    [⟨on '.', [], 55⟩, ⟨xdigit, [], 135⟩, ⟨on ':', [], 80⟩, ⟨on ']', [], 61⟩],
    [⟨on '.', [], 55⟩, ⟨on '0', [], 140⟩,
      ⟨ranges [(49, 52), (54, 57), (65, 70), (97, 102)], [], 133⟩, ⟨on '5', [], 141⟩,
      ⟨on ':', [], 80⟩, ⟨on ']', [], 61⟩],
    [⟨digit, [], 138⟩, ⟨on ':', [], 80⟩, ⟨xalpha, [], 134⟩, ⟨on ']', [], 61⟩],
    [⟨on '0', [], 138⟩, ⟨ranges [(49, 57), (65, 70), (97, 102)], [], 134⟩, ⟨on ':', [], 80⟩,
      ⟨on ']', [], 61⟩],
    [⟨xdigit, [], 133⟩, ⟨on ':', [], 80⟩, ⟨on ']', [], 61⟩],
    [⟨on '.', [], 55⟩, ⟨digit, [], 144⟩, ⟨on ':', [], 131⟩, ⟨xalpha, [], 128⟩, ⟨on ']', [], 61⟩],
    [⟨on '.', [], 55⟩, ⟨digit, [], 145⟩, ⟨on ':', [], 131⟩, ⟨xalpha, [], 129⟩, ⟨on ']', [], 61⟩],
    [⟨on '.', [], 55⟩, ⟨xdigit, [], 130⟩, ⟨on ':', [], 131⟩, ⟨on ']', [], 61⟩],
    [⟨on '.', [], 55⟩, ⟨on '0', [], 147⟩,
      ⟨ranges [(49, 52), (54, 57), (65, 70), (97, 102)], [], 128⟩, ⟨on '5', [], 148⟩,
      ⟨on ':', [], 131⟩, ⟨on ']', [], 61⟩],
    [⟨digit, [], 145⟩, ⟨on ':', [], 131⟩, ⟨xalpha, [], 129⟩, ⟨on ']', [], 61⟩],
    [⟨on '0', [], 145⟩, ⟨ranges [(49, 57), (65, 70), (97, 102)], [], 129⟩, ⟨on ':', [], 131⟩,
      ⟨on ']', [], 61⟩],
    [⟨xdigit, [], 128⟩, ⟨on ':', [], 131⟩, ⟨on ']', [], 61⟩]
  ]

def edges150 (r : Bool) : List (List Edge) :=
  [
    [⟨ranges [(2, 3)], [], 48⟩, ⟨ranges [(48, 48), (51, 57)], [], 127⟩, ⟨on '1', [], 143⟩,
      ⟨on '2', [], 146⟩, ⟨xalpha, [], 149⟩],
    [⟨ranges [(2, 3)], [], 48⟩, ⟨ranges [(48, 48), (51, 57)], [], 152⟩, ⟨on '1', [], 156⟩,
      ⟨on '2', [], 159⟩, ⟨xalpha, [], 162⟩],
    [⟨on '.', [], 55⟩, ⟨xdigit, [], 153⟩, ⟨on ':', [], 131⟩],
    [⟨xdigit, [], 154⟩, ⟨on ':', [], 131⟩],
    [⟨xdigit, [], 155⟩, ⟨on ':', [], 131⟩],
    [⟨on ':', [], 131⟩],
    [⟨on '.', [], 55⟩, ⟨digit, [], 157⟩, ⟨on ':', [], 131⟩, ⟨xalpha, [], 153⟩],
    [⟨on '.', [], 55⟩, ⟨digit, [], 158⟩, ⟨on ':', [], 131⟩, ⟨xalpha, [], 154⟩],
    [⟨on '.', [], 55⟩, ⟨xdigit, [], 155⟩, ⟨on ':', [], 131⟩],
    [⟨on '.', [], 55⟩, ⟨on '0', [], 160⟩,
      ⟨ranges [(49, 52), (54, 57), (65, 70), (97, 102)], [], 153⟩, ⟨on '5', [], 161⟩,
      ⟨on ':', [], 131⟩],
    [⟨digit, [], 158⟩, ⟨on ':', [], 131⟩, ⟨xalpha, [], 154⟩],
    [⟨on '0', [], 158⟩, ⟨ranges [(49, 57), (65, 70), (97, 102)], [], 154⟩, ⟨on ':', [], 131⟩],
    [⟨xdigit, [], 153⟩, ⟨on ':', [], 131⟩],
    [⟨ranges [(2, 3)], [], 48⟩, ⟨xdigit, [], 49⟩],
    [⟨ranges [(2, 3)], [], 48⟩],
    [⟨on '\x03', [], 48⟩],
    [⟨on '\x04', [], 48⟩],
    [⟨on ':', [], 168⟩],
    [⟨ranges [(2, 5)], [], 48⟩, ⟨ranges [(48, 48), (51, 57)], [], 127⟩, ⟨on '1', [], 143⟩,
      ⟨on '2', [], 146⟩, ⟨xalpha, [], 149⟩, ⟨on ']', [], 61⟩],
    [⟨xdigit, [], 170⟩],
    [⟨on '.', [], 171⟩, ⟨xdigit, [], 170⟩],
    [⟨userinfo r, [], 172⟩],
    [⟨userinfo r, [], 172⟩, ⟨on ']', [], 61⟩],
    [⟨on ' ', [.request_path, .request_uri], 4⟩, ⟨noScheme r, [], 19⟩,
      ⟨on '#', [.request_path, .request_uri], 20⟩, ⟨on '%', [], 24⟩, ⟨scheme, [], 173⟩,
      ⟨on '/', [], 26⟩, ⟨on ':', [], 174⟩, ⟨on '?', [.request_path], 29⟩],
    [⟨on ' ', [.mark, .request_path, .request_uri], 4⟩, ⟨pchar r, [.mark], 26⟩,
      ⟨on '#', [.mark, .request_path, .request_uri], 20⟩, ⟨on '%', [.mark], 27⟩,
      ⟨on '/', [.mark], 33⟩, ⟨on '?', [.mark, .request_path], 29⟩],
    [⟨on ' ', [.request_method], 3⟩, ⟨method, [], 176⟩],
    [⟨on ' ', [.request_method], 3⟩, ⟨method, [], 177⟩],
    [⟨on ' ', [.request_method], 3⟩, ⟨method, [], 178⟩],
    [⟨on ' ', [.request_method], 3⟩, ⟨method, [], 179⟩],
    [⟨on ' ', [.request_method], 3⟩, ⟨method, [], 180⟩],
    [⟨on ' ', [.request_method], 3⟩, ⟨method, [], 181⟩],
    [⟨on ' ', [.request_method], 3⟩, ⟨method, [], 182⟩],
    [⟨on ' ', [.request_method], 3⟩, ⟨method, [], 183⟩],
    [⟨on ' ', [.request_method], 3⟩, ⟨method, [], 184⟩],
    [⟨on ' ', [.request_method], 3⟩, ⟨method, [], 185⟩],
    [⟨on ' ', [.request_method], 3⟩, ⟨method, [], 186⟩],
    [⟨on ' ', [.request_method], 3⟩, ⟨method, [], 187⟩],
    [⟨on ' ', [.request_method], 3⟩, ⟨method, [], 188⟩],
    [⟨on ' ', [.request_method], 3⟩, ⟨method, [], 189⟩],
    [⟨on ' ', [.request_method], 3⟩, ⟨method, [], 190⟩],
    [⟨on ' ', [.request_method], 3⟩, ⟨method, [], 191⟩],
    [⟨on ' ', [.request_method], 3⟩, ⟨method, [], 192⟩],
    [⟨on ' ', [.request_method], 3⟩, ⟨method, [], 193⟩],
    [⟨on ' ', [.request_method], 3⟩],
    [⟨ranges [(45, 46), (48, 57), (65, 90), (97, 122)], [], 195⟩],
    [⟨ranges [(9, 13), (32, 32), (47, 47), (62, 62)], [.request_path], 196⟩,
      ⟨ranges [(45, 46), (48, 57), (65, 90), (97, 122)], [], 195⟩],
    [⟨ranges [(0, 61), (63, 255)], [], 196⟩, ⟨on '>', [], 197⟩],
    [⟨on '\x00', [.xml, .done], 349⟩, ⟨ranges [(1, 61), (63, 255)], [], 196⟩, ⟨on '>', [], 197⟩],
    [⟨on ' ', [.request_path], 199⟩, ⟨segmentNc r, [], 202⟩, ⟨on '%', [], 203⟩, ⟨on '/', [], 208⟩],
    [⟨on '\x7b', [.mark], 200⟩]
  ]

def edges200 (r : Bool) : List (List Edge) :=
  [
    [⟨ranges [(0, 124), (126, 255)], [], 200⟩, ⟨on '\x7d', [], 201⟩],
    [⟨on '\x00', [.json, .done], 349⟩, ⟨ranges [(1, 124), (126, 255)], [], 200⟩,
      ⟨on '\x7d', [], 201⟩],
    [⟨on ' ', [.request_path], 199⟩, ⟨segmentNc r, [], 202⟩, ⟨on '%', [], 203⟩, ⟨on '/', [], 205⟩],
    [⟨xdigit, [], 204⟩],
    [⟨xdigit, [], 202⟩],
    [⟨on ' ', [.request_path], 199⟩, ⟨path r, [], 205⟩, ⟨on '%', [], 206⟩],
    [⟨xdigit, [], 207⟩],
    [⟨xdigit, [], 205⟩],
    [⟨on ' ', [.request_path], 199⟩, ⟨pchar r, [], 205⟩, ⟨on '%', [], 206⟩, ⟨on '/', [], 209⟩],
    [⟨on ' ', [.request_path], 199⟩, ⟨regName r, [], 210⟩, ⟨on '%', [], 211⟩, ⟨on '/', [], 205⟩,
      ⟨on ':', [], 213⟩, ⟨on '@', [], 217⟩, ⟨on '[', [], 222⟩],
    [⟨on ' ', [.request_path], 199⟩, ⟨regName r, [], 210⟩, ⟨on '%', [], 211⟩, ⟨on '/', [], 205⟩,
      ⟨on ':', [], 213⟩, ⟨on '@', [], 217⟩],
    [⟨xdigit, [], 212⟩],
    [⟨xdigit, [], 210⟩],
    [⟨on ' ', [.request_path], 199⟩, ⟨userinfoNoDigit r, [], 214⟩, ⟨on '%', [], 215⟩,
      ⟨on '/', [], 205⟩, ⟨digit, [], 213⟩, ⟨on '@', [], 217⟩],
    [⟨userinfo r, [], 214⟩, ⟨on '%', [], 215⟩, ⟨on '@', [], 217⟩],
    [⟨xdigit, [], 216⟩],
    [⟨xdigit, [], 214⟩],
    [⟨on ' ', [.request_path], 199⟩, ⟨regName r, [], 218⟩, ⟨on '%', [], 219⟩, ⟨on '/', [], 205⟩,
      ⟨on ':', [], 221⟩, ⟨on '[', [], 222⟩],
    [⟨on ' ', [.request_path], 199⟩, ⟨regName r, [], 218⟩, ⟨on '%', [], 219⟩, ⟨on '/', [], 205⟩,
      ⟨on ':', [], 221⟩],
    [⟨xdigit, [], 220⟩],
    [⟨xdigit, [], 218⟩],
    [⟨on ' ', [.request_path], 199⟩, ⟨on '/', [], 205⟩, ⟨digit, [], 221⟩],
    [⟨on '\x06', [], 223⟩, ⟨xdigit, [], 266⟩, ⟨on ':', [], 342⟩, ⟨on 'v', [], 344⟩],
    [⟨xdigit, [], 224⟩],
    [⟨xdigit, [], 225⟩, ⟨on ':', [], 228⟩],
    [⟨xdigit, [], 226⟩, ⟨on ':', [], 228⟩],
    [⟨xdigit, [], 227⟩, ⟨on ':', [], 228⟩],
    [⟨on ':', [], 228⟩],
    [⟨ranges [(48, 48), (51, 57)], [], 229⟩, ⟨on '1', [], 259⟩, ⟨on '2', [], 262⟩,
      ⟨xalpha, [], 265⟩],
    [⟨on '.', [], 230⟩, ⟨xdigit, [], 252⟩, ⟨on ':', [], 255⟩],
    [⟨ranges [(48, 48), (51, 57)], [], 231⟩, ⟨on '1', [], 247⟩, ⟨on '2', [], 249⟩],
    [⟨on '.', [], 232⟩],
    [⟨ranges [(48, 48), (51, 57)], [], 233⟩, ⟨on '1', [], 242⟩, ⟨on '2', [], 244⟩],
    [⟨on '.', [], 234⟩],
    [⟨ranges [(48, 48), (51, 57)], [], 235⟩, ⟨on '1', [], 237⟩, ⟨on '2', [], 239⟩],
    [⟨on ']', [], 236⟩],
    [⟨on ' ', [.request_path], 199⟩, ⟨on '/', [], 205⟩, ⟨on ':', [], 221⟩],
    [⟨digit, [], 238⟩, ⟨on ']', [], 236⟩],
    [⟨digit, [], 235⟩, ⟨on ']', [], 236⟩],
    [⟨on '0', [], 240⟩, ⟨on '5', [], 241⟩, ⟨on ']', [], 236⟩],
    [⟨digit, [], 235⟩],
    [⟨on '0', [], 235⟩],
    [⟨on '.', [], 234⟩, ⟨digit, [], 243⟩],
    [⟨on '.', [], 234⟩, ⟨digit, [], 233⟩],
    [⟨on '.', [], 234⟩, ⟨on '0', [], 245⟩, ⟨on '5', [], 246⟩],
    [⟨digit, [], 233⟩],
    [⟨on '0', [], 233⟩],
    [⟨on '.', [], 232⟩, ⟨digit, [], 248⟩],
    [⟨on '.', [], 232⟩, ⟨digit, [], 231⟩],
    [⟨on '.', [], 232⟩, ⟨on '0', [], 250⟩, ⟨on '5', [], 251⟩]
  ]

def edges250 : List (List Edge) :=
  [
    [⟨digit, [], 231⟩],
    [⟨on '0', [], 231⟩],
    [⟨xdigit, [], 253⟩, ⟨on ':', [], 255⟩],
    [⟨xdigit, [], 254⟩, ⟨on ':', [], 255⟩],
    [⟨on ':', [], 255⟩],
    [⟨xdigit, [], 256⟩],
    [⟨xdigit, [], 257⟩, ⟨on ']', [], 236⟩],
    [⟨xdigit, [], 258⟩, ⟨on ']', [], 236⟩],
    [⟨xdigit, [], 235⟩, ⟨on ']', [], 236⟩],
    [⟨on '.', [], 230⟩, ⟨digit, [], 260⟩, ⟨on ':', [], 255⟩, ⟨xalpha, [], 252⟩],
    [⟨on '.', [], 230⟩, ⟨digit, [], 261⟩, ⟨on ':', [], 255⟩, ⟨xalpha, [], 253⟩],
    [⟨on '.', [], 230⟩, ⟨xdigit, [], 254⟩, ⟨on ':', [], 255⟩],
    [⟨on '.', [], 230⟩, ⟨on '0', [], 263⟩,
      ⟨ranges [(49, 52), (54, 57), (65, 70), (97, 102)], [], 252⟩, ⟨on '5', [], 264⟩,
      ⟨on ':', [], 255⟩],
    [⟨digit, [], 261⟩, ⟨on ':', [], 255⟩, ⟨xalpha, [], 253⟩],
    [⟨on '0', [], 261⟩, ⟨ranges [(49, 57), (65, 70), (97, 102)], [], 253⟩, ⟨on ':', [], 255⟩],
    [⟨xdigit, [], 252⟩, ⟨on ':', [], 255⟩],
    [⟨xdigit, [], 267⟩, ⟨on ':', [], 270⟩],
    [⟨xdigit, [], 268⟩, ⟨on ':', [], 270⟩],
    [⟨xdigit, [], 269⟩, ⟨on ':', [], 270⟩],
    [⟨on ':', [], 270⟩],
    [⟨xdigit, [], 271⟩, ⟨on ':', [], 341⟩],
    [⟨xdigit, [], 272⟩, ⟨on ':', [], 275⟩],
    [⟨xdigit, [], 273⟩, ⟨on ':', [], 275⟩],
    [⟨xdigit, [], 274⟩, ⟨on ':', [], 275⟩],
    [⟨on ':', [], 275⟩],
    [⟨xdigit, [], 276⟩, ⟨on ':', [], 340⟩],
    [⟨xdigit, [], 277⟩, ⟨on ':', [], 280⟩],
    [⟨xdigit, [], 278⟩, ⟨on ':', [], 280⟩],
    [⟨xdigit, [], 279⟩, ⟨on ':', [], 280⟩],
    [⟨on ':', [], 280⟩],
    [⟨xdigit, [], 281⟩, ⟨on ':', [], 339⟩],
    [⟨xdigit, [], 282⟩, ⟨on ':', [], 285⟩],
    [⟨xdigit, [], 283⟩, ⟨on ':', [], 285⟩],
    [⟨xdigit, [], 284⟩, ⟨on ':', [], 285⟩],
    [⟨on ':', [], 285⟩],
    [⟨xdigit, [], 286⟩, ⟨on ':', [], 338⟩],
    [⟨xdigit, [], 287⟩, ⟨on ':', [], 290⟩],
    [⟨xdigit, [], 288⟩, ⟨on ':', [], 290⟩],
    [⟨xdigit, [], 289⟩, ⟨on ':', [], 290⟩],
    [⟨on ':', [], 290⟩],
    [⟨xdigit, [], 291⟩, ⟨on ':', [], 326⟩],
    [⟨xdigit, [], 292⟩, ⟨on ':', [], 295⟩],
    [⟨xdigit, [], 293⟩, ⟨on ':', [], 295⟩],
    [⟨xdigit, [], 294⟩, ⟨on ':', [], 295⟩],
    [⟨on ':', [], 295⟩],
    [⟨xdigit, [], 296⟩, ⟨on ':', [], 325⟩],
    [⟨xdigit, [], 297⟩, ⟨on ':', [], 300⟩],
    [⟨xdigit, [], 298⟩, ⟨on ':', [], 300⟩],
    [⟨xdigit, [], 299⟩, ⟨on ':', [], 300⟩],
    [⟨on ':', [], 300⟩]
  ]

def edges300 (r : Bool) : List (List Edge) :=
  [
    [⟨xdigit, [], 296⟩, ⟨on ':', [], 301⟩],
    [⟨ranges [(2, 3)], [], 223⟩, ⟨ranges [(48, 48), (51, 57)], [], 302⟩, ⟨on '1', [], 318⟩,
      ⟨on '2', [], 321⟩, ⟨xalpha, [], 324⟩, ⟨on ']', [], 236⟩],
    [⟨on '.', [], 230⟩, ⟨xdigit, [], 303⟩, ⟨on ':', [], 306⟩, ⟨on ']', [], 236⟩],
    [⟨xdigit, [], 304⟩, ⟨on ':', [], 306⟩, ⟨on ']', [], 236⟩],
    [⟨xdigit, [], 305⟩, ⟨on ':', [], 306⟩, ⟨on ']', [], 236⟩],
    [⟨on ':', [], 306⟩, ⟨on ']', [], 236⟩],
    [⟨ranges [(48, 48), (51, 57)], [], 307⟩, ⟨on '1', [], 311⟩, ⟨on '2', [], 314⟩,
      ⟨xalpha, [], 317⟩],
    [⟨on '.', [], 230⟩, ⟨xdigit, [], 308⟩, ⟨on ':', [], 255⟩, ⟨on ']', [], 236⟩],
    [⟨xdigit, [], 309⟩, ⟨on ':', [], 255⟩, ⟨on ']', [], 236⟩],
    [⟨xdigit, [], 310⟩, ⟨on ':', [], 255⟩, ⟨on ']', [], 236⟩],
    [⟨on ':', [], 255⟩, ⟨on ']', [], 236⟩],
    [⟨on '.', [], 230⟩, ⟨digit, [], 312⟩, ⟨on ':', [], 255⟩, ⟨xalpha, [], 308⟩, ⟨on ']', [], 236⟩],
    [⟨on '.', [], 230⟩, ⟨digit, [], 313⟩, ⟨on ':', [], 255⟩, ⟨xalpha, [], 309⟩, ⟨on ']', [], 236⟩],
    [⟨on '.', [], 230⟩, ⟨xdigit, [], 310⟩, ⟨on ':', [], 255⟩, ⟨on ']', [], 236⟩],
    [⟨on '.', [], 230⟩, ⟨on '0', [], 315⟩,
      ⟨ranges [(49, 52), (54, 57), (65, 70), (97, 102)], [], 308⟩, ⟨on '5', [], 316⟩,
      ⟨on ':', [], 255⟩, ⟨on ']', [], 236⟩],
    [⟨digit, [], 313⟩, ⟨on ':', [], 255⟩, ⟨xalpha, [], 309⟩, ⟨on ']', [], 236⟩],
    [⟨on '0', [], 313⟩, ⟨ranges [(49, 57), (65, 70), (97, 102)], [], 309⟩, ⟨on ':', [], 255⟩,
      ⟨on ']', [], 236⟩],
    [⟨xdigit, [], 308⟩, ⟨on ':', [], 255⟩, ⟨on ']', [], 236⟩],
    [⟨on '.', [], 230⟩, ⟨digit, [], 319⟩, ⟨on ':', [], 306⟩, ⟨xalpha, [], 303⟩, ⟨on ']', [], 236⟩],
    [⟨on '.', [], 230⟩, ⟨digit, [], 320⟩, ⟨on ':', [], 306⟩, ⟨xalpha, [], 304⟩, ⟨on ']', [], 236⟩],
    [⟨on '.', [], 230⟩, ⟨xdigit, [], 305⟩, ⟨on ':', [], 306⟩, ⟨on ']', [], 236⟩],
    [⟨on '.', [], 230⟩, ⟨on '0', [], 322⟩,
      ⟨ranges [(49, 52), (54, 57), (65, 70), (97, 102)], [], 303⟩, ⟨on '5', [], 323⟩,
      ⟨on ':', [], 306⟩, ⟨on ']', [], 236⟩],
    [⟨digit, [], 320⟩, ⟨on ':', [], 306⟩, ⟨xalpha, [], 304⟩, ⟨on ']', [], 236⟩],
    [⟨on '0', [], 320⟩, ⟨ranges [(49, 57), (65, 70), (97, 102)], [], 304⟩, ⟨on ':', [], 306⟩,
      ⟨on ']', [], 236⟩],
    [⟨xdigit, [], 303⟩, ⟨on ':', [], 306⟩, ⟨on ']', [], 236⟩],
    [⟨ranges [(2, 3)], [], 223⟩, ⟨ranges [(48, 48), (51, 57)], [], 302⟩, ⟨on '1', [], 318⟩,
      ⟨on '2', [], 321⟩, ⟨xalpha, [], 324⟩],
    [⟨ranges [(2, 3)], [], 223⟩, ⟨ranges [(48, 48), (51, 57)], [], 327⟩, ⟨on '1', [], 331⟩,
      ⟨on '2', [], 334⟩, ⟨xalpha, [], 337⟩],
    [⟨on '.', [], 230⟩, ⟨xdigit, [], 328⟩, ⟨on ':', [], 306⟩],
    [⟨xdigit, [], 329⟩, ⟨on ':', [], 306⟩],
    [⟨xdigit, [], 330⟩, ⟨on ':', [], 306⟩],
    [⟨on ':', [], 306⟩],
    [⟨on '.', [], 230⟩, ⟨digit, [], 332⟩, ⟨on ':', [], 306⟩, ⟨xalpha, [], 328⟩],
    [⟨on '.', [], 230⟩, ⟨digit, [], 333⟩, ⟨on ':', [], 306⟩, ⟨xalpha, [], 329⟩],
    [⟨on '.', [], 230⟩, ⟨xdigit, [], 330⟩, ⟨on ':', [], 306⟩],
    [⟨on '.', [], 230⟩, ⟨on '0', [], 335⟩,
      ⟨ranges [(49, 52), (54, 57), (65, 70), (97, 102)], [], 328⟩, ⟨on '5', [], 336⟩,
      ⟨on ':', [], 306⟩],
    [⟨digit, [], 333⟩, ⟨on ':', [], 306⟩, ⟨xalpha, [], 329⟩],
    [⟨on '0', [], 333⟩, ⟨ranges [(49, 57), (65, 70), (97, 102)], [], 329⟩, ⟨on ':', [], 306⟩],
    [⟨xdigit, [], 328⟩, ⟨on ':', [], 306⟩],
    [⟨ranges [(2, 3)], [], 223⟩, ⟨xdigit, [], 224⟩],
    [⟨ranges [(2, 3)], [], 223⟩],
    [⟨on '\x03', [], 223⟩],
    [⟨on '\x04', [], 223⟩],
    [⟨on ':', [], 343⟩],
    [⟨ranges [(2, 5)], [], 223⟩, ⟨ranges [(48, 48), (51, 57)], [], 302⟩, ⟨on '1', [], 318⟩,
      ⟨on '2', [], 321⟩, ⟨xalpha, [], 324⟩, ⟨on ']', [], 236⟩],
    [⟨xdigit, [], 345⟩],
    [⟨on '.', [], 346⟩, ⟨xdigit, [], 345⟩],
    [⟨userinfo r, [], 347⟩],
    [⟨userinfo r, [], 347⟩, ⟨on ']', [], 236⟩],
    [⟨token, [], 14⟩, ⟨on ':', [.write_field], 15⟩],
    []
  ]

def edges (r : Bool) : List (List Edge) :=
  [] :: edges1 r ++ edges50 ++ edges100 ++ edges150 r ++ edges200 r ++ edges250 ++ edges300 r

end Table

def inRange (b : UInt8) (rs : List (Nat × Nat)) : Bool :=
  rs.any (fun range => range.1 ≤ b.toNat && b.toNat ≤ range.2)

def edgesFrom (uri_relaxed : Bool) (cs : Nat) : List Edge :=
  ((Table.edges uri_relaxed)[cs]?).getD []

def trans (uri_relaxed : Bool) (cs : Nat) (b : UInt8) : List Action × Nat :=
  match (edgesFrom uri_relaxed cs).find? (fun e => inRange b e.range) with
  | some e => (e.actions, e.target)
  | none => ([], http_parser_error)

end Http
end CXS
