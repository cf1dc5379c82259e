import CXS.Http.Table
import CXS.Util.Chunks
import Mathlib.Algebra.Group.Nat.Defs

/-!
This module contains `http_parser_execute` with the actions of `http11_parser.rl`, and the
`HttpRequestParser` of `http/http_parser.cc` around it with its callbacks.

A pointer that a callback is given is the memory from there on. The machine keeps offsets into the
buffer of the current call in `mark`, `field_start`, `field_len` and `query_start`. Of these only
`query_start` survives a call, so only it can lie behind the current byte. Its `LEN` is negative
then, and the `std::string` that `on_request_query` makes from it throws `std::length_error`. This
is the result `none`, and so is a failed `assert`, which ends the program.

`http_parser_init` sets neither `uri_relaxed` nor `query_start`, so both are arguments here.
-/

namespace CXS
namespace Http

structure HttpParser where
  cs : Nat
  body_start : Nat
  content_len : Int
  mark : Nat
  field_start : Nat
  field_len : Nat
  query_start : Nat
  xml_sent : Bool
  json_sent : Bool
  deriving DecidableEq, Repr

def httpParserInit (query_start : Nat) : HttpParser where
  cs := http_parser_start
  body_start := 0
  content_len := 0
  mark := 0
  field_start := 0
  field_len := 0
  query_start := query_start
  xml_sent := false
  json_sent := false

def httpParserHasError (parser : HttpParser) : Bool :=
  parser.cs == http_parser_error

def httpParserIsFinished (parser : HttpParser) : Bool :=
  decide (http_parser_first_final ≤ parser.cs)

def httpParserFinish (parser : HttpParser) : Int :=
  if httpParserHasError parser then
    -1
  else if httpParserIsFinished parser then
    1
  else
    0

structure HttpRequestParser where
  m_httpParser : HttpParser
  m_data : HttpRequest
  m_error : Nat
  deriving DecidableEq, Repr

def string (ptr : List UInt8) (length : Nat) : List UInt8 :=
  ptr.take length

def strncmp (lhs rhs : List UInt8) (n : Nat) : Bool :=
  (lhs.take n).takeWhile (· != 0) == (rhs.take n).takeWhile (· != 0)

namespace HttpRequestParser

def new (query_start : Nat) : HttpRequestParser where
  m_httpParser := httpParserInit query_start
  m_data := HttpRequest.new
  m_error := 0

def setError (parser : HttpRequestParser) (v : Nat) : HttpRequestParser :=
  { parser with m_error := v }

def onRequestMethod (parser : HttpRequestParser) (ptr : List UInt8) : HttpRequestParser :=
  let m := charsToHttpMethod ptr
  if m = .HTTP_INVALID_METHOD then
    parser.setError 1000
  else
    { parser with m_data := { parser.m_data with m_method := m } }

def onRequestUri (parser : HttpRequestParser) : HttpRequestParser :=
  parser

def onRequestFragment (parser : HttpRequestParser) (ptr : List UInt8) (length : Nat)
    : HttpRequestParser :=
  { parser with m_data := { parser.m_data with m_fragment := string ptr length } }

def onRequestPath (parser : HttpRequestParser) (ptr : List UInt8) (length : Nat)
    : HttpRequestParser :=
  { parser with m_data := { parser.m_data with m_path := string ptr length } }

def onRequestQuery (parser : HttpRequestParser) (ptr : List UInt8) (length : Nat)
    : HttpRequestParser :=
  { parser with m_data := { parser.m_data with m_query := string ptr length } }

def onRequestVersion (parser : HttpRequestParser) (ptr : List UInt8) (length : Nat)
    : HttpRequestParser :=
  if strncmp ptr (bytes "HTTP/1.1") length then
    { parser with m_data := { parser.m_data with m_version := 0x11 } }
  else if strncmp ptr (bytes "HTTP/1.0") length then
    { parser with m_data := { parser.m_data with m_version := 0x10 } }
  else
    parser.setError 1001

def onRequestHeaderDone (parser : HttpRequestParser) : HttpRequestParser :=
  parser

def onRequestHttpField (parser : HttpRequestParser) (field : List UInt8) (flen : Nat)
    (value : List UInt8) (vlen : Nat) : HttpRequestParser :=
  if flen = 0 then
    parser.setError 1002
  else
    { parser with m_data := parser.m_data.setHeader (string field flen) (string value vlen) }

def hasError (parser : HttpRequestParser) : Bool :=
  parser.m_error != 0 || httpParserHasError parser.m_httpParser

def isFinished (parser : HttpRequestParser) : Int :=
  httpParserFinish parser.m_httpParser

def getContentLength (lexical_cast : List UInt8 → Option Nat) (parser : HttpRequestParser) : Nat :=
  parser.m_data.getHeaderAs lexical_cast (bytes "content-length") 0

end HttpRequestParser

open HttpRequestParser

def Action.run (buffer : List UInt8) (p : Nat) (parser : HttpRequestParser) (a : Action)
    : Option HttpRequestParser :=
  let m := parser.m_httpParser
  match a with
  | .mark => some { parser with m_httpParser := { m with mark := p } }
  | .start_field => some { parser with m_httpParser := { m with field_start := p } }
  | .write_field => some { parser with m_httpParser := { m with field_len := p - m.field_start } }
  | .write_value =>
    some (parser.onRequestHttpField (buffer.drop m.field_start) m.field_len (buffer.drop m.mark)
      (p - m.mark))
  | .request_method => some (parser.onRequestMethod (buffer.drop m.mark))
  | .request_uri => some parser.onRequestUri
  | .fragment => some (parser.onRequestFragment (buffer.drop m.mark) (p - m.mark))
  | .start_query => some { parser with m_httpParser := { m with query_start := p } }
  | .query_string =>
    if m.query_start ≤ p then
      some (parser.onRequestQuery (buffer.drop m.query_start) (p - m.query_start))
    else
      none
  | .http_version => some (parser.onRequestVersion (buffer.drop m.mark) (p - m.mark))
  | .request_path => some (parser.onRequestPath (buffer.drop m.mark) (p - m.mark))
  | .done =>
    if m.xml_sent || m.json_sent then
      some { parser with
        m_httpParser := { m with body_start := m.mark, content_len := p - m.mark + 1 } }
    else
      let parser := { parser with m_httpParser := { m with body_start := p + 1 } }
      some parser.onRequestHeaderDone
  | .xml => some { parser with m_httpParser := { m with xml_sent := true } }
  | .json => some { parser with m_httpParser := { m with json_sent := true } }

def HttpRequestParser.setState (parser : HttpRequestParser) (cs : Nat) : HttpRequestParser :=
  { parser with m_httpParser := { parser.m_httpParser with cs := cs } }

/--
The machine from offset `p` on, where `rest` are the bytes up to the end `pe`. It stops at the byte
that leads to the error state and behind the byte of a `done`.
-/
def exec (uri_relaxed : Bool) (buffer : List UInt8) (p : Nat) (rest : List UInt8)
    (parser : HttpRequestParser) : Option (Nat × HttpRequestParser) :=
  match rest with
  | [] => some (p, parser)
  | b :: rest =>
    let (actions, cs) := trans uri_relaxed parser.m_httpParser.cs b
    match actions.foldlM (Action.run buffer p) parser with
    | none => none
    | some parser =>
      let parser := parser.setState cs
      if cs = http_parser_error then
        some (p, parser)
      else if .done ∈ actions then
        some (p + 1, parser)
      else
        exec uri_relaxed buffer (p + 1) rest parser

def HttpRequestParser.reset (parser : HttpRequestParser) : HttpRequestParser :=
  { parser with m_httpParser := { parser.m_httpParser with mark := 0, field_len := 0, field_start := 0 } }

def toInt (n : Nat) : Int :=
  Int.bmod n (2 ^ 32)

def httpParserExecute (uri_relaxed : Bool) (parser : HttpRequestParser) (buffer : List UInt8)
    (len : Nat) : Option (Nat × HttpRequestParser) :=
  if len = 0 then
    some (0, parser)
  -- `assert(pe - p == (int)len - (int)off)`
  else if toInt len = len then
    match exec uri_relaxed buffer 0 (buffer.take len) parser.reset with
    | none => none
    | some (nread, parser) =>
      let m := parser.m_httpParser
      if nread ≤ len ∧ m.body_start ≤ len ∧ m.mark < len ∧ m.field_len ≤ len
          ∧ m.field_start < len then
        some (nread, parser)
      else
        none
  else
    none

-- `execute`, with the memory after its `memmove`
def HttpRequestParser.execute (uri_relaxed : Bool) (parser : HttpRequestParser)
    (data : List UInt8) (len : Nat) : Option (Nat × List UInt8 × HttpRequestParser) :=
  match httpParserExecute uri_relaxed parser data len with
  | none => none
  | some (rt, parser) =>
    some (rt, data.overwrite 0 ((data.drop rt).take (len - rt)), parser)

end Http
end CXS
