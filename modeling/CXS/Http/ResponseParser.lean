import CXS.Http.ClientTable
import CXS.Http.Dump
import CXS.Http.Parser

/-!
This module contains `httpclient_parser_execute` with the actions of `httpclient_parser.rl`, and the
`HttpResponseParser` of `http/http_parser.cc` around it with its callbacks.

The machine keeps offsets into the buffer of the current call in `mark`, `field_start` and
`field_len`. It sets all of them to `0` when a call starts, so none is ahead of the current byte.
`body_start` survives a call. A failed `assert` ends the program. This is the result `none`.

The machine writes `content_len`, `status`, `chunked`, `chunks_done` and `close` and no one reads
them, except to choose between `on_response_chunk` and `on_response_last_chunk`, which are empty.
-/

namespace CXS
namespace Http

def toSize (n : Int) : Nat :=
  (n % 2 ^ 64).toNat

def ptrOffset (n : Nat) : Int :=
  Int.bmod n (2 ^ 64)

-- `memmove(data, data + src, n)`, without a result if it reads or writes outside of `data`
def memmove (data : List UInt8) (src : Int) (n : Nat) : Option (List UInt8) :=
  if 0 ≤ src ∧ src + n ≤ data.length then
    some (data.overwrite 0 ((data.drop src.toNat).take n))
  else
    none

def isspace (c : UInt8) : Bool :=
  c = 32 || 9 ≤ c && c ≤ 13

def isdigit (c : UInt8) : Bool :=
  48 ≤ c && c ≤ 57

def digits (s : List UInt8) : Nat :=
  (s.takeWhile isdigit).foldl (fun n c => 10 * n + (c.toNat - 48)) 0

-- `strtol`, which stops at the limits of a `long`, cut down to an `int`
def atoi (s : List UInt8) : Int :=
  match s.dropWhile isspace with
  | [] => 0
  | c :: s =>
    if c = 45 then
      Int.bmod (max (-digits s) (-2 ^ 63)) (2 ^ 32)
    else if c = 43 then
      Int.bmod (min (digits s) (2 ^ 63 - 1)) (2 ^ 32)
    else
      Int.bmod (min (digits (c :: s)) (2 ^ 63 - 1)) (2 ^ 32)

namespace Client

structure HttpclientParser where
  cs : Nat
  body_start : Nat
  mark : Nat
  field_start : Nat
  field_len : Nat
  deriving DecidableEq, Repr

def httpclientParserInit : HttpclientParser where
  cs := httpclient_parser_start
  body_start := 0
  mark := 0
  field_start := 0
  field_len := 0

def httpclientParserHasError (parser : HttpclientParser) : Bool :=
  parser.cs == httpclient_parser_error

def httpclientParserIsFinished (parser : HttpclientParser) : Bool :=
  parser.cs == httpclient_parser_first_final

end Client

structure HttpResponseParser where
  m_httpclientParser : Client.HttpclientParser
  m_data : HttpResponse
  m_error : Nat
  deriving DecidableEq, Repr

namespace HttpResponseParser

def new : HttpResponseParser where
  m_httpclientParser := Client.httpclientParserInit
  m_data := HttpResponse.new 0x11 true
  m_error := 0

def setError (parser : HttpResponseParser) (v : Nat) : HttpResponseParser :=
  { parser with m_error := v }

def onResponseReason (parser : HttpResponseParser) (ptr : List UInt8) (length : Nat)
    : HttpResponseParser :=
  { parser with m_data := { parser.m_data with m_reason := string ptr length } }

def onResponseStatus (parser : HttpResponseParser) (ptr : List UInt8) : HttpResponseParser :=
  { parser with m_data := { parser.m_data with m_status := .ofInt (atoi ptr) } }

def onResponseVersion (parser : HttpResponseParser) (ptr : List UInt8) (length : Nat)
    : HttpResponseParser :=
  if strncmp ptr (bytes "HTTP/1.1") length then
    { parser with m_data := { parser.m_data with m_version := 0x11 } }
  else if strncmp ptr (bytes "HTTP/1.0") length then
    { parser with m_data := { parser.m_data with m_version := 0x10 } }
  else
    parser.setError 1001

def onResponseHttpField (parser : HttpResponseParser) (field : List UInt8) (flen : Nat)
    (value : List UInt8) (vlen : Nat) : HttpResponseParser :=
  if flen = 0 then
    parser.setError 1002
  else
    { parser with m_data := parser.m_data.setHeader (string field flen) (string value vlen) }

def hasError (parser : HttpResponseParser) : Bool :=
  parser.m_error != 0 || Client.httpclientParserHasError parser.m_httpclientParser

def isFinished (parser : HttpResponseParser) : Bool :=
  Client.httpclientParserIsFinished parser.m_httpclientParser

end HttpResponseParser

namespace Client

def Action.run (buffer : List UInt8) (p : Nat) (parser : HttpResponseParser) (a : Action)
    : HttpResponseParser :=
  let m := parser.m_httpclientParser
  match a with
  | .mark | .start_value => { parser with m_httpclientParser := { m with mark := p } }
  | .start_field => { parser with m_httpclientParser := { m with field_start := p } }
  | .write_field => { parser with m_httpclientParser := { m with field_len := p - m.field_start } }
  | .write_value =>
    parser.onResponseHttpField (buffer.drop m.field_start) m.field_len (buffer.drop m.mark)
      (p - m.mark)
  | .reason_phrase => parser.onResponseReason (buffer.drop m.mark) (p - m.mark)
  | .status_code => parser.onResponseStatus (buffer.drop m.mark)
  | .http_version => parser.onResponseVersion (buffer.drop m.mark) (p - m.mark)
  | .done => { parser with m_httpclientParser := { m with body_start := p + 1 } }
  | .write_content_len | .write_connection_close | .chunk_size | .trans_chunked => parser

def setState (parser : HttpResponseParser) (cs : Nat) : HttpResponseParser :=
  { parser with m_httpclientParser := { parser.m_httpclientParser with cs := cs } }

def exec (buffer : List UInt8) (p : Nat) (rest : List UInt8) (parser : HttpResponseParser)
    : Nat × HttpResponseParser :=
  match rest with
  | [] => (p, parser)
  | b :: rest =>
    let (actions, cs) := trans parser.m_httpclientParser.cs b
    let parser := setState (actions.foldl (Action.run buffer p) parser) cs
    if cs = httpclient_parser_error then
      (p, parser)
    else if .done ∈ actions then
      (p + 1, parser)
    else
      exec buffer (p + 1) rest parser

def reset (parser : HttpResponseParser) : HttpResponseParser :=
  { parser with
    m_httpclientParser :=
      { parser.m_httpclientParser with mark := 0, field_len := 0, field_start := 0 } }

def httpclientParserExecute (parser : HttpResponseParser) (buffer : List UInt8) (len : Nat)
    : Option (Int × HttpResponseParser) :=
  -- `assert(pe - p == (int)len - (int)off)`
  if toInt len = len then
    let (nread, parser) := exec buffer 0 (buffer.take len) (reset parser)
    let m := parser.m_httpclientParser
    -- `assert(parser->nread <= len)` and `assert(parser->body_start <= len)`
    if nread ≤ len ∧ m.body_start ≤ len then
      if m.mark < len ∧ m.field_len ≤ len ∧ m.field_start < len then
        some (toInt nread, parser)
      else
        some (-1, parser)
    else
      none
  else
    none

end Client

-- `execute` on a chunk with the `\0` behind it, with the chunk after its `memmove`
def HttpResponseParser.execute (parser : HttpResponseParser) (data : List UInt8)
    : Option (Nat × Option (List UInt8) × HttpResponseParser) :=
  (Client.httpclientParserExecute parser (data ++ [0]) data.length).map fun (code, parser) =>
    let rt := toSize code
    (rt, memmove data (ptrOffset rt) (toSize (data.length - rt)), parser)

end Http
end CXS
