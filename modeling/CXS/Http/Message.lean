import Mathlib.Data.List.Basic

/-!
This module contains the parts of `HttpRequest` from `http/http.h` and `http/http.cc` that the
request parser writes and reads: the method, the version, the pieces of the uri and the header map.

A `std::string` is the list of its bytes. `boost::lexical_cast<uint64_t>` is not part of the
repository, so it is an argument that returns `none` where it throws.
-/

namespace CXS
namespace Http

def bytes (s : String) : List UInt8 :=
  s.toList.map (fun c => UInt8.ofNat c.toNat)

inductive HttpMethod where
  | DELETE
  | GET
  | HEAD
  | POST
  | PUT
  | CONNECT
  | OPTIONS
  | TRACE
  | COPY
  | LOCK
  | MKCOL
  | MOVE
  | PROPFIND
  | PROPPATCH
  | SEARCH
  | UNLOCK
  | BIND
  | REBIND
  | UNBIND
  | ACL
  | REPORT
  | MKACTIVITY
  | CHECKOUT
  | MERGE
  | MSEARCH
  | NOTIFY
  | SUBSCRIBE
  | UNSUBSCRIBE
  | PATCH
  | PURGE
  | MKCALENDAR
  | LINK
  | UNLINK
  | SOURCE
  | HTTP_INVALID_METHOD
  deriving DecidableEq, Repr

def httpMethodMap : List (HttpMethod × String) :=
  [
    (.DELETE, "DELETE"),
    (.GET, "GET"),
    (.HEAD, "HEAD"),
    (.POST, "POST"),
    (.PUT, "PUT"),
    (.CONNECT, "CONNECT"),
    (.OPTIONS, "OPTIONS"),
    (.TRACE, "TRACE"),
    (.COPY, "COPY"),
    (.LOCK, "LOCK"),
    (.MKCOL, "MKCOL"),
    (.MOVE, "MOVE"),
    (.PROPFIND, "PROPFIND"),
    (.PROPPATCH, "PROPPATCH"),
    (.SEARCH, "SEARCH"),
    (.UNLOCK, "UNLOCK"),
    (.BIND, "BIND"),
    (.REBIND, "REBIND"),
    (.UNBIND, "UNBIND"),
    (.ACL, "ACL"),
    (.REPORT, "REPORT"),
    (.MKACTIVITY, "MKACTIVITY"),
    (.CHECKOUT, "CHECKOUT"),
    (.MERGE, "MERGE"),
    (.MSEARCH, "M - SEARCH"),
    (.NOTIFY, "NOTIFY"),
    (.SUBSCRIBE, "SUBSCRIBE"),
    (.UNSUBSCRIBE, "UNSUBSCRIBE"),
    (.PATCH, "PATCH"),
    (.PURGE, "PURGE"),
    (.MKCALENDAR, "MKCALENDAR"),
    (.LINK, "LINK"),
    (.UNLINK, "UNLINK"),
    (.SOURCE, "SOURCE")
  ]

-- `strncmp(name, method, strlen(name)) == 0` says that the memory at `method` starts with `name`
def charsToHttpMethod (method : List UInt8) : HttpMethod :=
  match httpMethodMap.find? (fun entry => (bytes entry.2).isPrefixOf method) with
  | some entry => entry.1
  | none => .HTTP_INVALID_METHOD

def tolower (c : UInt8) : UInt8 :=
  if 65 ≤ c ∧ c ≤ 90 then c + 32 else c

-- `strcasecmp(lhs, rhs) < 0`. Both strings end at their first `\0`.
def strcaseless : List UInt8 → List UInt8 → Bool
  | [], [] => false
  | [], c :: _ => c != 0
  | _ :: _, [] => false
  | c :: lhs, d :: rhs =>
    if tolower c = tolower d then
      c != 0 && strcaseless lhs rhs
    else
      tolower c < tolower d

abbrev MapType :=
  List (List UInt8 × List UInt8)

def sameKey (lhs rhs : List UInt8) : Bool :=
  !strcaseless lhs rhs && !strcaseless rhs lhs

-- `m[key] = value`, which keeps the spelling of a key that is there already
def MapType.set (m : MapType) (key value : List UInt8) : MapType :=
  match m with
  | [] => [(key, value)]
  | entry :: m =>
    if strcaseless entry.1 key then
      entry :: MapType.set m key value
    else if strcaseless key entry.1 then
      (key, value) :: entry :: m
    else
      (entry.1, value) :: m

structure HttpRequest where
  m_method : HttpMethod
  m_version : UInt8
  m_path : List UInt8
  m_query : List UInt8
  m_fragment : List UInt8
  m_body : List UInt8
  m_headers : MapType
  deriving DecidableEq, Repr

namespace HttpRequest

def new : HttpRequest where
  m_method := .GET
  m_version := 0x11
  m_path := bytes "/"
  m_query := []
  m_fragment := []
  m_body := []
  m_headers := []

def setHeader (req : HttpRequest) (key value : List UInt8) : HttpRequest :=
  { req with m_headers := req.m_headers.set key value }

def getHeaderAs (req : HttpRequest) (lexical_cast : List UInt8 → Option Nat) (key : List UInt8)
    (default : Nat) : Nat :=
  match req.m_headers.find? (fun entry => sameKey entry.1 key) with
  | none => default
  | some entry =>
    match lexical_cast entry.2 with
    | some n => n
    | none => default

end HttpRequest

end Http
end CXS
