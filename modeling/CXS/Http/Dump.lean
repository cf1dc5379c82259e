import Mathlib.Algebra.Group.Nat.Defs
import Mathlib.Algebra.Group.Int.Defs
import CXS.Http.Message
import CXS.Util.Lines

/-!
This module contains `HttpRequest::dump` and `HttpResponse::dump` from `http/http.cc`.

`m_close` of a request is an argument, as nothing but the constructor and `setClose` writes it. A
`char const*` ends at its first `\0`, a `std::string` does not.
-/

namespace CXS
namespace Http

open Lines (crlf decimal)

inductive HttpStatus where
  | CONTINUE
  | SWITCHING_PROTOCOLS
  | PROCESSING
  | OK
  | CREATED
  | ACCEPTED
  | NON_AUTHORITATIVE_INFORMATION
  | NO_CONTENT
  | RESET_CONTENT
  | PARTIAL_CONTENT
  | MULTI_STATUS
  | ALREADY_REPORTED
  | IM_USED
  | MULTIPLE_CHOICES
  | MOVED_PERMANENTLY
  | FOUND
  | SEE_OTHER
  | NOT_MODIFIED
  | USE_PROXY
  | TEMPORARY_REDIRECT
  | PERMANENT_REDIRECT
  | BAD_REQUEST
  | UNAUTHORIZED
  | PAYMENT_REQUIRED
  | FORBIDDEN
  | NOT_FOUND
  | METHOD_NOT_ALLOWED
  | NOT_ACCEPTABLE
  | PROXY_AUTHENTICATION_REQUIRED
  | REQUEST_TIMEOUT
  | CONFLICT
  | GONE
  | LENGTH_REQUIRED
  | PRECONDITION_FAILED
  | PAYLOAD_TOO_LARGE
  | URI_TOO_LONG
  | UNSUPPORTED_MEDIA_TYPE
  | RANGE_NOT_SATISFIABLE
  | EXPECTATION_FAILED
  | MISDIRECTED_REQUEST
  | UNPROCESSABLE_ENTITY
  | LOCKED
  | FAILED_DEPENDENCY
  | UPGRADE_REQUIRED
  | PRECONDITION_REQUIRED
  | TOO_MANY_REQUESTS
  | REQUEST_HEADER_FIELDS_TOO_LARGE
  | UNAVAILABLE_FOR_LEGAL_REASONS
  | INTERNAL_SERVER_ERROR
  | NOT_IMPLEMENTED
  | BAD_GATEWAY
  | SERVICE_UNAVAILABLE
  | GATEWAY_TIMEOUT
  | HTTP_VERSION_NOT_SUPPORTED
  | VARIANT_ALSO_NEGOTIATES
  | INSUFFICIENT_STORAGE
  | LOOP_DETECTED
  | NOT_EXTENDED
  | NETWORK_AUTHENTICATION_REQUIRED
  | other (code : Int)
  deriving DecidableEq, Repr

def httpStatusMap : List (HttpStatus × Nat × String) :=
  [
    (.CONTINUE, 100, "Continue"),
    (.SWITCHING_PROTOCOLS, 101, "Switching Protocols"),
    (.PROCESSING, 102, "Processing"),
    (.OK, 200, "OK"),
    (.CREATED, 201, "Created"),
    (.ACCEPTED, 202, "Accepted"),
    (.NON_AUTHORITATIVE_INFORMATION, 203, "Non - Authoritative Information"),
    (.NO_CONTENT, 204, "No Content"),
    (.RESET_CONTENT, 205, "Reset Content"),
    (.PARTIAL_CONTENT, 206, "Partial Content"),
    (.MULTI_STATUS, 207, "Multi - Status"),
    (.ALREADY_REPORTED, 208, "Already Reported"),
    (.IM_USED, 226, "IM Used"),
    (.MULTIPLE_CHOICES, 300, "Multiple Choices"),
    (.MOVED_PERMANENTLY, 301, "Moved Permanently"),
    (.FOUND, 302, "Found"),
    (.SEE_OTHER, 303, "See Other"),
    (.NOT_MODIFIED, 304, "Not Modified"),
    (.USE_PROXY, 305, "Use Proxy"),
    (.TEMPORARY_REDIRECT, 307, "Temporary Redirect"),
    (.PERMANENT_REDIRECT, 308, "Permanent Redirect"),
    (.BAD_REQUEST, 400, "Bad Request"),
    (.UNAUTHORIZED, 401, "Unauthorized"),
    (.PAYMENT_REQUIRED, 402, "Payment Required"),
    (.FORBIDDEN, 403, "Forbidden"),
    (.NOT_FOUND, 404, "Not Found"),
    (.METHOD_NOT_ALLOWED, 405, "Method Not Allowed"),
    (.NOT_ACCEPTABLE, 406, "Not Acceptable"),
    (.PROXY_AUTHENTICATION_REQUIRED, 407, "Proxy Authentication Required"),
    (.REQUEST_TIMEOUT, 408, "Request Timeout"),
    (.CONFLICT, 409, "Conflict"),
    (.GONE, 410, "Gone"),
    (.LENGTH_REQUIRED, 411, "Length Required"),
    (.PRECONDITION_FAILED, 412, "Precondition Failed"),
    (.PAYLOAD_TOO_LARGE, 413, "Payload Too Large"),
    (.URI_TOO_LONG, 414, "URI Too Long"),
    (.UNSUPPORTED_MEDIA_TYPE, 415, "Unsupported Media Type"),
    (.RANGE_NOT_SATISFIABLE, 416, "Range Not Satisfiable"),
    (.EXPECTATION_FAILED, 417, "Expectation Failed"),
    (.MISDIRECTED_REQUEST, 421, "Misdirected Request"),
    (.UNPROCESSABLE_ENTITY, 422, "Unprocessable Entity"),
    (.LOCKED, 423, "Locked"),
    (.FAILED_DEPENDENCY, 424, "Failed Dependency"),
    (.UPGRADE_REQUIRED, 426, "Upgrade Required"),
    (.PRECONDITION_REQUIRED, 428, "Precondition Required"),
    (.TOO_MANY_REQUESTS, 429, "Too Many Requests"),
    (.REQUEST_HEADER_FIELDS_TOO_LARGE, 431, "Request Header Fields Too Large"),
    (.UNAVAILABLE_FOR_LEGAL_REASONS, 451, "Unavailable For Legal Reasons"),
    (.INTERNAL_SERVER_ERROR, 500, "Internal Server Error"),
    (.NOT_IMPLEMENTED, 501, "Not Implemented"),
    (.BAD_GATEWAY, 502, "Bad Gateway"),
    (.SERVICE_UNAVAILABLE, 503, "Service Unavailable"),
    (.GATEWAY_TIMEOUT, 504, "Gateway Timeout"),
    (.HTTP_VERSION_NOT_SUPPORTED, 505, "HTTP Version Not Supported"),
    (.VARIANT_ALSO_NEGOTIATES, 506, "Variant Also Negotiates"),
    (.INSUFFICIENT_STORAGE, 507, "Insufficient Storage"),
    (.LOOP_DETECTED, 508, "Loop Detected"),
    (.NOT_EXTENDED, 510, "Not Extended"),
    (.NETWORK_AUTHENTICATION_REQUIRED, 511, "Network Authentication Required")
  ]

def HttpMethodToString (method : HttpMethod) : List UInt8 :=
  match httpMethodMap.find? (fun entry => entry.1 = method) with
  | some entry => bytes entry.2
  | none => bytes "<unknown>"

def HttpStatusToString (status : HttpStatus) : List UInt8 :=
  match httpStatusMap.find? (fun entry => entry.1 = status) with
  | some entry => bytes entry.2.2
  | none => bytes "<unknown>"

def HttpStatus.num (status : HttpStatus) : Nat :=
  match status with
  | .other code => (code % 2 ^ 32).toNat
  | status =>
    match httpStatusMap.find? (fun entry => entry.1 = status) with
    | some entry => entry.2.1
    | none => 0

def HttpStatus.ofInt (code : Int) : HttpStatus :=
  match httpStatusMap.find? (fun entry => (entry.2.1 : Int) = code) with
  | some entry => entry.1
  | none => .other code

structure HttpResponse where
  m_status : HttpStatus
  m_version : UInt8
  m_close : Bool
  m_body : List UInt8
  m_reason : List UInt8
  m_headers : MapType
  deriving DecidableEq, Repr

def HttpResponse.new (version : UInt8) (close : Bool) : HttpResponse where
  m_status := .OK
  m_version := version
  m_close := close
  m_body := []
  m_reason := []
  m_headers := []

def versionText (m_version : UInt8) : List UInt8 :=
  bytes "HTTP/" ++ decimal (m_version >>> 4).toNat ++ bytes "." ++ decimal (m_version &&& 0x0f).toNat

def HttpResponse.setHeader (rsp : HttpResponse) (key value : List UInt8) : HttpResponse :=
  { rsp with m_headers := rsp.m_headers.set key value }

def dumpHeaders (os : List UInt8) : MapType → List UInt8
  | [] => os
  | header :: m_headers =>
    if sameKey header.1 (bytes "connection") then
      dumpHeaders os m_headers
    else
      dumpHeaders (os ++ header.1 ++ bytes ": " ++ header.2 ++ crlf) m_headers

def dumpConnection (os : List UInt8) (m_close : Bool) : List UInt8 :=
  os ++ bytes "connection: " ++ (if m_close then bytes "close" else bytes "keep-alive") ++ crlf

def dumpBody (os : List UInt8) (m_body : List UInt8) : List UInt8 :=
  if !m_body.isEmpty then
    os ++ bytes "content-length: " ++ decimal m_body.length ++ crlf ++ crlf ++ m_body
  else
    os ++ crlf ++ m_body

def HttpRequest.startLine (req : HttpRequest) : List UInt8 :=
  HttpMethodToString req.m_method ++ bytes " " ++ req.m_path
    ++ (if req.m_query.isEmpty then [] else bytes "?") ++ req.m_query
    ++ (if req.m_fragment.isEmpty then [] else bytes "#") ++ req.m_fragment
    ++ bytes " " ++ versionText req.m_version

def HttpRequest.dump (req : HttpRequest) (m_close : Bool) : List UInt8 :=
  let os := req.startLine ++ crlf
  let os := dumpConnection os m_close
  let os := dumpHeaders os req.m_headers
  dumpBody os req.m_body

def HttpResponse.startLine (rsp : HttpResponse) : List UInt8 :=
  versionText rsp.m_version ++ bytes " " ++ decimal rsp.m_status.num ++ bytes " "
    ++ (if rsp.m_reason.isEmpty then HttpStatusToString rsp.m_status else rsp.m_reason)

def HttpResponse.dump (rsp : HttpResponse) : List UInt8 :=
  let os := rsp.startLine ++ crlf
  let os := dumpHeaders os rsp.m_headers
  let os := dumpConnection os rsp.m_close
  dumpBody os rsp.m_body

end Http
end CXS
