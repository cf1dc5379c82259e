import CXS.Http.RequestRoundTrip
import CXS.Http.Server

namespace CXS
namespace Http

namespace HttpRequest

def request (req : HttpRequest) (m_close : Bool) : Request where
  header := req.header m_close
  body := req.m_body
  req := req.onWire m_close

theorem request_bytes (req : HttpRequest) (m_close : Bool)
    : (req.request m_close).bytes = req.dump m_close := by
  rw [dump_eq_header]
  rfl

/--
What a request needs besides its text: a `content-length` of its own does not announce a body if
there is none, and a body is a `std::string`.
-/
structure Announces (lexical_cast : List UInt8 → Option Nat) (req : HttpRequest) : Prop where
  empty : req.m_body = [] → req.getHeaderAs lexical_cast (bytes "content-length") 0 = 0
  size : req.m_body.length < 2 ^ 64

variable {lexical_cast : List UInt8 → Option Nat} {r : Bool} {req : HttpRequest}

theorem onWire_length (hcast : ∀ n < 2 ^ 64, lexical_cast (Lines.decimal n) = some n)
    (hsorted : req.m_headers.Sorted) (h : req.Announces lexical_cast) (m_close : Bool)
    : (req.onWire m_close).getHeaderAs lexical_cast (bytes "content-length") 0
        = req.m_body.length := by
  have hother : sameKey (bytes "content-length") (bytes "connection") = false := by decide
  have hsame : sameKey (bytes "content-length") (bytes "content-length") = true := by decide
  have herase := hsorted.erase (bytes "connection")
  have hset := herase.set (bytes "connection") (connectionValue m_close)
  rw [getHeaderAs_eq]
  unfold onWire
  dsimp only
  by_cases hnil : req.m_body = []
  . have hempty := h.empty hnil
    rw [getHeaderAs_eq] at hempty
    have hbody : ((req.delHeader (bytes "connection")).setHeader (bytes "connection")
        (connectionValue m_close)).m_body.isEmpty = true := by
      rw [List.isEmpty_iff]
      exact hnil
    rw [if_pos hbody, hnil, List.length_nil]
    refine Eq.trans ?_ hempty
    unfold getAs setHeader delHeader
    dsimp only
    rw [MapType.find_set herase, hother, if_neg (by decide), MapType.find_erase, hother,
      if_neg (by decide)]
  . have hbody : ((req.delHeader (bytes "connection")).setHeader (bytes "connection")
        (connectionValue m_close)).m_body.isEmpty = false := by
      rw [List.isEmpty_eq_false_iff]
      exact hnil
    rw [hbody, if_neg (by decide)]
    unfold getAs setHeader delHeader
    dsimp only
    rw [MapType.find_set hset, hsame, if_pos rfl]
    dsimp only
    rw [hcast _ h.size]
    rfl

theorem Sendable.wellFormed (h : req.Sendable r)
    (hcast : ∀ n < 2 ^ 64, lexical_cast (Lines.decimal n) = some n)
    (hannounces : req.Announces lexical_cast) (m_close : Bool)
    : (req.request m_close).WellFormed lexical_cast r := by
  obtain ⟨parser, hexec, haccepts, hdata⟩ := h.exec_header m_close 0 [] []
  rw [List.append_nil] at hexec
  refine ⟨parser, hexec, haccepts, ?_, ?_⟩
  . unfold HttpRequestParser.getContentLength
    rw [hdata]
    exact onWire_length hcast h.sorted hannounces m_close
  . rw [hdata]
    change req.onWire m_close = { req.onWire m_close with m_body := req.m_body }
    rw [onWire_eq]

theorem httpMethodMap_not_M : ∀ entry ∈ httpMethodMap, entry.1 ≠ .MSEARCH
    → 2 ≤ (bytes entry.2).length ∧ (bytes entry.2).take 2 ≠ bytes "M " := by
  decide

theorem Sendable.lookahead (h : req.Sendable r) (m_close : Bool) {later : List UInt8} {peer : Peer}
    (hpeer : peer.flatten = req.dump m_close ++ later) : Lookahead peer := by
  intro hM
  exfalso
  obtain ⟨entry, hentry, hmethod, hname⟩ := RequestMachine.exists_method h.method.2
  obtain ⟨hlen, hne⟩ := httpMethodMap_not_M entry hentry (by rw [hmethod]; exact h.method.1)
  have hstart : bytes entry.2 <+: peer.flatten := by
    rw [hpeer, dump_eq_header, header, hname]
    simp only [List.append_assoc, List.prefix_append]
  have hlen2 : (bytes "M ").length = 2 := by decide
  have hprefix := List.prefix_of_prefix_length_le hM hstart (by rw [hlen2]; exact hlen)
  apply hne
  rw [← hlen2, ← List.prefix_iff_eq_take.mp hprefix]

end HttpRequest

structure Sent where
  call : Call
  req : HttpRequest
  m_close : Bool

namespace Sent

def request (sent : Sent) : Request :=
  sent.req.request sent.m_close

/--
The reads of each call start at clean places of the header, and the read that brings the end of a
header also brings the body and nothing that follows it.
-/
def ReadsClean : List Sent → Peer → Prop
  | [], _ => True
  | sent :: session, peer =>
    sent.call.ReadsClean peer
      ∧ (readUpTo sent.request.header.length peer).1 = sent.request.bytes.length
      ∧ ReadsClean session (readUpTo sent.request.header.length peer).2

end Sent

section Session

variable {lexical_cast : List UInt8 → Option Nat}
  (hcast : ∀ n < 2 ^ 64, lexical_cast (Lines.decimal n) = some n)

include hcast

theorem handleClient_of_readsClean {session : List Sent} {peer : Peer}
    (hsend : ∀ sent ∈ session, sent.req.Sendable sent.call.uri_relaxed
      ∧ sent.req.Announces lexical_cast)
    (hpieces : ∀ piece ∈ peer, piece ≠ [])
    (hstream : peer.flatten = session.flatMap fun sent => sent.req.dump sent.m_close)
    (hclean : Sent.ReadsClean session peer)
    : handleClient lexical_cast (session.map Sent.call) peer
        = inOrder (session.map Sent.request) := by
  induction session generalizing peer with
  | nil => rfl
  | cons sent session ih =>
    rw [List.forall_mem_cons] at hsend
    obtain ⟨hcuts, hfits, hrest⟩ := hclean
    obtain ⟨hsendable, hannounces⟩ := hsend.1
    have hbytes : ∀ session : List Sent, (session.flatMap fun sent => sent.req.dump sent.m_close)
        = (session.map Sent.request).flatMap Request.bytes := by
      intro session
      rw [List.flatMap_map]
      apply List.flatMap_congr
      intro sent _
      exact (HttpRequest.request_bytes sent.req sent.m_close).symm
    have hlook : Lookahead peer := hsendable.lookahead sent.m_close hstream
    rw [hbytes, List.map_cons, List.flatMap_cons] at hstream
    obtain ⟨hnext, hlater⟩ := nextRequest_of_fits
      (hsendable.wellFormed hcast hannounces sent.m_close) hpieces hstream hlook hcuts hfits
    rw [List.map_cons, List.map_cons, inOrder, handleClient_cons_iff]
    refine ⟨_, hnext, hlater, ?_⟩
    apply ih hsend.2 (readUpTo_pieces hpieces) _ hrest
    rw [hbytes]
    exact hlater

end Session

def Event.response? : Event → Option HttpResponse
  | .sendResponse rsp => some rsp
  | _ => none

theorem serve_responses (isClose : HttpRequest → Bool) (received : List (Option HttpRequest))
    (h : ∀ req ∈ received.dropLast, req ≠ none)
    : (serve true isClose received).filterMap Event.response?
        = (received.filterMap id).map (response true isClose) := by
  induction received with
  | nil => rfl
  | cons req received ih =>
    cases req with
    | none =>
      cases received with
      | nil => rfl
      | cons req received =>
        rw [List.dropLast_cons_cons, List.forall_mem_cons] at h
        exact absurd rfl h.1
    | some req =>
      have hrest : ∀ req ∈ received.dropLast, req ≠ none := by
        cases received with
        | nil => simp
        | cons req' received =>
          rw [List.dropLast_cons_cons, List.forall_mem_cons] at h
          exact h.2
      have hanswer : Event.response? (.sendResponse (response true isClose req))
          = some (response true isClose req) := rfl
      unfold serve
      rw [if_pos rfl, List.filterMap_cons_none rfl, List.filterMap_cons_some hanswer, ih hrest,
        List.filterMap_cons_some (f := id) (b := req) rfl, List.map_cons]

theorem recvRequests_dropLast (lexical_cast : List UInt8 → Option Nat) (calls : List Call)
    (peer : Peer) : ∀ req ∈ (recvRequests lexical_cast calls peer).dropLast, req ≠ none := by
  induction calls generalizing peer with
  | nil => simp [recvRequests]
  | cons call calls ih =>
    unfold recvRequests
    split
    . simp
    . next req peer' _ =>
      cases hrest : recvRequests lexical_cast calls peer' with
      | nil => simp
      | cons req' received =>
        rw [List.dropLast_cons_cons, List.forall_mem_cons]
        have hih := ih peer'
        rw [hrest] at hih
        exact ⟨Option.some_ne_none req, hih⟩

theorem inOrder_fst (requests : List Request)
    : (inOrder requests).map Prod.fst = requests.map Request.req := by
  induction requests with
  | nil => rfl
  | cons rq requests ih => rw [inOrder, List.map_cons, List.map_cons, ih]

/--
A peer writes requests one after the other. The calls of `recvRequest` then return these requests, each
in its turn, with the bytes of the later ones unread, and `handleClient` sends one response to each of
them, in their order.
-/
theorem handleClient_answers (lexical_cast : List UInt8 → Option Nat) (isClose : HttpRequest → Bool)
    (session : List Sent) (peer : Peer)
    (hcast : ∀ n < 2 ^ 64, lexical_cast (Lines.decimal n) = some n)
    (hsend : ∀ sent ∈ session, sent.req.Sendable sent.call.uri_relaxed
      ∧ sent.req.Announces lexical_cast)
    (hpieces : ∀ piece ∈ peer, piece ≠ [])
    (hstream : peer.flatten = session.flatMap fun sent => sent.req.dump sent.m_close)
    (hclean : Sent.ReadsClean session peer)
    : handleClient lexical_cast (session.map Sent.call) peer = inOrder (session.map Sent.request)
      ∧ (serve true isClose (recvRequests lexical_cast (session.map Sent.call) peer)).filterMap
            Event.response?
          = session.map fun sent => response true isClose (sent.req.onWire sent.m_close) := by
  have hrequests := handleClient_of_readsClean hcast hsend hpieces hstream hclean
  refine ⟨hrequests, ?_⟩
  rw [serve_responses isClose _ (recvRequests_dropLast lexical_cast _ peer), recvRequests_eq,
    hrequests, inOrder_fst, List.map_map, List.map_map]
  rfl

def castDigits (text : List UInt8) : Option Nat :=
  (Lines.number text).filter (fun n => decide (n < 2 ^ 64))

def sampleSent : Sent where
  call := sampleCall
  req := HttpRequest.sampleRequest
  m_close := false

theorem sampleSent_readUpTo (peer : Peer)
    : readUpTo sampleSent.request.header.length (sampleSent.request.bytes :: peer)
        = (sampleSent.request.bytes.length, peer) :=
  readUpTo_piece (by decide +kernel) (by decide +kernel) (by decide +kernel)

theorem handleClient_answers_twice
    : handleClient castDigits ([sampleSent, sampleSent].map Sent.call)
          [sampleSent.request.bytes, sampleSent.request.bytes]
        = inOrder ([sampleSent, sampleSent].map Sent.request)
      ∧ (serve true isClose (recvRequests castDigits ([sampleSent, sampleSent].map Sent.call)
            [sampleSent.request.bytes, sampleSent.request.bytes])).filterMap Event.response?
          = [sampleSent, sampleSent].map
              fun sent => response true isClose (sent.req.onWire sent.m_close) := by
  have hannounces : sampleSent.req.Announces castDigits := by
    constructor
    . intro h
      exact absurd h (by decide)
    . decide
  have hclean : Sent.ReadsClean [sampleSent, sampleSent]
      [sampleSent.request.bytes, sampleSent.request.bytes] := by
    refine ⟨cleanReads_stop (by decide +kernel) (by decide +kernel), ?_, ?_⟩
    . rw [sampleSent_readUpTo]
    . rw [sampleSent_readUpTo]
      refine ⟨cleanReads_stop (by decide +kernel) (by decide +kernel), ?_, trivial⟩
      rw [sampleSent_readUpTo]
  apply handleClient_answers castDigits isClose [sampleSent, sampleSent]
    [sampleSent.request.bytes, sampleSent.request.bytes]
  . intro n hn
    unfold castDigits
    rw [Lines.number_decimal, Option.filter_some, if_pos (by rw [decide_eq_true_eq]; exact hn)]
  . intro sent hsent
    rw [List.mem_cons, List.mem_singleton, or_self] at hsent
    rw [hsent]
    exact ⟨HttpRequest.sampleRequest_sendable, hannounces⟩
  . intro piece hpiece
    rw [List.mem_cons, List.mem_singleton, or_self] at hpiece
    rw [hpiece]
    decide +kernel
  . have hbytes := HttpRequest.request_bytes sampleSent.req sampleSent.m_close
    rw [List.flatMap_cons, List.flatMap_cons, List.flatMap_nil, ← hbytes]
    rfl
  . exact hclean

end Http
end CXS
