import CXS.Http.Dump
import CXS.Http.KeepAlive

namespace CXS
namespace Http

inductive Event where
  | recvRequest
  | sendResponse (rsp : HttpResponse)
  | close
  deriving DecidableEq, Repr

-- what the calls of `recvRequest` return, up to the first that returns `nullptr`
def recvRequests (lexical_cast : List UInt8 → Option Nat)
    : List Call → Peer → List (Option HttpRequest)
  | [], _ => []
  | call :: calls, peer =>
    match nextRequest lexical_cast call peer with
    | none => [none]
    | some (req, peer) => some req :: recvRequests lexical_cast calls peer

-- the default of the constructor of `HttpRequest`, which the parser leaves as it is
def isClose (_req : HttpRequest) : Bool :=
  true

def response (m_isKeepAlive : Bool) (isClose : HttpRequest → Bool) (req : HttpRequest)
    : HttpResponse :=
  { HttpResponse.new req.m_version (isClose req || !m_isKeepAlive) with
    m_body := bytes "Hello, world!"
  }

-- the loop on the requests that it receives. The last call of `recvRequest` may still be waiting.
def serve (m_isKeepAlive : Bool) (isClose : HttpRequest → Bool) : List (Option HttpRequest) → List Event
  | [] => [.recvRequest]
  | none :: _ => [.recvRequest, .close]
  | some req :: received =>
    .recvRequest :: .sendResponse (response m_isKeepAlive isClose req)
      :: if m_isKeepAlive then serve m_isKeepAlive isClose received else [.close]

/-- Once a response that closes the connection is sent, the session is closed and nothing received. -/
def ClosesAfter (events : List Event) : Prop :=
  ∀ pre rsp post, events = pre ++ .sendResponse rsp :: post → rsp.m_close = true
    → post.head? = some .close ∧ .recvRequest ∉ post

theorem recvRequests_eq (lexical_cast : List UInt8 → Option Nat) (calls : List Call) (peer : Peer)
    : (recvRequests lexical_cast calls peer).filterMap id
        = (handleClient lexical_cast calls peer).map Prod.fst := by
  induction calls generalizing peer with
  | nil => rfl
  | cons call calls ih =>
    unfold recvRequests handleClient
    cases nextRequest lexical_cast call peer with
    | none => rfl
    | some out =>
      dsimp only
      rw [List.filterMap_cons_some (f := id) (b := out.1) rfl, List.map_cons, ih]

section ClosesAfter

variable {events : List Event}

theorem closesAfter_nil : ClosesAfter [] := by
  intro pre rsp post heq
  cases pre <;> cases heq

theorem closesAfter_recvRequest (h : ClosesAfter events) : ClosesAfter (.recvRequest :: events) := by
  intro pre rsp post heq
  cases pre with
  | nil => cases heq
  | cons event pre =>
    injection heq with _ heq
    exact h pre rsp post heq

theorem closesAfter_sendResponse {rsp : HttpResponse} (hclose : rsp.m_close = false)
    (h : ClosesAfter events) : ClosesAfter (.sendResponse rsp :: events) := by
  intro pre rsp' post heq hrsp
  cases pre with
  | nil =>
    injection heq with hevent _
    injection hevent with hevent
    rw [← hevent, hclose] at hrsp
    cases hrsp
  | cons event pre =>
    injection heq with _ heq
    exact h pre rsp' post heq hrsp

theorem ClosesAfter.of_cons {event : Event} (h : ClosesAfter (event :: events))
    : ClosesAfter events := by
  intro pre rsp post heq
  apply h (event :: pre) rsp post
  rw [heq]
  rfl

theorem closesAfter_close : ClosesAfter [.close] := by
  intro pre rsp post heq
  cases pre with
  | nil => cases heq
  | cons event pre =>
    injection heq with _ heq
    exact closesAfter_nil pre rsp post heq

theorem recvRequest_mem_serve (m_isKeepAlive : Bool) (isClose : HttpRequest → Bool)
    (received : List (Option HttpRequest)) : .recvRequest ∈ serve m_isKeepAlive isClose received := by
  unfold serve
  split <;> exact List.mem_cons_self

end ClosesAfter

theorem serve_cons_closesAfter_iff (isClose : HttpRequest → Bool) (req : HttpRequest)
    (received : List (Option HttpRequest))
    : ClosesAfter (serve true isClose (some req :: received))
        ↔ isClose req = false ∧ ClosesAfter (serve true isClose received) := by
  have hclose : (response true isClose req).m_close = isClose req := Bool.or_false (isClose req)
  have hserve : serve true isClose (some req :: received)
      = .recvRequest :: .sendResponse (response true isClose req) :: serve true isClose received := rfl
  rw [hserve]
  constructor
  . intro h
    refine ⟨?_, h.of_cons.of_cons⟩
    rw [← Bool.not_eq_true]
    intro htrue
    rw [htrue] at hclose
    exact (h [.recvRequest] _ _ rfl hclose).2 (recvRequest_mem_serve true isClose received)
  . intro ⟨hfalse, hrest⟩
    rw [hfalse] at hclose
    exact closesAfter_recvRequest (closesAfter_sendResponse hclose hrest)

theorem serve_closesAfter_iff (isClose : HttpRequest → Bool) (received : List (Option HttpRequest))
    : ClosesAfter (serve true isClose received)
        ↔ ∀ req, some req ∈ received.takeWhile Option.isSome → isClose req = false := by
  induction received with
  | nil =>
    refine iff_of_true (closesAfter_recvRequest closesAfter_nil) ?_
    intro req hreq
    cases hreq
  | cons result received ih =>
    cases result with
    | none =>
      refine iff_of_true (closesAfter_recvRequest closesAfter_close) ?_
      intro req hreq
      cases hreq
    | some req =>
      rw [serve_cons_closesAfter_iff, ih, List.takeWhile_cons_of_pos rfl]
      constructor
      . intro ⟨hclose, hrest⟩ req' hreq'
        rw [List.mem_cons] at hreq'
        rcases hreq' with heq | hmem
        . injection heq with heq
          rw [heq]
          exact hclose
        . exact hrest req' hmem
      . intro h
        exact ⟨h req List.mem_cons_self, fun req' hreq' => h req' (List.mem_cons_of_mem _ hreq')⟩

theorem serve_closesAfter_of_not_keepAlive (isClose : HttpRequest → Bool)
    (received : List (Option HttpRequest)) : ClosesAfter (serve false isClose received) := by
  unfold serve
  split
  . exact closesAfter_recvRequest closesAfter_nil
  . exact closesAfter_recvRequest closesAfter_close
  . next req received =>
    rw [if_neg Bool.false_ne_true]
    apply closesAfter_recvRequest
    intro pre rsp post heq hrsp
    cases pre with
    | nil =>
      injection heq with _ hpost
      rw [← hpost]
      exact ⟨rfl, by simp⟩
    | cons event pre =>
      injection heq with _ heq
      exact closesAfter_close pre rsp post heq hrsp

theorem handleClient_closesAfter_iff (lexical_cast : List UInt8 → Option Nat) (m_isKeepAlive : Bool)
    (calls : List Call) (peer : Peer)
    : ClosesAfter (serve m_isKeepAlive isClose (recvRequests lexical_cast calls peer))
        ↔ m_isKeepAlive = false
          ∨ ∀ call ∈ calls.head?, nextRequest lexical_cast call peer = none := by
  cases m_isKeepAlive with
  | false => exact iff_of_true (serve_closesAfter_of_not_keepAlive isClose _) (.inl rfl)
  | true =>
    have hne : ¬ true = false := by decide
    rw [serve_closesAfter_iff, or_iff_right hne]
    cases calls with
    | nil =>
      refine iff_of_true ?_ ?_
      . intro req hreq
        cases hreq
      . intro call hcall
        cases hcall
    | cons call calls =>
      unfold recvRequests
      cases hnext : nextRequest lexical_cast call peer with
      | none =>
        refine iff_of_true ?_ ?_
        . intro req hreq
          cases hreq
        . intro call' hcall
          cases hcall
          exact hnext
      | some out =>
        refine iff_of_false ?_ ?_
        . intro h
          exact absurd (h out.1 List.mem_cons_self) hne
        . intro h
          rw [h call rfl] at hnext
          cases hnext

theorem sampleGet_not_closesAfter
    : ¬ ClosesAfter (serve true isClose (recvRequests sampleCast [sampleCall] [sampleGet.bytes])) := by
  have hnext : nextRequest sampleCast sampleCall [sampleGet.bytes] = some (sampleGet.req, []) := by
    unfold nextRequest recvRequest Call.rest
    rw [recvHeader_piece _ _ _ _ (by decide) (by decide)]
    decide +kernel
  unfold recvRequests
  rw [hnext, serve_closesAfter_iff]
  intro h
  exact absurd (h sampleGet.req List.mem_cons_self) (by decide)

end Http
end CXS
