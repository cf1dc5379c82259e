import CXS.Http.Cuts

/-!
This module contains the calls of `recvRequest` that `HttpServer::handleClient` makes on one session
while the connection is kept alive, and when they return the requests of the stream.

The buffer of a call is local to it. What a read has brought beyond the end of the request is gone
with the buffer, and the next call starts with the first byte that has not been read.
-/

namespace CXS
namespace Http

def undelivered (left : Nat) (peer : Peer) : Peer :=
  match peer with
  | [] => []
  | piece :: peer =>
    if left = 0 then
      piece :: peer
    else if piece.length ≤ left then
      undelivered (left - piece.length) peer
    else
      piece.drop left :: peer

def unread (lexical_cast : List UInt8 → Option Nat) (parser : HttpRequestParser) (offset : Nat)
    (peer : Peer) : Peer :=
  let length := toInt64 (parser.getContentLength lexical_cast)
  if length > 0 ∧ length - offset > 0 then undelivered (length - offset).toNat peer else peer

def Received.next (peer : Peer) : Received → Option (HttpRequest × Peer)
  | .threw => none
  | .nullptr => none
  | .request req _ => some (req, peer)

-- what a call that returns a request does not read
def Call.rest (lexical_cast : List UInt8 → Option Nat) (call : Call) (peer : Peer) : Peer :=
  match recvHeader call.uri_relaxed call.buffer 0 (.new call.query_start) peer with
  | .threw => []
  | .nullptr => []
  | .finished parser _ offset peer => unread lexical_cast parser offset peer

def nextRequest (lexical_cast : List UInt8 → Option Nat) (call : Call) (peer : Peer)
    : Option (HttpRequest × Peer) :=
  (recvRequest lexical_cast call.memory call.uri_relaxed call.query_start call.buffer peer).next
    (call.rest lexical_cast peer)

/--
The loop of `handleClient`: the requests that the calls return up to the first that returns none,
each with the bytes that have not been read when it is returned.
-/
def handleClient (lexical_cast : List UInt8 → Option Nat)
    : List Call → Peer → List (HttpRequest × List UInt8)
  | [], _ => []
  | call :: calls, peer =>
    match nextRequest lexical_cast call peer with
    | none => []
    | some (req, peer) => (req, peer.flatten) :: handleClient lexical_cast calls peer

def Accepts (parser : HttpRequestParser) : Prop :=
  parser.hasError = false ∧ parser.isFinished ≠ 0

structure Request where
  header : List UInt8
  body : List UInt8
  req : HttpRequest
  deriving DecidableEq, Repr

namespace Request

def bytes (rq : Request) : List UInt8 :=
  rq.header ++ rq.body

/--
The machine accepts the header and nothing but the header, its `content-length` is the length of the
body, and `req` is what the header and the body say.
-/
def WellFormed (lexical_cast : List UInt8 → Option Nat) (uri_relaxed : Bool) (rq : Request) : Prop :=
  ∃ parser, exec uri_relaxed rq.header 0 rq.header (.new 0) = some (rq.header.length, parser)
    ∧ Accepts parser
    ∧ parser.getContentLength lexical_cast = rq.body.length
    ∧ rq.req = { parser.m_data with m_body := rq.body }

end Request

def inOrder : List Request → List (HttpRequest × List UInt8)
  | [] => []
  | rq :: requests => (rq.req, requests.flatMap Request.bytes) :: inOrder requests

def readUpTo (n : Nat) (peer : Peer) : Nat × Peer :=
  if n = 0 then
    (0, peer)
  else if _ : (read buff_size peer).1 = [] then
    (0, peer)
  else
    let out := readUpTo (n - (read buff_size peer).1.length) (read buff_size peer).2
    ((read buff_size peer).1.length + out.1, out.2)
termination_by peer.flatten.length
decreasing_by
  apply read_length_lt
  assumption

-- the read that brings the end of the header also brings the body, and nothing that follows it
def Fits : List Request → Peer → Prop
  | [], _ => True
  | rq :: requests, peer =>
    (readUpTo rq.header.length peer).1 = rq.bytes.length
      ∧ Fits requests (readUpTo rq.header.length peer).2

def CleanHeaders : List (Call × Request) → Peer → Prop
  | [], _ => True
  | (call, rq) :: session, peer =>
    Lookahead peer ∧ call.ReadsClean peer
      ∧ ((readUpTo rq.header.length peer).1 = rq.bytes.length
        → CleanHeaders session (readUpTo rq.header.length peer).2)

section Machine

variable {r : Bool} {buffer rest : List UInt8} {p q : Nat} {parser parser' : HttpRequestParser}

theorem exec_body (h : exec r buffer p rest parser = some (q, parser'))
    (hbody : parser.m_data.m_body = []) : parser'.m_data.m_body = [] := by
  apply exec_invariant (I := fun parser => parser.m_data.m_body = []) ?_ ?_ h hbody
  . intro p a parser parser' hrun hnil
    rw [(Action.run_keeps hrun).1]
    exact hnil
  . intro parser cs hnil
    exact hnil

theorem Accepts.ne_error (h : Accepts parser) : parser.m_httpParser.cs ≠ http_parser_error := by
  intro heq
  have hfalse := h.1
  simp [HttpRequestParser.hasError, httpParserHasError, heq] at hfalse

theorem Accepts.final (h : Accepts parser) : http_parser_first_final ≤ parser.m_httpParser.cs := by
  by_contra hlt
  apply h.2
  exact isFinished_eq_zero (by omega) h.1

def missing (cs : Nat) : Nat :=
  if cs = 3 ∨ 19 ≤ cs ∧ cs ≤ 174 then
    8
  else if 4 ≤ cs ∧ cs ≤ 11 then
    12 - cs
  else
    0

def edgeMissing (cs : Nat) (e : Edge) : Bool :=
  decide (missing cs ≤ missing e.target + 1)

theorem edges_edgeMissing (r : Bool) : tableAll r edgeMissing = true := by
  revert r
  decide +kernel

theorem missing_final {cs : Nat} (h : http_parser_first_final ≤ cs) : missing cs = 0 := by
  unfold http_parser_first_final at h
  unfold missing
  rw [if_neg (by omega), if_neg (by omega)]

theorem exec_missing (h : exec r buffer p rest parser = some (q, parser'))
    (haccepts : Accepts parser') (hcs : parser.m_httpParser.cs < http_parser_first_final)
    : p < q ∧ p + missing parser.m_httpParser.cs ≤ q := by
  induction rest generalizing p parser with
  | nil =>
    exfalso
    simp only [exec, Option.some.injEq, Prod.mk.injEq] at h
    have hfinal := haccepts.final
    rw [← h.2] at hfinal
    omega
  | cons b rest ih =>
    obtain ⟨actions, cs', parser₁, htrans, -, hcases⟩ := exec_cons_cases h
    have hmissing : cs' ≠ http_parser_error → missing parser.m_httpParser.cs ≤ missing cs' + 1 := by
      intro herror
      rcases trans_cases r (edges_edgeMissing r) htrans with ⟨-, hcs'⟩ | ⟨e, -, hedge, -, hcs'⟩
      . exact absurd hcs' herror
      . rw [hcs']
        simpa [edgeMissing] using hedge
    rcases hcases with ⟨herror, -, hparser'⟩ | ⟨herror, hdone, hq, -⟩ | ⟨herror, hdone, hrest⟩
    . exfalso
      apply haccepts.ne_error
      rw [hparser']
      exact herror
    . have hle := hmissing herror
      rw [missing_final ((trans_done_iff htrans).mp hdone)] at hle
      omega
    . have hlt : cs' < http_parser_first_final := by
        have := mt (trans_done_iff htrans).mpr hdone
        omega
      have hle := hmissing herror
      have hnext : p + 1 < q ∧ p + 1 + missing cs' ≤ q := ih hrest hlt
      omega

theorem exec_cons {b : UInt8} {actions : List Action} {cs : Nat}
    (htrans : trans r parser.m_httpParser.cs b = (actions, cs))
    (hrun : actions.foldlM (Action.run buffer p) parser = some parser')
    (herror : cs ≠ http_parser_error) (hdone : .done ∉ actions)
    : exec r buffer p (b :: rest) parser = exec r buffer (p + 1) rest (parser'.setState cs) := by
  simp only [exec, htrans, hrun]
  rw [if_neg herror, if_neg hdone]

theorem trans_M : ∀ r, trans r http_parser_start 77 = ([.mark], 2) := by
  decide

theorem trans_M_space : ∀ r, trans r 2 32 = ([.request_method], 3) := by
  decide

end Machine

section Header

variable {r : Bool} {header : List UInt8} {parser : HttpRequestParser}

theorem lookahead_header (h : exec r header 0 header (.new 0) = some (header.length, parser))
    (haccepts : Accepts parser) {post : List UInt8} (hM : bytes "M " <+: header ++ post)
    : 10 ≤ header.length := by
  cases header with
  | nil =>
    have := exec_missing h haccepts (by decide)
    simp only [List.length_nil] at this
    omega
  | cons b header =>
    have hbytes : bytes "M " = [77, 32] := by decide
    rw [hbytes, List.cons_append, List.cons_prefix_cons] at hM
    obtain ⟨rfl, hM⟩ := hM
    rw [exec_cons (trans_M r) rfl (by decide) (by decide)] at h
    cases header with
    | nil =>
      have := exec_missing h haccepts (by decide)
      simp only [List.length_singleton] at this
      omega
    | cons b header =>
      rw [List.cons_append, List.cons_prefix_cons] at hM
      obtain ⟨rfl, -⟩ := hM
      rw [exec_cons (trans_M_space r) rfl (by decide) (by decide)] at h
      have hmissing := exec_missing h haccepts (show 3 < http_parser_first_final by decide)
      have h3 : missing 3 = 8 := by decide
      simp only [HttpRequestParser.setState, h3] at hmissing
      omega

theorem window_append (header post : List UInt8)
    : Window header (header ++ post) 0 header.length := by
  intro i n hin
  rw [Nat.zero_add, List.drop_append_of_le_length (by omega), List.take_append_of_le_length]
  rw [List.length_drop]
  omega

theorem exec_append (h : exec r header 0 header (.new 0) = some (header.length, parser))
    (haccepts : Accepts parser) (post : List UInt8) (query_start : Nat)
    : ∃ w, exec r (header ++ post) 0 (header ++ post) (.new query_start) = some (header.length, w)
      ∧ Sim [] 0 0 parser w := by
  have hsim := sim_new 0 query_start
  have hstart : AtStart header 0 0 [] (HttpRequestParser.new 0).m_httpParser := {
    start := fun _ => ⟨rfl, rfl⟩
    method := by simp
  }
  have hexec := exec_sim (window_append header post) (fun _ hM => .inl (lookahead_header h haccepts hM)) header
    (by omega) (by simp) hsim hstart (by decide) (clean_start r (header ++ post))
  rcases hexec with ⟨c, w, known, -, hc, -, -, -, -, hcs⟩ | ⟨q, c, w, -, hc, hw, hsim', -⟩
  . exfalso
    rw [h] at hc
    injection hc with hc
    injection hc with _ hc
    have := haccepts.final
    rw [hc] at this
    omega
  . rw [h] at hc
    injection hc with hc
    injection hc with hq hc
    rw [Nat.zero_add, Nat.zero_add, ← hq] at hw
    rw [← hc] at hsim'
    exact ⟨w, hw, hsim'.forget⟩

end Header

section ReadUpTo

variable {n : Nat} {peer : Peer}

theorem readUpTo_zero (peer : Peer) : readUpTo 0 peer = (0, peer) := by
  unfold readUpTo
  rw [if_pos rfl]

theorem readUpTo_pos (hpos : 0 < n) (hne : (read buff_size peer).1 ≠ [])
    : readUpTo n peer
        = ((read buff_size peer).1.length
            + (readUpTo (n - (read buff_size peer).1.length) (read buff_size peer).2).1,
          (readUpTo (n - (read buff_size peer).1.length) (read buff_size peer).2).2) := by
  rw [readUpTo, if_neg (by omega), dif_neg hne]

theorem readUpTo_piece {piece : List UInt8} (hle : piece.length ≤ buff_size) (hpos : 0 < n)
    (hn : n ≤ piece.length) : readUpTo n (piece :: peer) = (piece.length, peer) := by
  have hne : piece ≠ [] := List.ne_nil_of_length_pos (by omega)
  have hover : n - piece.length = 0 := by omega
  rw [readUpTo_pos hpos (by rw [read_cons peer hle]; exact hne), read_cons peer hle, hover,
    readUpTo_zero]
  rfl

theorem readUpTo_length (n : Nat) (peer : Peer)
    : (readUpTo n peer).1 + (readUpTo n peer).2.flatten.length = peer.flatten.length := by
  fun_induction readUpTo n peer with
  | case1 => simp
  | case2 => simp
  | case3 n peer hn hne out ih =>
    have hread := congrArg List.length (read_flatten buff_size peer)
    rw [List.length_append] at hread
    dsimp only [out] at ih ⊢
    omega

theorem readUpTo_pieces (hpieces : ∀ piece ∈ peer, piece ≠ [])
    : ∀ piece ∈ (readUpTo n peer).2, piece ≠ [] := by
  fun_induction readUpTo n peer with
  | case1 => exact hpieces
  | case2 => exact hpieces
  | case3 n peer hn hne out ih => exact ih (read_pieces hpieces)

theorem le_readUpTo (hpieces : ∀ piece ∈ peer, piece ≠ []) (hn : n ≤ peer.flatten.length)
    : n ≤ (readUpTo n peer).1 := by
  fun_induction readUpTo n peer with
  | case1 => apply Nat.le_refl
  | case2 n peer hpos hnil =>
    have hpeer : peer = [] := by
      by_contra hne
      exact read_ne_nil hpieces hne hnil
    rw [hpeer] at hn
    exact hn
  | case3 n peer hpos hne out ih =>
    have hread := congrArg List.length (read_flatten buff_size peer)
    rw [List.length_append] at hread
    have hout := ih (read_pieces hpieces) (by omega)
    dsimp only [out]
    omega

end ReadUpTo

section Loop

variable {r : Bool} {stream data : List UInt8} {base q : Nat} {c w w' : HttpRequestParser}

theorem Sim.accepts {known : List Register} {p : Nat} (h : Sim known base p c w)
    : Accepts w ↔ Accepts c := by
  unfold Accepts
  rw [h.hasError, h.isFinished]

theorem recvHeader_finished (hdata : data.length = buff_size) {peer : Peer}
    (hpieces : ∀ piece ∈ peer, piece ≠ []) (hstream : stream.drop base = peer.flatten)
    (hlook : base = 0 → Decides stream (read buff_size peer).1.length)
    (hsim : Sim [] base 0 c w) (hstart : c.m_httpParser.cs = http_parser_start → base = 0)
    (hcs : c.m_httpParser.cs < http_parser_first_final) (hbody : c.m_httpParser.body_start = 0)
    (hclean : clean r c.m_httpParser.cs [] peer.flatten = true)
    (hcuts : cleanReads r stream w base peer = true)
    (hexec : exec r stream base peer.flatten w = some (q, w')) (haccepts : Accepts w')
    : ∃ c' data', recvHeader r data 0 c peer
        = .finished c' data' ((readUpTo (q - base) peer).1 - (q - base)) (readUpTo (q - base) peer).2
      ∧ c'.m_data = w'.m_data ∧ data'.length = buff_size := by
  induction hn : peer.flatten.length using Nat.strong_induction_on
    generalizing peer data base c w with
  | _ n ih =>
    have hread := read_flatten buff_size peer
    have hread' := read_length_le buff_size peer
    have hprogress := (exec_missing hexec haccepts (by rw [hsim.cs]; exact hcs)).1
    have hne : (read buff_size peer).1 ≠ [] := by
      apply read_ne_nil hpieces
      intro hnil
      rw [hnil] at hexec
      simp only [List.flatten_nil, exec, Option.some.injEq, Prod.mk.injEq] at hexec
      omega
    have hpos := List.length_pos_of_ne_nil hne
    rw [cleanReads, dif_neg hne] at hcuts
    rw [recvHeader]
    simp only [Nat.sub_zero, Nat.add_zero]
    rw [dif_neg hne, readUpTo_pos (by omega) hne]
    rw [← hread] at hstream hclean hexec
    rcases execute_sim hdata hne hread' hstream hlook hsim hbody hstart hcs hclean
      with ⟨data', c', w₁, hscan, hexecute, hpiece, hexec₁, hsim', hstart', hcs'⟩
        | ⟨q₁, data', c', w₁, hexecute, hexec₁, hsim', hstop⟩
    . have hdata' := (execute_piece_spec hdata hread' hexecute).2
      have hbody' := (execute_body_start hdata hne hscan hexecute).trans hbody
      rw [hexec₁] at hexec
      have herror : c'.hasError = false := by
        by_contra htrue
        have hne' : w₁.m_error ≠ 0 := by
          rw [hsim'.m_error]
          simpa [HttpRequestParser.hasError, httpParserHasError, scan_ne_error hne hscan] using htrue
        have hfalse := haccepts.1
        simp [HttpRequestParser.hasError, exec_error hexec hne'] at hfalse
      have hprogress' := (exec_missing hexec haccepts (by rw [hsim'.cs]; exact hcs')).1
      have hdrop : stream.drop (base + (read buff_size peer).1.length)
          = (read buff_size peer).2.flatten := by
        rw [← List.drop_drop, hstream, List.drop_left]
      have hrest : (read buff_size peer).2.flatten.length < n := by
        rw [← hn]
        exact read_length_lt hne
      have hgoes := isFinished_eq_zero hcs' herror
      rw [hpiece] at hcuts
      dsimp only at hcuts
      rw [hsim'.hasError, herror, hsim'.isFinished, hgoes, hsim'.cs, Bool.false_or,
        bne_self_eq_false, Bool.false_or, Bool.and_eq_true] at hcuts
      obtain ⟨c'', data'', hfinished, hm_data⟩ := ih _ hrest hdata' (read_pieces hpieces) hdrop
        (fun h0 => by omega) hsim' (fun heq => absurd heq hstart') hcs' hbody' hcuts.1 hcuts.2
        hexec rfl
      refine ⟨c'', data'', ?_, hm_data⟩
      rw [hexecute]
      dsimp only
      have hsub : q - base - (read buff_size peer).1.length
          = q - (base + (read buff_size peer).1.length) := by omega
      have hoffset : (read buff_size peer).1.length
            + (readUpTo (q - (base + (read buff_size peer).1.length)) (read buff_size peer).2).1
            - (q - base)
          = (readUpTo (q - (base + (read buff_size peer).1.length)) (read buff_size peer).2).1
            - (q - (base + (read buff_size peer).1.length)) := by omega
      rw [herror, hgoes, Nat.sub_self, if_neg (by decide),
        if_neg (by decide), if_neg (by decide), hfinished, hsub, hoffset]
    . have hq₁ := (execute_piece_spec hdata hread' hexecute).1
      rw [hexec₁, Option.some.injEq, Prod.mk.injEq] at hexec
      obtain ⟨rfl, rfl⟩ := hexec
      have hc' := hsim'.accepts.mp haccepts
      have hfinal := hstop.resolve_left hc'.ne_error
      have hsub : base + q₁ - base = q₁ := by omega
      have hover : q₁ - (read buff_size peer).1.length = 0 := by omega
      refine ⟨c', data', ?_, hsim'.m_data.symm, (execute_piece_spec hdata hread' hexecute).2⟩
      rw [hexecute, hsub, hover, readUpTo_zero]
      dsimp only
      rw [hc'.1, if_neg (by decide), if_neg (by omega), if_pos hc'.2, Nat.add_zero]

end Loop

section Call

variable {lexical_cast : List UInt8 → Option Nat} {memory : Nat → List UInt8}
  {parser : HttpRequestParser} {data : List UInt8} {k : Nat} {peer : Peer}

theorem recvBody_length_le {req : HttpRequest} {stored : List Nat}
    (hbody : parser.m_data.m_body = [])
    (h : recvBody lexical_cast memory parser data k peer = .request req stored)
    : req.m_body.length ≤ k := by
  by_cases hpos : 0 < toInt64 (parser.getContentLength lexical_cast)
  . obtain ⟨L, hL⟩ := Int.eq_ofNat_of_zero_le (Int.le_of_lt hpos)
    by_cases hle : L ≤ k
    . rw [recvBody_of_le lexical_cast memory hL (by omega) hle] at h
      injection h with hreq
      rw [← hreq, List.length_take]
      omega
    . exact recvBody_short lexical_cast memory hL (by omega) h
  . simp only [recvBody] at h
    rw [if_neg (by omega)] at h
    injection h with hreq
    rw [← hreq, hbody]
    apply Nat.zero_le

theorem recvBody_buffered {L : Nat} (hL : parser.getContentLength lexical_cast = L)
    (hbody : parser.m_data.m_body = []) (hle : L ≤ k) (hk : k ≤ buff_size)
    : recvBody lexical_cast memory parser data k peer
        = .request { parser.m_data with m_body := data.take L } []
      ∧ unread lexical_cast parser k peer = peer := by
  unfold buff_size at hk
  have hL' : toInt64 (parser.getContentLength lexical_cast) = L := by
    rw [hL, toInt64_of_lt (by omega)]
  constructor
  . cases L with
    | zero =>
      simp only [recvBody]
      rw [if_neg (by omega), List.take_zero, ← hbody]
    | succ L => exact recvBody_of_le lexical_cast memory hL' (by omega) hle
  . unfold unread
    dsimp only
    rw [hL', if_neg (by omega)]

variable {call : Call} {rq : Request} {later : List UInt8}

structure Loaded (lexical_cast : List UInt8 → Option Nat) (rq : Request) (later : List UInt8)
    (parser : HttpRequestParser) (data : List UInt8) (k : Nat) (peer : Peer) : Prop where
  req : rq.req = { parser.m_data with m_body := rq.body }
  body : parser.m_data.m_body = []
  contentLength : parser.getContentLength lexical_cast = rq.body.length
  offset : k ≤ data.length
  size : data.length = buff_size
  bytes : data.take k ++ peer.flatten = rq.body ++ later

theorem Loaded.offset_le (h : Loaded lexical_cast rq later parser data k peer) : k ≤ buff_size := by
  rw [← h.size]
  exact h.offset

theorem recvHeader_loaded (hwf : rq.WellFormed lexical_cast call.uri_relaxed)
    (hpieces : ∀ piece ∈ peer, piece ≠ [])
    (hstream : peer.flatten = rq.bytes ++ later) (hlook : Lookahead peer)
    (hcuts : call.ReadsClean peer)
    : ∃ parser data,
        recvHeader call.uri_relaxed call.buffer 0 (.new call.query_start) peer
          = .finished parser data ((readUpTo rq.header.length peer).1 - rq.header.length)
              (readUpTo rq.header.length peer).2
        ∧ Loaded lexical_cast rq later parser data
            ((readUpTo rq.header.length peer).1 - rq.header.length)
            (readUpTo rq.header.length peer).2 := by
  obtain ⟨parser, hexec, haccepts, hlength, hreq⟩ := hwf
  obtain ⟨w, hw, hsim⟩ := exec_append hexec haccepts (rq.body ++ later) 0
  rw [← List.append_assoc] at hw
  rw [Request.bytes] at hstream
  rw [← hstream] at hw
  obtain ⟨c, data, hfinished, hm_data, hdata⟩ := recvHeader_finished call.size hpieces
    (List.drop_zero) (fun _ => hlook) (sim_new _ _) (fun _ => rfl)
    (show http_parser_start < _ by decide) rfl (clean_start _ _) hcuts hw (hsim.accepts.mpr haccepts)
  have hm_data' : c.m_data = parser.m_data := by rw [hm_data, hsim.m_data]
  rw [Nat.sub_zero] at hfinished
  refine ⟨c, data, hfinished, ?_⟩
  obtain ⟨hk, header, hheader⟩ := recvHeader_conserves hfinished call.size (Nat.zero_le _)
  have hupto := @le_readUpTo rq.header.length peer hpieces (by rw [hstream]; simp)
  have htotal := readUpTo_length rq.header.length peer
  rw [List.take_zero, List.nil_append] at hheader
  have hsame : rq.header.length = header.length := by
    have hlen := congrArg List.length hheader
    simp only [List.length_append, List.length_take] at hlen
    omega
  rw [hstream, List.append_assoc] at hheader
  constructor
  . rw [hreq, hm_data']
  . rw [hm_data']
    exact exec_body hexec rfl
  . unfold HttpRequestParser.getContentLength
    rw [hm_data']
    exact hlength
  . exact hk
  . exact hdata
  . exact (List.append_inj hheader hsame).2.symm

theorem Loaded.recvBody (h : Loaded lexical_cast rq later parser data k peer)
    (memory : Nat → List UInt8) (hle : rq.body.length ≤ k)
    : recvBody lexical_cast memory parser data k peer
        = .request { parser.m_data with m_body := data.take rq.body.length } []
      ∧ unread lexical_cast parser k peer = peer := by
  apply recvBody_buffered
  . exact h.contentLength
  . exact h.body
  . exact hle
  . exact h.offset_le

theorem nextRequest_finished {rest : Peer}
    (h : recvHeader call.uri_relaxed call.buffer 0 (.new call.query_start) peer
      = .finished parser data k rest)
    : nextRequest lexical_cast call peer
        = (recvBody lexical_cast call.memory parser data k rest).next
            (unread lexical_cast parser k rest) := by
  unfold nextRequest recvRequest Call.rest
  rw [h]

section Step

variable (hwf : rq.WellFormed lexical_cast call.uri_relaxed)
  (hpieces : ∀ piece ∈ peer, piece ≠ []) (hstream : peer.flatten = rq.bytes ++ later)
  (hlook : Lookahead peer) (hcuts : call.ReadsClean peer)

include hwf hpieces hstream hlook hcuts

theorem nextRequest_of_fits (hfits : (readUpTo rq.header.length peer).1 = rq.bytes.length)
    : nextRequest lexical_cast call peer = some (rq.req, (readUpTo rq.header.length peer).2)
      ∧ (readUpTo rq.header.length peer).2.flatten = later := by
  obtain ⟨parser, data, hfinished, hloaded⟩ :=
    recvHeader_loaded hwf hpieces hstream hlook hcuts
  have hk : (readUpTo rq.header.length peer).1 - rq.header.length = rq.body.length := by
    rw [hfits, Request.bytes, List.length_append]
    omega
  rw [hk] at hfinished hloaded
  have hlen : (data.take rq.body.length).length = rq.body.length := by
    rw [List.length_take]
    exact Nat.min_eq_left hloaded.offset
  obtain ⟨hbody, hlater⟩ := List.append_inj hloaded.bytes hlen
  obtain ⟨hrecv, hunread⟩ := hloaded.recvBody call.memory (Nat.le_refl _)
  refine ⟨?_, hlater⟩
  rw [nextRequest_finished hfinished, hrecv, hunread, hbody, hloaded.req]
  rfl

theorem fits_of_nextRequest {peer' : Peer}
    (hnext : nextRequest lexical_cast call peer = some (rq.req, peer'))
    (hlater : peer'.flatten = later)
    : (readUpTo rq.header.length peer).1 = rq.bytes.length := by
  obtain ⟨parser, data, hfinished, hloaded⟩ :=
    recvHeader_loaded hwf hpieces hstream hlook hcuts
  rw [nextRequest_finished hfinished] at hnext
  cases hrecv : recvBody lexical_cast call.memory parser data _ _ with
  | threw =>
    rw [hrecv] at hnext
    cases hnext
  | nullptr =>
    rw [hrecv] at hnext
    cases hnext
  | request req stored =>
    rw [hrecv] at hnext
    injection hnext with hnext
    injection hnext with hreq hpeer'
    have hle := recvBody_length_le hloaded.body hrecv
    rw [hreq, hloaded.req] at hle
    rw [(hloaded.recvBody call.memory hle).2] at hpeer'
    have htotal := readUpTo_length rq.header.length peer
    rw [hpeer', hlater, hstream, List.length_append] at htotal
    omega

end Step

end Call

theorem handleClient_cons_iff {lexical_cast : List UInt8 → Option Nat} {call : Call}
    {calls : List Call} {peer : Peer} {req : HttpRequest} {later : List UInt8}
    {expected : List (HttpRequest × List UInt8)}
    : handleClient lexical_cast (call :: calls) peer = (req, later) :: expected
      ↔ ∃ peer', nextRequest lexical_cast call peer = some (req, peer') ∧ peer'.flatten = later
        ∧ handleClient lexical_cast calls peer' = expected := by
  rw [handleClient]
  cases nextRequest lexical_cast call peer with
  | none => simp
  | some out =>
    obtain ⟨req', peer'⟩ := out
    simp only [List.cons.injEq, Prod.mk.injEq, Option.some.injEq]
    constructor
    . intro h
      exact ⟨peer', ⟨h.1.1, rfl⟩, h.1.2, h.2⟩
    . intro h
      obtain ⟨_, ⟨hreq, rfl⟩, hlater, hrest⟩ := h
      exact ⟨⟨hreq, hlater⟩, hrest⟩

theorem handleClient_eq_inOrder_iff (lexical_cast : List UInt8 → Option Nat)
    (session : List (Call × Request)) (peer : Peer)
    (hwf : ∀ i ∈ session, i.2.WellFormed lexical_cast i.1.uri_relaxed)
    (hpieces : ∀ piece ∈ peer, piece ≠ [])
    (hstream : peer.flatten = (session.map Prod.snd).flatMap Request.bytes)
    (hclean : CleanHeaders session peer)
    : handleClient lexical_cast (session.map Prod.fst) peer = inOrder (session.map Prod.snd)
      ↔ Fits (session.map Prod.snd) peer := by
  induction session generalizing peer with
  | nil => exact ⟨fun _ => trivial, fun _ => rfl⟩
  | cons i session ih =>
    obtain ⟨call, rq⟩ := i
    obtain ⟨hlook, hcuts, hclean⟩ := hclean
    rw [List.forall_mem_cons] at hwf
    rw [List.map_cons, List.flatMap_cons] at hstream
    rw [List.map_cons, List.map_cons, inOrder, Fits, handleClient_cons_iff]
    constructor
    . intro h
      obtain ⟨peer', hnext, hlater, hrest⟩ := h
      have hfits := fits_of_nextRequest hwf.1 hpieces hstream hlook hcuts hnext hlater
      have hnext' := (nextRequest_of_fits hwf.1 hpieces hstream hlook hcuts hfits).1
      rw [hnext, Option.some.injEq, Prod.mk.injEq] at hnext'
      rw [hnext'.2] at hrest hlater
      refine ⟨hfits, ?_⟩
      rw [← ih _ hwf.2 (readUpTo_pieces hpieces) hlater (hclean hfits)]
      exact hrest
    . intro h
      obtain ⟨hnext, hlater⟩ := nextRequest_of_fits hwf.1 hpieces hstream hlook hcuts h.1
      refine ⟨_, hnext, hlater, ?_⟩
      rw [ih _ hwf.2 (readUpTo_pieces hpieces) hlater (hclean h.1)]
      exact h.2

def sampleCall : Call where
  uri_relaxed := false
  query_start := 0
  buffer := List.replicate 100 0
  memory n := List.replicate (n + 1) 0
  size := rfl

def sampleGet : Request where
  header := bytes "GET / HTTP/1.1\r\n\r\n"
  body := []
  req := HttpRequest.new

def samplePost : Request where
  header := bytes "POST / HTTP/1.1\r\ncontent-length: 2\r\n\r\n"
  body := bytes "ab"
  req := { HttpRequest.new with
    m_method := .POST, m_body := bytes "ab", m_headers := [(bytes "content-length", bytes "2")] }

def sampleCast (s : List UInt8) : Option Nat :=
  if s = bytes "2" then some 2 else none

theorem sampleGet_wellFormed : sampleGet.WellFormed sampleCast false :=
  ⟨_, rfl, ⟨rfl, by decide⟩, rfl, rfl⟩

theorem samplePost_wellFormed : samplePost.WellFormed sampleCast false :=
  ⟨_, rfl, ⟨rfl, by decide⟩, rfl, rfl⟩

theorem handleClient_eq_inOrder_apart
    : handleClient sampleCast [sampleCall, sampleCall] [sampleGet.bytes, samplePost.bytes]
        = inOrder [sampleGet, samplePost] := by
  have hget : readUpTo sampleGet.header.length [sampleGet.bytes, samplePost.bytes]
      = (sampleGet.bytes.length, [samplePost.bytes]) :=
    readUpTo_piece (by decide) (by decide) (by decide)
  have hpost : readUpTo samplePost.header.length [samplePost.bytes]
      = (samplePost.bytes.length, []) :=
    readUpTo_piece (by decide) (by decide) (by decide)
  have hiff := handleClient_eq_inOrder_iff sampleCast
    [(sampleCall, sampleGet), (sampleCall, samplePost)] [sampleGet.bytes, samplePost.bytes] (by
      simp only [List.forall_mem_cons]
      exact ⟨sampleGet_wellFormed, samplePost_wellFormed, by simp⟩)
    (by decide) (by decide) (by
      refine ⟨?_, cleanReads_stop (by decide) (by decide), ?_⟩
      . intro h
        revert h
        decide
      . intro _
        rw [hget]
        refine ⟨?_, cleanReads_stop (by decide) (by decide), fun _ => trivial⟩
        intro h
        revert h
        decide)
  apply hiff.mpr
  refine ⟨?_, ?_⟩
  . rw [hget]
  . rw [hget]
    refine ⟨?_, trivial⟩
    rw [hpost]

-- two requests come in one read, and the second is gone with the buffer of the first call
theorem handleClient_together
    : sampleGet.WellFormed sampleCast sampleCall.uri_relaxed
      ∧ handleClient sampleCast [sampleCall, sampleCall] [sampleGet.bytes ++ sampleGet.bytes]
        = [(sampleGet.req, [])]
      ∧ inOrder [sampleGet, sampleGet] = [(sampleGet.req, sampleGet.bytes), (sampleGet.req, [])]
      ∧ handleClient sampleCast [sampleCall, sampleCall] [sampleGet.bytes ++ sampleGet.bytes]
        ≠ inOrder [sampleGet, sampleGet] := by
  have hnext : nextRequest sampleCast sampleCall [sampleGet.bytes ++ sampleGet.bytes]
      = some (sampleGet.req, []) := by
    unfold nextRequest recvRequest Call.rest
    rw [recvHeader_piece _ _ _ _ (by decide) (by decide)]
    decide +kernel
  have hend : nextRequest sampleCast sampleCall [] = none := by
    unfold nextRequest recvRequest
    rw [recvHeader]
    rfl
  have hcalls : handleClient sampleCast [sampleCall, sampleCall] [sampleGet.bytes ++ sampleGet.bytes]
      = [(sampleGet.req, [])] := by
    apply handleClient_cons_iff.mpr
    refine ⟨[], hnext, rfl, ?_⟩
    rw [handleClient, hend]
  refine ⟨sampleGet_wellFormed, hcalls, rfl, ?_⟩
  rw [hcalls]
  decide

end Http
end CXS
