import CXS.Http.Body
import CXS.Http.Simulation

namespace CXS
namespace Http

-- what a call of `recvRequest` finds in the memory that it does not initialise
structure Call where
  uri_relaxed : Bool
  query_start : Nat
  buffer : List UInt8
  memory : Nat → List UInt8
  size : buffer.length = buff_size

def Received.outcome : Received → Option HttpRequest
  | .request req _ => some { req with m_body := [] }
  | .threw => none
  | .nullptr => none

/--
The outcome for a stream of `length` bytes with the result of the machine on the whole of it.
-/
def streamOutcome (lexical_cast : List UInt8 → Option Nat) (length : Nat)
    : Option (Nat × HttpRequestParser) → Option HttpRequest
  | none => none
  | some (q, parser) =>
    if parser.hasError || parser.isFinished == 0 then
      none
    else if toInt64 (parser.getContentLength lexical_cast) ≤ (length - q : Nat) then
      some { parser.m_data with m_body := [] }
    else
      none

section Invariant

variable {I : HttpRequestParser → Prop} {buffer : List UInt8}

theorem foldlM_run_invariant {p : Nat} {parser parser' : HttpRequestParser} {actions : List Action}
    (hrun : ∀ a parser parser', Action.run buffer p parser a = some parser' → I parser → I parser')
    (h : actions.foldlM (Action.run buffer p) parser = some parser') (hinv : I parser) : I parser' := by
  induction actions generalizing parser with
  | nil =>
    injection h with h
    rw [← h]
    exact hinv
  | cons a actions ih =>
    simp only [List.foldlM_cons, Option.bind_eq_bind, Option.bind_eq_some_iff] at h
    obtain ⟨parser₁, ha, hactions⟩ := h
    exact ih hactions (hrun a parser parser₁ ha hinv)

theorem exec_invariant {r : Bool} {rest : List UInt8} {p q : Nat} {parser parser' : HttpRequestParser}
    (hrun : ∀ p a parser parser', Action.run buffer p parser a = some parser' → I parser → I parser')
    (hstate : ∀ parser cs, I parser → I (parser.setState cs))
    (h : exec r buffer p rest parser = some (q, parser')) (hinv : I parser) : I parser' := by
  induction rest generalizing p parser with
  | nil =>
    simp only [exec, Option.some.injEq, Prod.mk.injEq] at h
    rw [← h.2]
    exact hinv
  | cons b rest ih =>
    obtain ⟨_, cs, parser₁, -, hactions, hcases⟩ := exec_cons_cases h
    have hinv₁ := hstate parser₁ cs (foldlM_run_invariant (hrun p) hactions hinv)
    rcases hcases with ⟨-, -, hparser'⟩ | ⟨-, -, -, hparser'⟩ | ⟨-, -, hrest⟩
    . rw [hparser']
      exact hinv₁
    . rw [hparser']
      exact hinv₁
    . exact ih hrest hinv₁

end Invariant

section Error

theorem Action.run_keeps {buffer : List UInt8} {p : Nat} {parser parser' : HttpRequestParser}
    {a : Action} (h : a.run buffer p parser = some parser')
    : parser'.m_data.m_body = parser.m_data.m_body
      ∧ (parser.m_error ≠ 0 → parser'.m_error ≠ 0) := by
  cases a with
  | write_value =>
    simp only [run, HttpRequestParser.onRequestHttpField, Option.some.injEq] at h
    rw [← h]
    split
    next => exact ⟨rfl, fun _ => by simp [HttpRequestParser.setError]⟩
    next => exact ⟨rfl, id⟩
  | request_method =>
    simp only [run, HttpRequestParser.onRequestMethod, Option.some.injEq] at h
    rw [← h]
    split
    next => exact ⟨rfl, fun _ => by simp [HttpRequestParser.setError]⟩
    next => exact ⟨rfl, id⟩
  | http_version =>
    simp only [run, HttpRequestParser.onRequestVersion, Option.some.injEq] at h
    rw [← h]
    split
    next => exact ⟨rfl, id⟩
    next =>
      split
      next => exact ⟨rfl, id⟩
      next => exact ⟨rfl, fun _ => by simp [HttpRequestParser.setError]⟩
  | query_string =>
    simp only [run] at h
    split at h
    next =>
      injection h with h
      rw [← h]
      exact ⟨rfl, id⟩
    next => cases h
  | done =>
    obtain ⟨_, _, hdone⟩ := run_done buffer p parser
    rw [hdone] at h
    injection h with h
    rw [← h]
    exact ⟨rfl, id⟩
  | _ =>
    injection h with h
    rw [← h]
    exact ⟨rfl, id⟩

theorem exec_error {r : Bool} {buffer rest : List UInt8} {p q : Nat}
    {parser parser' : HttpRequestParser} (h : exec r buffer p rest parser = some (q, parser'))
    (herror : parser.m_error ≠ 0) : parser'.m_error ≠ 0 := by
  apply exec_invariant (I := fun parser => parser.m_error ≠ 0) ?_ ?_ h herror
  . intro p a parser parser' hrun
    exact (Action.run_keeps hrun).2
  . intro parser cs herror
    exact herror

theorem streamOutcome_exec_error (lexical_cast : List UInt8 → Option Nat) (length : Nat) (r : Bool)
    (buffer rest : List UInt8) (p : Nat) {parser : HttpRequestParser} (herror : parser.m_error ≠ 0)
    : streamOutcome lexical_cast length (exec r buffer p rest parser) = none := by
  cases h : exec r buffer p rest parser with
  | none => rfl
  | some out =>
    have := exec_error h herror
    simp [streamOutcome, HttpRequestParser.hasError, this]

end Error

section Body

variable (lexical_cast : List UInt8 → Option Nat) (memory : Nat → List UInt8)

theorem readFixSize_deliver_go (size left offset : Nat) (peer : Peer) (hleft : left < 2 ^ 63)
    (hpieces : ∀ piece ∈ peer, piece ≠ [])
    : (Stream.fixSize.go Stream.advanceOffset size left offset
          ((deliver left peer).map (fun piece => (piece.length : Int)) ++ [0])).2
        = .returned (if left ≤ peer.flatten.length then Stream.toInt size else 0) := by
  induction peer generalizing left offset with
  | nil =>
    unfold Stream.fixSize.go
    split
    next h =>
      rw [if_neg (by simp only [List.flatten_nil, List.length_nil]; omega)]
      rfl
    next h =>
      rw [if_pos (by omega)]
  | cons piece peer ih =>
    have hpos := List.length_pos_of_ne_nil (hpieces piece List.mem_cons_self)
    unfold Stream.fixSize.go
    split
    next h =>
      have hsize : Stream.toSize ((piece.take left).length : Int) = (piece.take left).length := by
        simp only [Stream.toSize, Stream.sizeMod, List.length_take]
        omega
      have hnext : (left + Stream.sizeMod - (piece.take left).length) % Stream.sizeMod
          = left - piece.length := by
        simp only [Stream.sizeMod, List.length_take]
        omega
      simp only [deliver]
      rw [if_neg (by omega)]
      simp only [List.map_cons, List.cons_append, hsize]
      rw [if_neg (by rw [List.length_take]; omega), hnext]
      dsimp only
      rw [ih _ _ (by omega) (fun piece hmem => hpieces piece (List.mem_cons_of_mem _ hmem))]
      simp only [List.flatten_cons, List.length_append]
      congr 2
      apply propext
      omega
    next h =>
      rw [if_pos (by omega)]

theorem readBody_ret_pos_iff (body : StdString) (start left : Nat) (peer : Peer) (hpos : 0 < left)
    (hleft : left < 2 ^ 63) (hpieces : ∀ piece ∈ peer, piece ≠ [])
    (hlen : peer.flatten.length < 2 ^ 31)
    : 0 < (readBody body start left peer).ret ↔ left ≤ peer.flatten.length := by
  have hret : (readBody body start left peer).ret
      = if left ≤ peer.flatten.length then Stream.toInt left else 0 := by
    simp only [readBody, Stream.readFixSize, Stream.fixSize,
      readFixSize_deliver_go left left 0 peer hleft hpieces]
  rw [hret]
  split
  next h =>
    have : Stream.toInt left = left := by
      unfold Stream.toInt
      rw [Int.bmod_eq_of_le (by omega) (by omega)]
    omega
  next h => omega

theorem toInt64_lt (n : Nat) : toInt64 n < 2 ^ 63 := by
  unfold toInt64
  have := @Int.bmod_lt (n : Int) (2 ^ 64) (by omega)
  omega

theorem recvBody_outcome (parser : HttpRequestParser) (data : List UInt8) (k : Nat) (peer : Peer)
    (hpieces : ∀ piece ∈ peer, piece ≠ []) (hlen : peer.flatten.length < 2 ^ 31)
    : (recvBody lexical_cast memory parser data k peer).outcome
        = if toInt64 (parser.getContentLength lexical_cast) ≤ (k + peer.flatten.length : Nat) then
            some { parser.m_data with m_body := [] }
          else
            none := by
  have hmax := toInt64_lt (parser.getContentLength lexical_cast)
  by_cases hpos : 0 < toInt64 (parser.getContentLength lexical_cast)
  . obtain ⟨L, hL⟩ := Int.eq_ofNat_of_zero_le (Int.le_of_lt hpos)
    rw [hL] at hpos hmax ⊢
    by_cases hle : L ≤ k
    . rw [recvBody_of_le lexical_cast memory hL (by omega) hle, if_pos (by omega)]
      rfl
    . rw [recvBody_of_lt lexical_cast memory parser data peer hL (by omega)]
      have hiff := readBody_ret_pos_iff ((StdString.reserve (memory L)).append (data.take k))
        ((StdString.reserve (memory L)).append (data.take k)).chars.length (L - k) peer (by omega)
        (by omega) hpieces hlen
      dsimp only
      split
      next h =>
        rw [if_neg (by omega)]
        rfl
      next h =>
        rw [if_pos (by omega)]
        rfl
  . rw [if_pos (by omega)]
    simp only [recvBody]
    rw [if_neg (by omega)]
    rfl

end Body

section Header

variable {r : Bool} {stream data piece post : List UInt8} {base : Nat} {c w : HttpRequestParser}

theorem take_overwrite_piece (hdata : data.length = buff_size)
    : (data.overwrite 0 piece).take piece.length = piece := by
  have := @List.take_overwrite _ data piece 0 (by omega)
  simpa using this

theorem window_overwrite (hdata : data.length = buff_size)
    (hstream : stream.drop base = piece ++ post)
    : Window (data.overwrite 0 piece) stream base piece.length := by
  have htake : (data.overwrite 0 piece).take piece.length = (stream.drop base).take piece.length := by
    rw [take_overwrite_piece hdata, hstream, List.take_left]
  intro i n hin
  have hmin : min (i + n) piece.length = i + n := by omega
  have := congrArg (List.drop i) (congrArg (List.take (i + n)) htake)
  rw [List.take_take, List.take_take, hmin, List.drop_take, List.drop_take, List.drop_drop] at this
  have hsub : i + n - i = n := by omega
  rw [hsub] at this
  exact this

theorem execute_of_exec (hdata : data.length = buff_size) (hne : piece ≠ [])
    (hle : piece.length ≤ buff_size) {q : Nat} {c' : HttpRequestParser}
    (hexec : exec r (data.overwrite 0 piece) 0 piece c.reset = some (q, c'))
    (hbody : c.m_httpParser.body_start = 0)
    : ∃ data', c.execute r (data.overwrite 0 piece) piece.length = some (q, data', c') := by
  have hpos := List.length_pos_of_ne_nil hne
  have hrun : httpParserExecute r c (data.overwrite 0 piece) piece.length = some (q, c') := by
    rw [httpParserExecute_eq r c _ hpos, if_pos, take_overwrite_piece hdata]
    . exact hexec
    . unfold buff_size at hle
      exact ⟨by omega, .inl (hbody.le.trans (Nat.zero_le _))⟩
  unfold HttpRequestParser.execute
  rw [hrun]
  exact ⟨_, rfl⟩

theorem completes_of_scan {cs cs' : Nat} (h : scan r cs piece = some cs')
    : completes r cs piece = false := by
  induction piece generalizing cs with
  | nil => rfl
  | cons b piece ih =>
    unfold scan at h
    split at h
    . cases h
    . next hstops =>
      have hrest := ih h
      simp only [stops, Bool.or_eq_true, not_or] at hstops
      unfold completes
      rw [hrest, Bool.and_false, Bool.or_false]
      exact Bool.eq_false_iff.mpr hstops.2

theorem execute_body_start (hdata : data.length = buff_size) (hne : piece ≠ []) {q cs' : Nat}
    {data' : List UInt8} {c' : HttpRequestParser} (hscan : scan r c.m_httpParser.cs piece = some cs')
    (h : c.execute r (data.overwrite 0 piece) piece.length = some (q, data', c'))
    : c'.m_httpParser.body_start = c.m_httpParser.body_start := by
  have hpos := List.length_pos_of_ne_nil hne
  have hexec := exec_of_execute h hpos
  rw [take_overwrite_piece hdata] at hexec
  exact (exec_within hexec (Nat.zero_add _).le
    (HttpRequestParser.within_reset hpos)).2.2 (completes_of_scan hscan)

theorem execute_piece_spec (hdata : data.length = buff_size) (hle : piece.length ≤ buff_size)
    {q : Nat} {data' : List UInt8} {c' : HttpRequestParser}
    (h : c.execute r (data.overwrite 0 piece) piece.length = some (q, data', c'))
    : q ≤ piece.length ∧ data'.length = buff_size := by
  have hlen : (data.overwrite 0 piece).length = buff_size := by
    rw [List.length_overwrite (by omega), hdata]
  obtain ⟨hq, hdata', -⟩ := HttpRequestParser.execute_spec h (by omega)
  rw [hdata', hlen]
  exact ⟨hq, rfl⟩

theorem execute_sim (hdata : data.length = buff_size) (hne : piece ≠ [])
    (hle : piece.length ≤ buff_size) (hstream : stream.drop base = piece ++ post)
    (hlook : base = 0 → Decides stream piece.length) (hsim : Sim [] base 0 c w)
    (hbody : c.m_httpParser.body_start = 0)
    (hstart : c.m_httpParser.cs = http_parser_start → base = 0)
    (hcs : c.m_httpParser.cs < http_parser_first_final)
    (hclean : clean r c.m_httpParser.cs [] (piece ++ post) = true)
    : (∃ data' c' w', scan r c.m_httpParser.cs piece = some c'.m_httpParser.cs
        ∧ c.execute r (data.overwrite 0 piece) piece.length = some (piece.length, data', c')
        ∧ exec r stream base piece w = some (base + piece.length, w')
        ∧ exec r stream base (piece ++ post) w = exec r stream (base + piece.length) post w'
        ∧ Sim [] (base + piece.length) 0 c' w'
        ∧ c'.m_httpParser.cs ≠ http_parser_start
        ∧ c'.m_httpParser.cs < http_parser_first_final)
      ∨ (∃ q data' c' w', c.execute r (data.overwrite 0 piece) piece.length = some (q, data', c')
        ∧ exec r stream base (piece ++ post) w = some (base + q, w')
        ∧ Sim [] base 0 c' w'
        ∧ (c'.m_httpParser.cs = http_parser_error
          ∨ 0 < q ∧ http_parser_first_final ≤ c'.m_httpParser.cs)) := by
  have hpos := List.length_pos_of_ne_nil hne
  have hsim₀ : Sim [] base 0 c.reset w := {
    cs := hsim.cs
    m_data := hsim.m_data
    m_error := hsim.m_error
    mark := by simp
    field_start := by simp
    field_len := by simp
    query_start := by simp
  }
  have hstart₀ : AtStart (data.overwrite 0 piece) base 0 [] c.reset.m_httpParser := {
    start := fun heq => ⟨hstart heq, rfl⟩
    method := by simp
  }
  have hexec := exec_sim (window_overwrite hdata hstream) hlook piece (by omega)
    (take_overwrite_piece hdata) hsim₀ hstart₀ hcs hclean
  rcases hexec with ⟨c', w', known', hscan, hc, hpiece, hw, hsim', hstart', hcs'⟩
    | ⟨q, c', w', -, hc, hw, hsim', hstop⟩
  . left
    obtain ⟨data', hdata'⟩ := execute_of_exec hdata hne hle hc hbody
    refine ⟨data', c', w', hscan, hdata', hpiece, hw, hsim'.forget, ?_, hcs'⟩
    intro heq
    have := hstart'.start heq
    omega
  . right
    obtain ⟨data', hdata'⟩ := execute_of_exec hdata hne hle hc hbody
    exact ⟨q, data', c', w', hdata', hw, hsim'.forget, hstop⟩

theorem read_ne_nil {peer : Peer} (hpieces : ∀ piece ∈ peer, piece ≠ []) (hne : peer ≠ [])
    : (read buff_size peer).1 ≠ [] := by
  cases peer with
  | nil =>
    exfalso
    exact hne rfl
  | cons piece peer =>
    have hpos := List.length_pos_of_ne_nil (hpieces piece List.mem_cons_self)
    apply List.ne_nil_of_length_pos
    simp only [read, List.length_take, buff_size]
    omega

theorem read_pieces {peer : Peer} (hpieces : ∀ piece ∈ peer, piece ≠ [])
    : ∀ piece ∈ (read buff_size peer).2, piece ≠ [] := by
  cases peer with
  | nil => simp [read]
  | cons piece peer =>
    simp only [List.mem_cons, forall_eq_or_imp] at hpieces
    simp only [read]
    split
    next => exact hpieces.2
    next h =>
      simp only [List.mem_cons, forall_eq_or_imp]
      refine ⟨?_, hpieces.2⟩
      apply List.ne_nil_of_length_pos
      rw [List.length_drop]
      omega

def Header.outcome (lexical_cast : List UInt8 → Option Nat) (memory : Nat → List UInt8)
    : Header → Option HttpRequest
  | .finished parser data offset peer =>
    (recvBody lexical_cast memory parser data offset peer).outcome
  | .threw => none
  | .nullptr => none

theorem Sim.hasError {known : List Register} {p : Nat} (h : Sim known base p c w)
    : w.hasError = c.hasError := by
  simp only [HttpRequestParser.hasError, httpParserHasError, h.m_error, h.cs]

theorem Sim.isFinished {known : List Register} {p : Nat} (h : Sim known base p c w)
    : w.isFinished = c.isFinished := by
  unfold HttpRequestParser.isFinished httpParserFinish httpParserHasError httpParserIsFinished
  rw [h.cs]

theorem Sim.getContentLength {known : List Register} {p : Nat} (h : Sim known base p c w)
    (lexical_cast : List UInt8 → Option Nat)
    : w.getContentLength lexical_cast = c.getContentLength lexical_cast := by
  unfold HttpRequestParser.getContentLength
  rw [h.m_data]

theorem scan_ne_error {cs cs' : Nat} (hne : piece ≠ []) (h : scan r cs piece = some cs')
    : cs' ≠ http_parser_error := by
  induction piece generalizing cs with
  | nil =>
    exfalso
    exact hne rfl
  | cons b piece ih =>
    simp only [scan] at h
    split at h
    next => cases h
    next hstops =>
      cases piece with
      | nil =>
        injection h with h
        intro heq
        apply hstops
        simp [stops, h, heq]
      | cons b' piece => exact ih (by simp) h

theorem isFinished_eq_zero (hcs : c.m_httpParser.cs < http_parser_first_final)
    (herror : c.hasError = false) : c.isFinished = 0 := by
  simp only [HttpRequestParser.hasError, Bool.or_eq_false_iff] at herror
  have hfinished : httpParserIsFinished c.m_httpParser = false := by
    simp only [httpParserIsFinished, decide_eq_false_iff_not]
    omega
  simp [HttpRequestParser.isFinished, httpParserFinish, herror.2, hfinished]

theorem isFinished_eq_one (hcs : http_parser_first_final ≤ c.m_httpParser.cs) : c.isFinished = 1 := by
  have herror : httpParserHasError c.m_httpParser = false := by
    simp only [httpParserHasError, beq_eq_false_iff_ne, http_parser_error]
    unfold http_parser_first_final at hcs
    omega
  have hfinished : httpParserIsFinished c.m_httpParser = true := by
    simp only [httpParserIsFinished, decide_eq_true_eq]
    exact hcs
  simp [HttpRequestParser.isFinished, httpParserFinish, herror, hfinished]

theorem stop_outcome (lexical_cast : List UInt8 → Option Nat) (memory : Nat → List UInt8)
    {len q n : Nat} {rest : Peer} (hsim : Sim [] base 0 c w) (hq : q ≤ len) (hpos : 0 < len)
    (hle : len ≤ buff_size) (hn : n = base + (len + rest.flatten.length)) (hlen : n < 2 ^ 31)
    (hrest : ∀ piece ∈ rest, piece ≠ [])
    (hstop : c.m_httpParser.cs = http_parser_error
      ∨ 0 < q ∧ http_parser_first_final ≤ c.m_httpParser.cs) (next : Header)
    : Header.outcome lexical_cast memory
          (if c.hasError = true then .nullptr
          else if len - q = buff_size then .nullptr
          else if c.isFinished ≠ 0 then .finished c data (len - q) rest
          else next)
        = streamOutcome lexical_cast n (some (base + q, w)) := by
  have hsub : n - (base + q) = len - q + rest.flatten.length := by omega
  dsimp only [streamOutcome]
  rw [hsim.hasError, hsim.isFinished, hsim.getContentLength, hsim.m_data, hsub]
  cases herror : c.hasError with
  | true => rfl
  | false =>
    have hfinal : 0 < q ∧ http_parser_first_final ≤ c.m_httpParser.cs := by
      rcases hstop with hstop | hstop
      . exfalso
        simp [HttpRequestParser.hasError, httpParserHasError, hstop] at herror
      . assumption
    rw [isFinished_eq_one hfinal.2, if_neg (by decide), if_neg (by omega), if_pos (by decide)]
    simp only [Header.outcome]
    rw [recvBody_outcome _ _ _ _ _ _ hrest (by omega)]
    simp

/--
Every read of the header loop but the first starts at a clean place, where `w` is the machine on the
stream in one piece behind its first `base` bytes. The loop makes no further read behind an error.
-/
def cleanReads (r : Bool) (stream : List UInt8) (w : HttpRequestParser) (base : Nat) (peer : Peer)
    : Bool :=
  if _ : (read buff_size peer).1 = [] then
    true
  else
    match exec r stream base (read buff_size peer).1 w with
    | none => true
    | some (_, w) =>
      w.hasError || w.isFinished != 0
        || clean r w.m_httpParser.cs [] (read buff_size peer).2.flatten
          && cleanReads r stream w (base + (read buff_size peer).1.length) (read buff_size peer).2
termination_by peer.flatten.length
decreasing_by
  apply read_length_lt
  assumption

theorem recvHeader_outcome (lexical_cast : List UInt8 → Option Nat) (memory : Nat → List UInt8)
    (hlen : stream.length < 2 ^ 31) (hdata : data.length = buff_size) {peer : Peer}
    (hpieces : ∀ piece ∈ peer, piece ≠ []) (hstream : stream.drop base = peer.flatten)
    (hbase : base ≤ stream.length)
    (hlook : base = 0 → Decides stream (read buff_size peer).1.length)
    (hsim : Sim [] base 0 c w) (hstart : c.m_httpParser.cs = http_parser_start → base = 0)
    (hcs : c.m_httpParser.cs < http_parser_first_final) (hbody : c.m_httpParser.body_start = 0)
    (hclean : clean r c.m_httpParser.cs [] peer.flatten = true)
    (hcuts : cleanReads r stream w base peer = true)
    : (recvHeader r data 0 c peer).outcome lexical_cast memory
        = streamOutcome lexical_cast stream.length (exec r stream base peer.flatten w) := by
  induction hn : peer.flatten.length using Nat.strong_induction_on
    generalizing peer data base c w with
  | _ n ih =>
    have hread := read_flatten buff_size peer
    have hread' := read_length_le buff_size peer
    have htotal : stream.length = base + peer.flatten.length := by
      rw [← hstream, List.length_drop]
      omega
    have hcuts' := hcuts
    rw [cleanReads] at hcuts'
    rw [recvHeader]
    simp only [Nat.sub_zero, Nat.add_zero]
    split
    next hnil =>
      have hpeer : peer = [] := by
        by_cases hpeer : peer = []
        . assumption
        . exfalso
          exact read_ne_nil hpieces hpeer hnil
      have hw : w.m_httpParser.cs < http_parser_first_final := by
        rw [hsim.cs]
        exact hcs
      rw [hpeer]
      simp only [Header.outcome, List.flatten_nil, exec, streamOutcome]
      cases herror : w.hasError with
      | true => rfl
      | false => simp [isFinished_eq_zero hw herror]
    next hne =>
      have hpos := List.length_pos_of_ne_nil hne
      rw [dif_neg hne] at hcuts'
      rw [← hread] at hstream hclean ⊢
      rw [← hread, List.length_append] at htotal
      have hrest : (read buff_size peer).2.flatten.length < n := by
        rw [← hn]
        exact read_length_lt hne
      rcases execute_sim hdata hne hread' hstream hlook hsim hbody hstart hcs hclean
        with ⟨data', c', w', hscan, hexecute, hpiece, hexec, hsim', hstart', hcs'⟩
          | ⟨q, data', c', w', hexecute, hexec, hsim', hstop⟩
      . have hdata' := (execute_piece_spec hdata hread' hexecute).2
        have hbody' := (execute_body_start hdata hne hscan hexecute).trans hbody
        rw [hexecute, hexec]
        dsimp only
        cases herror : c'.hasError with
        | true =>
          have herror' : w'.m_error ≠ 0 := by
            rw [hsim'.m_error]
            simpa [HttpRequestParser.hasError, httpParserHasError, scan_ne_error hne hscan]
              using herror
          rw [streamOutcome_exec_error _ _ _ _ _ _ herror']
          rfl
        | false =>
          have hgoes := isFinished_eq_zero hcs' herror
          rw [hpiece] at hcuts'
          dsimp only at hcuts'
          rw [hsim'.hasError, herror, hsim'.isFinished, hgoes, hsim'.cs, Bool.false_or,
            bne_self_eq_false, Bool.false_or, Bool.and_eq_true] at hcuts'
          rw [hgoes, Nat.sub_self]
          have hdrop : stream.drop (base + (read buff_size peer).1.length)
              = (read buff_size peer).2.flatten := by
            rw [← List.drop_drop, hstream, List.drop_left]
          have hnext := ih _ hrest hdata' (read_pieces hpieces) hdrop (by omega)
            (fun h0 => by omega) hsim' (fun heq => absurd heq hstart') hcs' hbody' hcuts'.1
            hcuts'.2 rfl
          simpa [buff_size] using hnext
      . have hq := (execute_piece_spec hdata hread' hexecute).1
        rw [hexecute, hexec]
        exact stop_outcome lexical_cast memory hsim' hq hpos hread' htotal hlen
          (read_pieces hpieces) hstop _

end Header

-- the name `M - SEARCH` is compared with what lies behind the method, so the first `read` of a method
-- `M` brings a byte that differs from this name, or all of the name
def Lookahead (peer : Peer) : Prop :=
  Decides peer.flatten (read buff_size peer).1.length

def Call.ReadsClean (call : Call) (peer : Peer) : Prop :=
  cleanReads call.uri_relaxed peer.flatten (.new 0) 0 peer = true

def Call.recvRequest (lexical_cast : List UInt8 → Option Nat) (call : Call) (peer : Peer) : Received :=
  Http.recvRequest lexical_cast call.memory call.uri_relaxed call.query_start call.buffer peer

theorem Call.recvRequest_outcome (lexical_cast : List UInt8 → Option Nat) (call : Call) (peer : Peer)
    : (call.recvRequest lexical_cast peer).outcome
        = (recvHeader call.uri_relaxed call.buffer 0 (.new call.query_start) peer).outcome
            lexical_cast call.memory := by
  unfold Call.recvRequest Http.recvRequest
  cases recvHeader call.uri_relaxed call.buffer 0 (.new call.query_start) peer with
  | threw => rfl
  | nullptr => rfl
  | finished parser data offset peer => rfl

structure Call.CutsClean (call : Call) (peer : Peer) : Prop where
  pieces : ∀ piece ∈ peer, piece ≠ []
  lookahead : Lookahead peer
  reads : call.ReadsClean peer

theorem Call.CutsClean.outcome {call : Call} {peer : Peer} (h : call.CutsClean peer)
    (lexical_cast : List UInt8 → Option Nat) (hlen : peer.flatten.length < 2 ^ 31)
    : (call.recvRequest lexical_cast peer).outcome
        = streamOutcome lexical_cast peer.flatten.length
            (exec call.uri_relaxed peer.flatten 0 peer.flatten (.new 0)) := by
  have hsim := sim_new call.query_start 0
  rw [Call.recvRequest_outcome, recvHeader_outcome lexical_cast call.memory hlen call.size h.pieces
    List.drop_zero (Nat.zero_le _) (fun _ => h.lookahead) hsim (fun _ => rfl)
    (show http_parser_start < _ by decide) rfl (clean_start _ _) h.reads]

def sameEdges (cs : Nat) (rest : List UInt8) : Bool :=
  match rest with
  | [] => true
  | b :: rest =>
    trans false cs b == trans true cs b
      && (stops (trans false cs b).1 (trans false cs b).2 || sameEdges (trans false cs b).2 rest)

theorem exec_sameEdges {buffer rest : List UInt8} {p : Nat} {parser : HttpRequestParser}
    (h : sameEdges parser.m_httpParser.cs rest = true) (r : Bool)
    : exec r buffer p rest parser = exec false buffer p rest parser := by
  induction rest generalizing p parser with
  | nil => rfl
  | cons b rest ih =>
    unfold sameEdges at h
    rw [Bool.and_eq_true, beq_iff_eq] at h
    obtain ⟨hsame, hrest⟩ := h
    have htrans : trans r parser.m_httpParser.cs b = trans false parser.m_httpParser.cs b := by
      cases r with
      | false => rfl
      | true => exact hsame.symm
    unfold exec
    rw [htrans]
    dsimp only
    split
    . rfl
    . split
      . rfl
      . next herror =>
        split
        . rfl
        . next hdone =>
          apply ih
          rw [Bool.or_eq_true] at hrest
          apply hrest.resolve_left
          simp [stops, herror, hdone]

theorem recvRequest_of_cutsClean (lexical_cast : List UInt8 → Option Nat) {call call' : Call}
    {peer peer' : Peer} (hsame : peer.flatten = peer'.flatten) (hlen : peer.flatten.length < 2 ^ 31)
    (huri : call.uri_relaxed = call'.uri_relaxed ∨ sameEdges http_parser_start peer.flatten = true)
    (hclean : call.CutsClean peer) (hclean' : call'.CutsClean peer')
    : (call.recvRequest lexical_cast peer).outcome = (call'.recvRequest lexical_cast peer').outcome := by
  rw [hclean.outcome lexical_cast hlen]
  rw [hsame] at hlen huri ⊢
  rw [hclean'.outcome lexical_cast hlen]
  rcases huri with huri | hedges
  . rw [huri]
  . rw [exec_sameEdges hedges, exec_sameEdges hedges call'.uri_relaxed]

section Method

variable {r : Bool} {buffer token : List UInt8} {p : Nat} {parser : HttpRequestParser}

theorem trans_method_byte (r : Bool) {cs : Nat} {b : UInt8} (hb : inRange b Table.method = true)
    (hcs : cs = http_parser_start ∨ methodState cs)
    : trans r cs b = ([], http_parser_error)
      ∨ ∃ cs', methodState cs' ∧ (trans r cs b = ([.mark], cs') ∨ trans r cs b = ([], cs')) := by
  obtain ⟨actions, cs', htrans⟩ : ∃ actions cs', trans r cs b = (actions, cs') := ⟨_, _, rfl⟩
  rw [htrans]
  rcases trans_cases r (edges_edgeToken r) htrans with ⟨rfl, rfl⟩ | ⟨e, hrange, hedge, -, hcs'⟩
  . left
    rfl
  . right
    simp only [edgeToken, decide_eq_true_eq] at hedge
    rw [← hcs'] at hedge
    rcases hedge hcs with hstate | hother
    . exists cs'
      refine ⟨hstate, ?_⟩
      rcases (trans_methodState htrans hstate).2 with ⟨-, rfl⟩ | ⟨-, rfl⟩
      . left
        rfl
      . right
        rfl
    . exfalso
      have hrange' := inRange_method hb
      simp only [List.mem_cons, List.not_mem_nil, or_false] at hother
      rcases hother with he | he | he
      all_goals
        rw [he] at hrange
        have := inRange_on hrange
        revert this
        simp only [Char.reduceToNat]
        omega

theorem methodState_lt {cs : Nat} (h : methodState cs) : cs < http_parser_first_final := by
  simp only [methodState, Bool.or_eq_true, beq_iff_eq, decide_eq_true_eq] at h
  unfold http_parser_first_final
  omega

theorem exec_token (htoken : ∀ b ∈ token, inRange b Table.method = true)
    (hcs : parser.m_httpParser.cs = http_parser_start ∨ methodState parser.m_httpParser.cs)
    : ∃ q parser', exec r buffer p token parser = some (q, parser')
        ∧ parser'.m_httpParser.body_start = parser.m_httpParser.body_start
        ∧ (parser'.m_httpParser.cs = http_parser_error
          ∨ q = p + token.length
            ∧ (token = [] ∧ parser' = parser ∨ methodState parser'.m_httpParser.cs)) := by
  induction token generalizing p parser with
  | nil => exact ⟨p, parser, rfl, rfl, .inr ⟨rfl, .inl ⟨rfl, rfl⟩⟩⟩
  | cons b token ih =>
    simp only [List.mem_cons, forall_eq_or_imp] at htoken
    rcases trans_method_byte r htoken.1 hcs with htrans | ⟨cs', hstate, htrans⟩
    . simp only [exec, htrans]
      exact ⟨p, _, rfl, rfl, .inl rfl⟩
    . have hne : cs' ≠ http_parser_error := by
        intro heq
        rw [heq] at hstate
        cases hstate
      have hexec : ∃ parser₁, parser₁.m_httpParser.cs = cs'
          ∧ parser₁.m_httpParser.body_start = parser.m_httpParser.body_start
          ∧ exec r buffer p (b :: token) parser = exec r buffer (p + 1) token parser₁ := by
        rcases htrans with htrans | htrans
        . simp only [exec, htrans]
          refine ⟨_, ?_, ?_, if_neg hne⟩
          . rfl
          . rfl
        . simp only [exec, htrans]
          refine ⟨_, ?_, ?_, if_neg hne⟩
          . rfl
          . rfl
      obtain ⟨parser₁, hcs₁, hbody₁, hexec⟩ := hexec
      subst hcs₁
      rw [hexec]
      obtain ⟨q, parser', hexec', hbody', hend⟩ := ih htoken.2 (.inr hstate)
      refine ⟨q, parser', hexec', hbody'.trans hbody₁, ?_⟩
      rcases hend with hend | ⟨hq, hend⟩
      . left
        exact hend
      . right
        refine ⟨by rw [hq, List.length_cons]; omega, .inr ?_⟩
        rcases hend with ⟨-, hend⟩ | hend
        . rw [hend]
          exact hstate
        . exact hend

theorem charsToHttpMethod_space (rest : List UInt8)
    : charsToHttpMethod (32 :: rest) = .HTTP_INVALID_METHOD := by
  have hentry : ∀ entry ∈ httpMethodMap, (bytes entry.2).head? ≠ some 32 ∧ bytes entry.2 ≠ [] := by
    decide
  have hnone : httpMethodMap.find? (fun entry => (bytes entry.2).isPrefixOf (32 :: rest)) = none := by
    rw [List.find?_eq_none]
    intro entry hmem
    have := hentry entry hmem
    cases hname : bytes entry.2 with
    | nil => simp [hname] at this
    | cons c name =>
      rw [hname] at this
      simp only [List.head?_cons, ne_eq, Option.some.injEq] at this
      simp [List.isPrefixOf, this.1]
  unfold charsToHttpMethod
  rw [hnone]

theorem trans_space : ∀ r : Bool, ∀ cs < 348, methodState cs
    → trans r cs 32 = ([.request_method], 3) := by
  decide +kernel

theorem exec_space {buffer rest : List UInt8} {q : Nat} {parser' : HttpRequestParser}
    (hbuffer : charsToHttpMethod buffer = .HTTP_INVALID_METHOD)
    (hstate : methodState parser.m_httpParser.cs)
    (h : exec r buffer 0 (32 :: rest) parser.reset = some (q, parser')) : parser'.m_error ≠ 0 := by
  simp only [exec, trans_space r parser.reset.m_httpParser.cs (methodState_lt hstate) hstate] at h
  simp only [List.foldlM_cons, List.foldlM_nil, Action.run, HttpRequestParser.reset,
    List.drop_zero, HttpRequestParser.onRequestMethod, hbuffer] at h
  apply exec_error h
  simp [HttpRequestParser.setError, HttpRequestParser.setState]

theorem execute_space {data data' rest : List UInt8} {q : Nat} {parser' : HttpRequestParser}
    (hdata : data.length = buff_size) (hstate : methodState parser.m_httpParser.cs)
    (h : parser.execute r (data.overwrite 0 (32 :: rest)) (rest.length + 1)
      = some (q, data', parser')) : parser'.m_error ≠ 0 := by
  have htake : (data.overwrite 0 (32 :: rest)).take (rest.length + 1) = 32 :: rest :=
    @take_overwrite_piece data (32 :: rest) hdata
  have hexec := exec_of_execute h (Nat.succ_pos rest.length)
  rw [htake] at hexec
  exact exec_space (charsToHttpMethod_space _) hstate hexec

theorem recvHeader_space (lexical_cast : List UInt8 → Option Nat) (memory : Nat → List UInt8)
    {data rest : List UInt8} {peer : Peer} (hdata : data.length = buff_size)
    (hstate : methodState parser.m_httpParser.cs)
    : (recvHeader r data 0 parser ((32 :: rest) :: peer)).outcome lexical_cast memory = none := by
  obtain ⟨rest', peer', hread⟩ : ∃ rest' peer',
      read buff_size ((32 :: rest) :: peer) = (32 :: rest', peer') := ⟨_, _, rfl⟩
  rw [recvHeader]
  simp only [Nat.sub_zero, Nat.add_zero, hread]
  rw [dif_neg (by simp)]
  split
  next => rfl
  next q data' parser' hexecute =>
    have herror := execute_space hdata hstate hexecute
    rw [if_pos (by simp [HttpRequestParser.hasError, herror])]
    rfl

theorem recvHeader_token (lexical_cast : List UInt8 → Option Nat) (memory : Nat → List UInt8)
    {data rest : List UInt8} {pieces peer : Peer} (hdata : data.length = buff_size)
    (hpieces : ∀ piece ∈ pieces, piece ≠ [] ∧ piece.length ≤ buff_size
      ∧ ∀ b ∈ piece, inRange b Table.method = true)
    (hbody : parser.m_httpParser.body_start = 0)
    (hstate : pieces ≠ [] ∧ parser.m_httpParser.cs = http_parser_start
      ∨ methodState parser.m_httpParser.cs)
    : (recvHeader r data 0 parser (pieces ++ (32 :: rest) :: peer)).outcome lexical_cast memory
        = none := by
  induction pieces generalizing data parser with
  | nil =>
    rcases hstate with ⟨hnil, -⟩ | hstate
    . exact absurd rfl hnil
    . exact recvHeader_space lexical_cast memory hdata hstate
  | cons token pieces ih =>
    rw [List.forall_mem_cons] at hpieces
    obtain ⟨⟨hne, hle, htoken⟩, hpieces⟩ := hpieces
    obtain ⟨q, parser', hexec, hbody', hend⟩ := @exec_token r (data.overwrite 0 token) token 0
      parser.reset htoken (hstate.imp And.right id)
    obtain ⟨data', hexecute⟩ := execute_of_exec hdata hne hle hexec hbody
    have hdata' := (execute_piece_spec hdata hle hexecute).2
    rw [List.cons_append, recvHeader_piece _ _ _ _ hne hle]
    simp only [Nat.add_zero, hexecute]
    cases herror : parser'.hasError with
    | true => rfl
    | false =>
      rcases hend with hend | ⟨hq, hend⟩
      . exfalso
        simp [HttpRequestParser.hasError, httpParserHasError, hend] at herror
      . rcases hend with ⟨hnil, -⟩ | hstate'
        . exact absurd hnil hne
        . have hzero : token.length - q = 0 := by omega
          rw [hzero, isFinished_eq_zero (methodState_lt hstate') herror]
          simp only [Bool.false_eq_true, if_false, ne_eq, not_true_eq_false]
          rw [if_neg (by decide)]
          exact ih hdata' hpieces (hbody'.trans hbody) (.inr hstate')

theorem Call.recvRequest_token (lexical_cast : List UInt8 → Option Nat) (call : Call)
    {pieces peer : Peer} {rest : List UInt8} (hne : pieces ≠ [])
    (hpieces : ∀ piece ∈ pieces, piece ≠ [] ∧ piece.length ≤ buff_size
      ∧ ∀ b ∈ piece, inRange b Table.method = true)
    : (call.recvRequest lexical_cast (pieces ++ (32 :: rest) :: peer)).outcome = none := by
  rw [Call.recvRequest_outcome]
  exact recvHeader_token lexical_cast call.memory call.size hpieces rfl (.inl ⟨hne, rfl⟩)

end Method

def Cuts (stream : List UInt8) (peer : Peer) : Prop :=
  peer.flatten = stream ∧ ∀ piece ∈ peer, piece ≠ []

/-- The outcome for the stream is the same however it is cut. -/
def Independent (lexical_cast : List UInt8 → Option Nat) (stream : List UInt8) : Prop :=
  ∀ (call call' : Call) (peer peer' : Peer), Cuts stream peer → Cuts stream peer'
    → (call.recvRequest lexical_cast peer).outcome = (call'.recvRequest lexical_cast peer').outcome

theorem independent_iff (lexical_cast : List UInt8 → Option Nat) {token rest : List UInt8}
    (hne : token ≠ []) (htoken : ∀ b ∈ token, inRange b Table.method = true)
    : Independent lexical_cast (token ++ 32 :: rest)
        ↔ ∀ (call : Call) (peer : Peer), Cuts (token ++ 32 :: rest) peer
          → (call.recvRequest lexical_cast peer).outcome = none := by
  constructor
  . intro h call peer hpeer
    have hcut : Cuts (token ++ 32 :: rest) (token.map ([·]) ++ [32 :: rest]) := by
      constructor
      . rw [List.flatten_append, List.flatten_singleton, ← List.flatMap_def,
          List.flatMap_singleton']
      . intro piece hpiece
        rw [List.mem_append, List.mem_map, List.mem_singleton] at hpiece
        rcases hpiece with ⟨b, -, rfl⟩ | rfl
        . exact List.cons_ne_nil _ _
        . exact List.cons_ne_nil _ _
    rw [h call call peer _ hpeer hcut]
    apply Call.recvRequest_token
    . rw [ne_eq, List.map_eq_nil_iff]
      exact hne
    . intro piece hpiece
      rw [List.mem_map] at hpiece
      obtain ⟨b, hb, rfl⟩ := hpiece
      refine ⟨List.cons_ne_nil _ _, by simp [buff_size], ?_⟩
      intro b' hb'
      rw [List.mem_singleton.mp hb']
      exact htoken b hb
  . intro h call call' peer peer' hpeer hpeer'
    rw [h call peer hpeer, h call' peer' hpeer']

/--
Two ways of cutting a stream at clean places have the same outcome. All ways of cutting it have the
same outcome only if none is accepted.
-/
theorem recvRequest_cuts (lexical_cast : List UInt8 → Option Nat)
    : (∀ (call call' : Call) (peer peer' : Peer), peer.flatten = peer'.flatten
        → peer.flatten.length < 2 ^ 31
        → call.uri_relaxed = call'.uri_relaxed ∨ sameEdges http_parser_start peer.flatten = true
        → call.CutsClean peer → call'.CutsClean peer'
        → (call.recvRequest lexical_cast peer).outcome
            = (call'.recvRequest lexical_cast peer').outcome)
      ∧ ∀ token rest : List UInt8, token ≠ [] → (∀ b ∈ token, inRange b Table.method = true)
        → (Independent lexical_cast (token ++ 32 :: rest)
          ↔ ∀ (call : Call) (peer : Peer), Cuts (token ++ 32 :: rest) peer
            → (call.recvRequest lexical_cast peer).outcome = none) := by
  constructor
  . intro call call' peer peer' hsame hlen huri hclean hclean'
    exact recvRequest_of_cutsClean lexical_cast hsame hlen huri hclean hclean'
  . intro token rest hne htoken
    exact independent_iff lexical_cast hne htoken

section CleanReads

variable {r : Bool} {stream piece : List UInt8} {w w' : HttpRequestParser} {base q : Nat}
  {peer : Peer}

theorem cleanReads_stop (hle : piece.length ≤ buff_size)
    (hstop : (exec r stream base piece w).all (fun out => out.2.hasError || out.2.isFinished != 0)
      = true)
    : cleanReads r stream w base (piece :: peer) = true := by
  rw [cleanReads]
  simp only [read_cons peer hle]
  cases hexec : exec r stream base piece w with
  | none => simp only [dite_eq_ite, ite_self]
  | some out =>
    rw [hexec, Option.all_some] at hstop
    simp only [hstop, Bool.true_or, dite_eq_ite, ite_self]

theorem cleanReads_cons (hle : piece.length ≤ buff_size)
    (hexec : exec r stream base piece w = some (q, w')) (hq : base + piece.length = q)
    (hclean : clean r w'.m_httpParser.cs [] peer.flatten = true)
    (hreads : cleanReads r stream w' q peer = true)
    : cleanReads r stream w base (piece :: peer) = true := by
  rw [cleanReads]
  simp only [read_cons peer hle, hexec, hq, hclean, hreads, Bool.and_self, Bool.or_true,
    dite_eq_ite, ite_self]

end CleanReads

def someCall (uri_relaxed : Bool) (query_start : Nat) (garbage : UInt8) : Call where
  uri_relaxed := uri_relaxed
  query_start := query_start
  buffer := List.replicate 100 garbage
  memory n := List.replicate (n + 1) garbage
  size := List.length_replicate

theorem recvRequest_cuts_at_tokens
    : ((someCall false 0 0).recvRequest (fun _ => none) [bytes "GET /a?b HTTP/1.1\r\n\r\n"]).outcome
        = ((someCall true 7 1).recvRequest (fun _ => none)
            [bytes "GET ", bytes "/a?b HTTP/1.1\r", bytes "\n\r\n"]).outcome := by
  apply (recvRequest_cuts _).1
  . decide
  . decide
  . right
    decide
  . refine ⟨by decide, ?_, ?_⟩
    . intro h
      exact absurd h (by decide)
    . exact cleanReads_stop (by decide) (by decide)
  . refine ⟨by decide, ?_, ?_⟩
    . intro h
      exact absurd h (by decide)
    . have hget : exec true (bytes "GET /a?b HTTP/1.1\r\n\r\n") 0 (bytes "GET ") (.new 0)
          = some (4, (HttpRequestParser.new 0).setState 3) := by decide
      have hline : exec true (bytes "GET /a?b HTTP/1.1\r\n\r\n") 4 (bytes "/a?b HTTP/1.1\r")
          ((HttpRequestParser.new 0).setState 3) = some (18,
            { m_httpParser := { httpParserInit 7 with cs := 17, mark := 9 }
              m_data := { HttpRequest.new with m_path := bytes "/a", m_query := bytes "b" }
              m_error := 0 }) := by decide
      apply cleanReads_cons (by decide) hget (by decide) (by decide)
      apply cleanReads_cons (by decide) hline (by decide) (by decide)
      exact cleanReads_stop (by decide) (by decide)

theorem recvRequest_cut_in_method
    : Cuts (bytes "GET / HTTP/1.1\r\n\r\n") [bytes "GET / HTTP/1.1\r\n\r\n"]
      ∧ Cuts (bytes "GET / HTTP/1.1\r\n\r\n") [bytes "GET", bytes " / HTTP/1.1\r\n\r\n"]
      ∧ ((someCall false 0 0).recvRequest (fun _ => none) [bytes "GET / HTTP/1.1\r\n\r\n"]).outcome
        = some HttpRequest.new
      ∧ ((someCall false 0 0).recvRequest (fun _ => none)
          [bytes "GET", bytes " / HTTP/1.1\r\n\r\n"]).outcome = none := by
  refine ⟨⟨by decide, by decide⟩, ⟨by decide, by decide⟩, ?_, ?_⟩
  . rw [Call.recvRequest_outcome, recvHeader_piece _ _ _ _ (by decide) (by decide)]
    decide +kernel
  . have hspace : bytes " / HTTP/1.1\r\n\r\n" = 32 :: bytes "/ HTTP/1.1\r\n\r\n" := by
      decide
    have hmethod : ∀ b ∈ bytes "GET", inRange b Table.method = true := by
      rw [← List.all_eq_true]
      decide
    rw [hspace]
    apply Call.recvRequest_token _ _ (List.cons_ne_nil (bytes "GET") [])
    intro piece hpiece
    rw [List.mem_singleton.mp hpiece]
    exact ⟨by decide, by decide, hmethod⟩

end Http
end CXS
