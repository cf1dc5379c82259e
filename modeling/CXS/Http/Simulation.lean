import Mathlib.Data.List.Find
import CXS.Http.Registers

namespace CXS
namespace Http

theorem isPrefixOf_token {name token rest : List UInt8} (h : 32 ∉ name)
    : name.isPrefixOf (token ++ 32 :: rest) = name.isPrefixOf token := by
  induction token generalizing name with
  | nil =>
    cases name with
    | nil => rfl
    | cons c name =>
      have : c ≠ 32 := by
        intro hc
        apply h
        rw [hc]
        apply List.mem_cons_self
      simp [List.isPrefixOf, this]
  | cons b token ih =>
    cases name with
    | nil => rfl
    | cons c name =>
      have := ih (fun hc => h (List.mem_cons_of_mem c hc))
      simp only [List.cons_append, List.isPrefixOf, this]

theorem isPrefixOf_msearch {token rest : List UInt8} (htoken : 32 ∉ token) (hne : token ≠ [77])
    : (bytes "M - SEARCH").isPrefixOf (token ++ 32 :: rest) = false := by
  have hbytes : bytes "M - SEARCH" = 77 :: 32 :: bytes "- SEARCH" := by decide
  rw [hbytes]
  cases token with
  | nil => rfl
  | cons b token =>
    cases token with
    | nil =>
      have : b ≠ 77 := by
        intro hb
        apply hne
        rw [hb]
      simp [List.isPrefixOf, this.symm]
    | cons c token =>
      have : c ≠ 32 := by
        intro hc
        apply htoken
        simp [hc]
      simp [List.isPrefixOf, this.symm]

theorem isPrefixOf_congr {name xs ys : List UInt8} (h : xs.take name.length = ys.take name.length)
    : name.isPrefixOf xs = name.isPrefixOf ys := by
  rw [Bool.eq_iff_iff, List.isPrefixOf_iff_prefix, List.isPrefixOf_iff_prefix,
    List.prefix_iff_eq_take, List.prefix_iff_eq_take, h]

theorem httpMethodMap_space : ∀ entry ∈ httpMethodMap,
    32 ∉ bytes entry.2 ∨ bytes entry.2 = bytes "M - SEARCH" := by
  decide

theorem charsToHttpMethod_token {token xs ys : List UInt8} (htoken : 32 ∉ token)
    (hM : token = [77] → (bytes "M - SEARCH").isPrefixOf (token ++ 32 :: xs)
      = (bytes "M - SEARCH").isPrefixOf (token ++ 32 :: ys))
    : charsToHttpMethod (token ++ 32 :: xs) = charsToHttpMethod (token ++ 32 :: ys) := by
  have hentry : ∀ entry ∈ httpMethodMap, (bytes entry.2).isPrefixOf (token ++ 32 :: xs)
      = (bytes entry.2).isPrefixOf (token ++ 32 :: ys) := by
    intro entry hentry
    rcases httpMethodMap_space entry hentry with hspace | hname
    . rw [isPrefixOf_token hspace, isPrefixOf_token hspace]
    . rw [hname]
      by_cases hne : token = [77]
      . exact hM hne
      . rw [isPrefixOf_msearch htoken hne, isPrefixOf_msearch htoken hne]
  unfold charsToHttpMethod
  rw [List.find?_congr hentry]

def Window (buffer stream : List UInt8) (base len : Nat) : Prop :=
  ∀ i n, i + n ≤ len → (buffer.drop i).take n = (stream.drop (base + i)).take n

theorem Window.strncmp_eq {buffer stream : List UInt8} {base len : Nat}
    (h : Window buffer stream base len) {i n : Nat} (hle : i + n ≤ len) (name : List UInt8)
    : strncmp (buffer.drop i) name n = strncmp (stream.drop (base + i)) name n := by
  unfold strncmp
  rw [h i n hle]

structure Sim (known : List Register) (base p : Nat) (c w : HttpRequestParser) : Prop where
  cs : w.m_httpParser.cs = c.m_httpParser.cs
  m_data : w.m_data = c.m_data
  m_error : w.m_error = c.m_error
  mark : .mark ∈ known → w.m_httpParser.mark = base + c.m_httpParser.mark ∧ c.m_httpParser.mark ≤ p
  field_start : .field_start ∈ known
    → w.m_httpParser.field_start = base + c.m_httpParser.field_start ∧ c.m_httpParser.field_start ≤ p
  field_len : .field_len ∈ known
    → w.m_httpParser.field_len = c.m_httpParser.field_len
      ∧ c.m_httpParser.field_start + c.m_httpParser.field_len ≤ p
  query_start : .query_start ∈ known
    → w.m_httpParser.query_start = base + c.m_httpParser.query_start ∧ c.m_httpParser.query_start ≤ p

namespace Sim

variable {known : List Register} {base base' p q : Nat} {c w : HttpRequestParser}

theorem forget (h : Sim known base p c w) : Sim [] base' q c w where
  cs := h.cs
  m_data := h.m_data
  m_error := h.m_error
  mark := by simp
  field_start := by simp
  field_len := by simp
  query_start := by simp

theorem advance (h : Sim known base p c w) (hle : p ≤ q) : Sim known base q c w where
  cs := h.cs
  m_data := h.m_data
  m_error := h.m_error
  mark hk := ⟨(h.mark hk).1, Nat.le_trans (h.mark hk).2 hle⟩
  field_start hk := ⟨(h.field_start hk).1, Nat.le_trans (h.field_start hk).2 hle⟩
  field_len hk := ⟨(h.field_len hk).1, Nat.le_trans (h.field_len hk).2 hle⟩
  query_start hk := ⟨(h.query_start hk).1, Nat.le_trans (h.query_start hk).2 hle⟩

theorem setState (h : Sim known base p c w) (cs : Nat)
    : Sim known base p (c.setState cs) (w.setState cs) where
  cs := rfl
  m_data := h.m_data
  m_error := h.m_error
  mark := h.mark
  field_start := h.field_start
  field_len := h.field_len
  query_start := h.query_start

theorem callback (h : Sim known base p c w) {c' w' : HttpRequestParser}
    (hc : c'.m_httpParser = c.m_httpParser) (hw : w'.m_httpParser = w.m_httpParser) (hdata : w'.m_data = c'.m_data)
    (herror : w'.m_error = c'.m_error) : Sim known base p c' w' where
  cs := by rw [hc, hw, h.cs]
  m_data := hdata
  m_error := herror
  mark := by rw [hc, hw]; exact h.mark
  field_start := by rw [hc, hw]; exact h.field_start
  field_len := by rw [hc, hw]; exact h.field_len
  query_start := by rw [hc, hw]; exact h.query_start

theorem setMark (h : Sim known base p c w)
    : Sim (.mark :: known) base p
        { c with m_httpParser := { c.m_httpParser with mark := p } }
        { w with m_httpParser := { w.m_httpParser with mark := base + p } } where
  cs := h.cs
  m_data := h.m_data
  m_error := h.m_error
  mark := by simp
  field_start := by simpa using h.field_start
  field_len := by simpa using h.field_len
  query_start := by simpa using h.query_start

theorem setFieldStart (h : Sim known base p c w)
    : Sim (.field_start :: known.filter (· ≠ .field_len)) base p
        { c with m_httpParser := { c.m_httpParser with field_start := p } }
        { w with m_httpParser := { w.m_httpParser with field_start := base + p } } where
  cs := h.cs
  m_data := h.m_data
  m_error := h.m_error
  mark := by simpa using h.mark
  field_start := by simp
  field_len := by simp
  query_start := by simpa using h.query_start

theorem setFieldLen (h : Sim known base p c w) (hstart : .field_start ∈ known)
    : Sim (.field_len :: known) base p
        { c with
          m_httpParser := { c.m_httpParser with field_len := p - c.m_httpParser.field_start } }
        { w with
          m_httpParser := { w.m_httpParser with
            field_len := base + p - w.m_httpParser.field_start } } where
  cs := h.cs
  m_data := h.m_data
  m_error := h.m_error
  mark := by simpa using h.mark
  field_start := by simpa using h.field_start
  field_len := by
    intro
    have := h.field_start hstart
    dsimp only
    omega
  query_start := by simpa using h.query_start

theorem setQueryStart (h : Sim known base p c w)
    : Sim (.query_start :: known) base p
        { c with m_httpParser := { c.m_httpParser with query_start := p } }
        { w with m_httpParser := { w.m_httpParser with query_start := base + p } } where
  cs := h.cs
  m_data := h.m_data
  m_error := h.m_error
  mark := by simpa using h.mark
  field_start := by simpa using h.field_start
  field_len := by simpa using h.field_len
  query_start := by simp

end Sim

theorem sim_new (query_start query_start' : Nat)
    : Sim [] 0 0 (HttpRequestParser.new query_start) (HttpRequestParser.new query_start') where
  cs := rfl
  m_data := rfl
  m_error := rfl
  mark := by simp
  field_start := by simp
  field_len := by simp
  query_start := by simp

section Action

variable {buffer stream : List UInt8} {base len p : Nat} {known known' : List Register}
variable {c w : HttpRequestParser}

theorem Window.string_eq (hwin : Window buffer stream base len) (hp : p < len) {m : Nat}
    (hm : m ≤ p) : string (stream.drop (base + m)) (base + p - (base + m))
      = string (buffer.drop m) (p - m) := by
  have hlen : base + p - (base + m) = p - m := by omega
  unfold string
  rw [hlen, hwin m (p - m) (by omega)]

theorem Sim.onRequestMethod (hsim : Sim known base p c w) {ptr ptr' : List UInt8}
    (hmethod : charsToHttpMethod ptr = charsToHttpMethod ptr')
    : Sim known base p (c.onRequestMethod ptr) (w.onRequestMethod ptr') := by
  unfold HttpRequestParser.onRequestMethod
  rw [hmethod, hsim.m_data]
  dsimp only
  split
  next => exact hsim.callback rfl rfl hsim.m_data rfl
  next => exact hsim.callback rfl rfl rfl hsim.m_error

theorem Sim.onRequestVersion (hsim : Sim known base p c w) {ptr ptr' : List UInt8} {n n' : Nat}
    (hversion : ∀ name, strncmp ptr name n = strncmp ptr' name n')
    : Sim known base p (c.onRequestVersion ptr n) (w.onRequestVersion ptr' n') := by
  unfold HttpRequestParser.onRequestVersion
  rw [hversion, hversion, hsim.m_data]
  split
  next => exact hsim.callback rfl rfl rfl hsim.m_error
  next =>
    split
    next => exact hsim.callback rfl rfl rfl hsim.m_error
    next => exact hsim.callback rfl rfl hsim.m_data rfl

theorem Sim.onRequestHttpField (hsim : Sim known base p c w) {field field' value value' : List UInt8}
    {flen vlen vlen' : Nat} (hfield : string field' flen = string field flen)
    (hvalue : string value' vlen' = string value vlen)
    : Sim known base p (c.onRequestHttpField field flen value vlen)
        (w.onRequestHttpField field' flen value' vlen') := by
  unfold HttpRequestParser.onRequestHttpField
  rw [hfield, hvalue, hsim.m_data]
  split
  next => exact hsim.callback rfl rfl hsim.m_data rfl
  next => exact hsim.callback rfl rfl rfl hsim.m_error

theorem Action.run_done (buffer : List UInt8) (p : Nat) (parser : HttpRequestParser)
    : ∃ start length, Action.run buffer p parser .done = some { parser with
        m_httpParser := { parser.m_httpParser with body_start := start, content_len := length } } := by
  simp only [run]
  split
  next => exact ⟨_, _, rfl⟩
  next => exact ⟨_, _, rfl⟩

theorem Action.run_sim (hwin : Window buffer stream base len) (hp : p < len) {a : Action}
    (hsim : Sim known base p c w) (htrack : a.track known = some known')
    (hmethod : a = .request_method → charsToHttpMethod (buffer.drop c.m_httpParser.mark)
      = charsToHttpMethod (stream.drop w.m_httpParser.mark))
    : ∃ c' w', a.run buffer p c = some c' ∧ a.run stream (base + p) w = some w'
        ∧ Sim known' base p c' w' := by
  unfold track at htrack
  split at htrack
  next huses =>
    cases a with
    | mark =>
      simp only [Option.some.injEq] at htrack
      subst htrack
      exact ⟨_, _, rfl, rfl, hsim.setMark⟩
    | start_field =>
      simp only [Option.some.injEq] at htrack
      subst htrack
      exact ⟨_, _, rfl, rfl, hsim.setFieldStart⟩
    | write_field =>
      simp only [Option.some.injEq] at htrack
      subst htrack
      exact ⟨_, _, rfl, rfl, hsim.setFieldLen (huses (by simp [uses]))⟩
    | start_query =>
      simp only [Option.some.injEq] at htrack
      subst htrack
      exact ⟨_, _, rfl, rfl, hsim.setQueryStart⟩
    | write_value =>
      simp only [Option.some.injEq] at htrack
      subst htrack
      obtain ⟨hmark, hmark'⟩ := hsim.mark (huses (by simp [uses]))
      obtain ⟨hstart, -⟩ := hsim.field_start (huses (by simp [uses]))
      obtain ⟨hflen, hflen'⟩ := hsim.field_len (huses (by simp [uses]))
      refine ⟨_, _, rfl, rfl, ?_⟩
      rw [hmark, hstart, hflen]
      apply hsim.onRequestHttpField
      . unfold string
        rw [hwin _ _ (by omega)]
      . exact hwin.string_eq hp hmark'
    | request_method =>
      simp only [Option.some.injEq] at htrack
      subst htrack
      exact ⟨_, _, rfl, rfl, hsim.onRequestMethod (hmethod rfl)⟩
    | request_uri =>
      simp only [Option.some.injEq] at htrack
      subst htrack
      exact ⟨_, _, rfl, rfl, hsim⟩
    | fragment =>
      simp only [Option.some.injEq] at htrack
      subst htrack
      obtain ⟨hmark, hmark'⟩ := hsim.mark (huses (by simp [uses]))
      refine ⟨_, _, rfl, rfl, ?_⟩
      rw [hmark]
      refine hsim.callback rfl rfl ?_ hsim.m_error
      simp only [HttpRequestParser.onRequestFragment, hsim.m_data, hwin.string_eq hp hmark']
    | query_string =>
      simp only [Option.some.injEq] at htrack
      subst htrack
      obtain ⟨hquery, hquery'⟩ := hsim.query_start (huses (by simp [uses]))
      refine ⟨_, _, if_pos hquery', if_pos (by omega), ?_⟩
      rw [hquery]
      refine hsim.callback rfl rfl ?_ hsim.m_error
      simp only [HttpRequestParser.onRequestQuery, hsim.m_data, hwin.string_eq hp hquery']
    | http_version =>
      simp only [Option.some.injEq] at htrack
      subst htrack
      obtain ⟨hmark, hmark'⟩ := hsim.mark (huses (by simp [uses]))
      have hlen : base + p - (base + c.m_httpParser.mark) = p - c.m_httpParser.mark := by omega
      refine ⟨_, _, rfl, rfl, ?_⟩
      rw [hmark, hlen]
      apply hsim.onRequestVersion
      intro name
      exact hwin.strncmp_eq (by omega) name
    | request_path =>
      simp only [Option.some.injEq] at htrack
      subst htrack
      obtain ⟨hmark, hmark'⟩ := hsim.mark (huses (by simp [uses]))
      refine ⟨_, _, rfl, rfl, ?_⟩
      rw [hmark]
      refine hsim.callback rfl rfl ?_ hsim.m_error
      simp only [HttpRequestParser.onRequestPath, hsim.m_data, hwin.string_eq hp hmark']
    | done =>
      simp only [Option.some.injEq] at htrack
      subst htrack
      obtain ⟨_, _, hc⟩ := run_done buffer p c
      obtain ⟨_, _, hw⟩ := run_done stream (base + p) w
      exact ⟨_, _, hc, hw, {
        cs := hsim.cs
        m_data := hsim.m_data
        m_error := hsim.m_error
        mark := hsim.mark
        field_start := hsim.field_start
        field_len := hsim.field_len
        query_start := hsim.query_start
      }⟩
    | xml | json =>
      simp only [Option.some.injEq] at htrack
      subst htrack
      exact ⟨_, _, rfl, rfl, {
        cs := hsim.cs
        m_data := hsim.m_data
        m_error := hsim.m_error
        mark := hsim.mark
        field_start := hsim.field_start
        field_len := hsim.field_len
        query_start := hsim.query_start
      }⟩
  next => cases htrack

theorem foldlM_run_sim (hwin : Window buffer stream base len) (hp : p < len)
    {actions : List Action} (hsim : Sim known base p c w)
    (htrack : actions.foldlM Action.track known = some known')
    (hmethod : .request_method ∈ actions → actions = [.request_method]
      ∧ charsToHttpMethod (buffer.drop c.m_httpParser.mark)
        = charsToHttpMethod (stream.drop w.m_httpParser.mark))
    : ∃ c' w', actions.foldlM (Action.run buffer p) c = some c'
        ∧ actions.foldlM (Action.run stream (base + p)) w = some w' ∧ Sim known' base p c' w' := by
  induction actions generalizing known c w with
  | nil =>
    simp only [List.foldlM_nil, Option.pure_def, Option.some.injEq] at htrack ⊢
    rw [← htrack]
    exact ⟨c, w, rfl, rfl, hsim⟩
  | cons a actions ih =>
    simp only [List.foldlM_cons, Option.bind_eq_bind, Option.bind_eq_some_iff] at htrack ⊢
    obtain ⟨ks, ha, hactions⟩ := htrack
    obtain ⟨c₁, w₁, hc, hw, hsim₁⟩ := Action.run_sim hwin hp hsim ha (by
      intro heq
      exact (hmethod (by rw [heq]; apply List.mem_cons_self)).2)
    obtain ⟨c₂, w₂, hc', hw', hsim₂⟩ := ih hsim₁ hactions (by
      intro hmem
      have hnil := (hmethod (List.mem_cons_of_mem a hmem)).1
      injection hnil with _ hnil
      rw [hnil] at hmem
      cases hmem)
    exact ⟨c₂, w₂, ⟨c₁, hc, hc'⟩, ⟨w₁, hw, hw'⟩, hsim₂⟩

end Action

structure AtStart (buffer : List UInt8) (base p : Nat) (known : List Register) (m : HttpParser)
    : Prop where
  start : m.cs = http_parser_start → base = 0 ∧ p = 0
  method : methodState m.cs → .mark ∈ known → base = 0 ∧ m.mark = 0 ∧ 32 ∉ buffer.take p

theorem take_succ_of_drop {buffer rest : List UInt8} {p n : Nat} {b : UInt8}
    (h : (buffer.drop p).take (n + 1) = b :: rest)
    : buffer.take (p + 1) = buffer.take p ++ [b] ∧ (buffer.drop (p + 1)).take n = rest := by
  cases hdrop : buffer.drop p with
  | nil =>
    rw [hdrop] at h
    cases h
  | cons x xs =>
    rw [hdrop, List.take_succ_cons] at h
    injection h with hx hxs
    rw [← hx, ← hxs]
    constructor
    . rw [List.take_add, hdrop]
      rfl
    . rw [← List.drop_drop, hdrop]
      rfl

section Exec

variable {r : Bool} {buffer stream post : List UInt8} {base len p : Nat}
variable {known known' : List Register} {c w : HttpRequestParser}

def Decides (stream : List UInt8) (len : Nat) : Prop :=
  bytes "M " <+: stream → 10 ≤ len ∨ ¬ stream.take len <+: bytes "M - SEARCH"

theorem isPrefixOf_of_take {xs name : List UInt8} {len : Nat}
    (h : ¬ xs.take len <+: name) (hlen : len ≤ name.length) : name.isPrefixOf xs = false := by
  rw [← Bool.not_eq_true, List.isPrefixOf_iff_prefix]
  intro hprefix
  apply h
  rw [List.prefix_iff_eq_take] at hprefix
  have htake := congrArg (List.take len) hprefix
  rw [List.take_take, Nat.min_eq_left hlen] at htake
  rw [← htake]
  exact List.take_prefix len name

theorem charsToHttpMethod_window (hwin : Window buffer stream base len) (hp : p < len)
    (hlook : base = 0 → Decides stream len)
    (hbase : base = 0) (htoken : 32 ∉ buffer.take p)
    (hspace : buffer.take (p + 1) = buffer.take p ++ [32])
    : charsToHttpMethod buffer = charsToHttpMethod stream := by
  subst hbase
  have hpre : buffer.take (p + 1) = stream.take (p + 1) := by
    simpa using hwin 0 (p + 1) (by omega)
  have hbuffer : buffer = buffer.take p ++ 32 :: buffer.drop (p + 1) := by
    rw [← List.singleton_append, ← List.append_assoc, ← hspace, List.take_append_drop]
  have hstream : stream = buffer.take p ++ 32 :: stream.drop (p + 1) := by
    rw [← List.singleton_append, ← List.append_assoc, ← hspace, hpre, List.take_append_drop]
  have hname : (bytes "M - SEARCH").length = 10 := by decide
  have heq := @charsToHttpMethod_token (buffer.take p) (buffer.drop (p + 1)) (stream.drop (p + 1))
    htoken (by
      intro hM
      rw [← hbuffer, ← hstream]
      have hstart : bytes "M " <+: stream := by
        rw [hstream, hM]
        exact ⟨stream.drop (p + 1), rfl⟩
      by_cases hlen : 10 ≤ len
      . apply isPrefixOf_congr
        rw [hname]
        simpa using hwin 0 10 (by omega)
      . have htake := (hlook rfl hstart).resolve_left hlen
        have hsame : buffer.take len = stream.take len := by
          simpa using hwin 0 len (by omega)
        rw [isPrefixOf_of_take htake (by omega)]
        rw [← hsame] at htake
        exact isPrefixOf_of_take htake (by omega))
  rw [← hbuffer, ← hstream] at heq
  exact heq

theorem trans_request_method {cs cs' : Nat} {b : UInt8} {actions : List Action}
    (htrans : trans r cs b = (actions, cs')) (hmem : .request_method ∈ actions)
    : methodState cs ∧ b = 32 ∧ actions = [.request_method] := by
  rcases trans_cases r (edges_edgeMethod r) htrans with ⟨rfl, -⟩ | ⟨e, hrange, hedge, rfl, -⟩
  . cases hmem
  . simp only [edgeMethod, decide_eq_true_eq] at hedge
    obtain ⟨hstate, hspace, hmethod⟩ := hedge.1 hmem
    rw [hspace] at hrange
    exact ⟨hstate, UInt8.toNat_inj.mp (inRange_on hrange), hmethod⟩

theorem trans_methodState {cs cs' : Nat} {b : UInt8} {actions : List Action}
    (htrans : trans r cs b = (actions, cs')) (hstate : methodState cs')
    : b ≠ 32 ∧ (cs = http_parser_start ∧ actions = [.mark] ∨ methodState cs ∧ actions = []) := by
  rcases trans_cases r (edges_edgeMethod r) htrans with ⟨-, rfl⟩ | ⟨e, hrange, hedge, rfl, rfl⟩
  . cases hstate
  . simp only [edgeMethod, decide_eq_true_eq] at hedge
    obtain ⟨hmethod, hfrom⟩ := hedge.2.1 hstate
    rw [hmethod] at hrange
    refine ⟨?_, hfrom⟩
    intro hb
    rw [hb] at hrange
    cases hrange

theorem trans_ne_start {cs cs' : Nat} {b : UInt8} {actions : List Action}
    (htrans : trans r cs b = (actions, cs')) : cs' ≠ http_parser_start := by
  rcases trans_cases r (edges_edgeMethod r) htrans with ⟨-, rfl⟩ | ⟨e, -, hedge, -, rfl⟩
  . decide
  . simp only [edgeMethod, decide_eq_true_eq] at hedge
    exact hedge.2.2

theorem trans_done_iff {cs cs' : Nat} {b : UInt8} {actions : List Action}
    (htrans : trans r cs b = (actions, cs'))
    : .done ∈ actions ↔ http_parser_first_final ≤ cs' := by
  rcases trans_cases r (edges_edgeFinal r) htrans with ⟨rfl, rfl⟩ | ⟨e, -, hedge, rfl, rfl⟩
  . decide
  . simp only [edgeFinal, beq_iff_eq] at hedge
    rw [← List.contains_iff_mem, hedge, decide_eq_true_eq]

theorem AtStart.step {b : UInt8} {rest : List UInt8} {n : Nat}
    (hstart : AtStart buffer base p known c.m_httpParser)
    (hrest : (buffer.drop p).take (n + 1) = b :: rest) {actions : List Action} {cs : Nat}
    (htrans : trans r c.m_httpParser.cs b = (actions, cs))
    (htrack : actions.foldlM Action.track known = some known') {c' : HttpRequestParser}
    (hrun : actions.foldlM (Action.run buffer p) c = some c')
    : AtStart buffer base (p + 1) known' (c'.setState cs).m_httpParser where
  start heq := by
    exfalso
    exact trans_ne_start htrans heq
  method hstate hmark := by
    obtain ⟨hb, hfrom⟩ := trans_methodState htrans hstate
    rw [(take_succ_of_drop hrest).1]
    simp only [List.mem_append, List.mem_singleton, not_or]
    rcases hfrom with ⟨hcs, hactions⟩ | ⟨hcs, hactions⟩
    . obtain ⟨hbase, hp⟩ := hstart.start hcs
      rw [hactions] at hrun
      simp only [List.foldlM_cons, List.foldlM_nil, Action.run] at hrun
      injection hrun with hc'
      rw [← hc', hp]
      exact ⟨hbase, rfl, by simp, hb.symm⟩
    . rw [hactions] at hrun htrack
      injection hrun with hc'
      injection htrack with hknown
      rw [← hknown] at hmark
      obtain ⟨hbase, hm, htoken⟩ := hstart.method hcs hmark
      rw [← hc']
      exact ⟨hbase, hm, htoken, hb.symm⟩

theorem request_method_sim (hwin : Window buffer stream base len) (hp : p < len)
    (hlook : base = 0 → Decides stream len) (hsim : Sim known base p c w)
    (hstart : AtStart buffer base p known c.m_httpParser) {b : UInt8} {rest : List UInt8} {n : Nat}
    (hrest : (buffer.drop p).take (n + 1) = b :: rest) {actions : List Action} {cs : Nat}
    (htrans : trans r c.m_httpParser.cs b = (actions, cs))
    (htrack : actions.foldlM Action.track known = some known')
    (hmem : .request_method ∈ actions)
    : actions = [.request_method]
      ∧ charsToHttpMethod (buffer.drop c.m_httpParser.mark)
        = charsToHttpMethod (stream.drop w.m_httpParser.mark) := by
  obtain ⟨hstate, hb, hactions⟩ := trans_request_method htrans hmem
  have hknown : .mark ∈ known := by
    rw [hactions] at htrack
    simp only [List.foldlM_cons, Action.track] at htrack
    split at htrack
    next huses => exact huses (by simp [Action.uses])
    next => cases htrack
  obtain ⟨hbase, hmark, htoken⟩ := hstart.method hstate hknown
  have hmark' := (hsim.mark hknown).1
  have hspace := (take_succ_of_drop hrest).1
  rw [hb] at hspace
  refine ⟨hactions, ?_⟩
  rw [hmark', hmark, hbase]
  exact charsToHttpMethod_window hwin hp hlook hbase htoken hspace

theorem exec_sim (hwin : Window buffer stream base len)
    (hlook : base = 0 → Decides stream len) (rest : List UInt8)
    (hp : p + rest.length = len) (hrest : (buffer.drop p).take rest.length = rest)
    (hsim : Sim known base p c w) (hstart : AtStart buffer base p known c.m_httpParser)
    (hcs : c.m_httpParser.cs < http_parser_first_final)
    (hclean : clean r c.m_httpParser.cs known (rest ++ post) = true)
    : (∃ c' w' known', scan r c.m_httpParser.cs rest = some c'.m_httpParser.cs
        ∧ exec r buffer p rest c = some (len, c')
        ∧ exec r stream (base + p) rest w = some (base + len, w')
        ∧ exec r stream (base + p) (rest ++ post) w = exec r stream (base + len) post w'
        ∧ Sim known' base len c' w' ∧ AtStart buffer base len known' c'.m_httpParser
        ∧ c'.m_httpParser.cs < http_parser_first_final)
      ∨ (∃ q c' w', scan r c.m_httpParser.cs rest = none
        ∧ exec r buffer p rest c = some (q, c')
        ∧ exec r stream (base + p) (rest ++ post) w = some (base + q, w')
        ∧ Sim [] base len c' w'
        ∧ (c'.m_httpParser.cs = http_parser_error
          ∨ 0 < q ∧ http_parser_first_final ≤ c'.m_httpParser.cs)) := by
  induction rest generalizing p known c w with
  | nil =>
    left
    simp only [List.length_nil, Nat.add_zero] at hp
    subst hp
    exact ⟨c, w, known, rfl, rfl, rfl, rfl, hsim, hstart, hcs⟩
  | cons b rest ih =>
    simp only [List.length_cons] at hp hrest
    obtain ⟨actions, cs, htrans⟩ : ∃ actions cs, trans r c.m_httpParser.cs b = (actions, cs) :=
      ⟨_, _, rfl⟩
    simp only [List.cons_append, clean, htrans] at hclean
    split at hclean
    next => cases hclean
    next known' htrack =>
      obtain ⟨c₁, w₁, hc, hw, hsim₁⟩ := foldlM_run_sim hwin (by omega) hsim htrack
        (request_method_sim hwin (by omega) hlook hsim hstart hrest htrans htrack)
      simp only [exec, scan, List.cons_append, hsim.cs, htrans, hc, hw, stops]
      by_cases herror : cs = http_parser_error
      . right
        refine ⟨p, c₁.setState cs, w₁.setState cs, ?_, ?_, ?_, (hsim₁.setState cs).forget, ?_⟩
        . simp [herror]
        . rw [if_pos herror]
        . rw [if_pos herror]
        . left
          exact herror
      . by_cases hdone : .done ∈ actions
        . right
          refine ⟨p + 1, c₁.setState cs, w₁.setState cs, ?_, ?_, ?_, (hsim₁.setState cs).forget, ?_⟩
          . simp [hdone]
          . rw [if_neg herror, if_pos hdone]
          . rw [if_neg herror, if_pos hdone]
            rfl
          . right
            exact ⟨by omega, (trans_done_iff htrans).mp hdone⟩
        . have hstops : stops actions cs = false := by
            simp [stops, herror, hdone]
          have hlt : cs < http_parser_first_final := by
            have := mt (trans_done_iff htrans).mpr hdone
            omega
          rw [hstops, Bool.false_or] at hclean
          have hgoes : ¬ (cs == http_parser_error || actions.contains .done) = true := by
            simp [herror, hdone]
          simp only [if_neg herror, if_neg hdone, if_neg hgoes]
          exact ih (by omega) (take_succ_of_drop hrest).2
            ((hsim₁.setState cs).advance (by omega)) (hstart.step hrest htrans htrack hc) hlt hclean

end Exec

end Http
end CXS
