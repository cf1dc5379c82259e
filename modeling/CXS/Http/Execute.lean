import CXS.Http.Body
import CXS.Http.Registers
import CXS.Http.ResponseParser
import CXS.Util.LTS

/-!
This module contains what the calls of `execute` do with the chunks that they are given: how much of
a chunk they consume and what their `memmove` leaves in it.

A call that an `assert` or an exception ends returns no count, so it is no step here, and does not
behave as it should.
-/

namespace CXS
namespace Http

/--
What a call of `execute` that returns does with the chunk `data`: `rt` is its count, `moved` the
chunk after its `memmove` and `failed` whether the machine reports an error, through what it returns
or through its state.
-/
structure Executed where
  data : List UInt8
  rt : Nat
  moved : Option (List UInt8)
  failed : Bool
  hasError : Bool
  deriving DecidableEq, Repr

structure Executed.Behaves (e : Executed) : Prop where
  consumed : e.rt ≤ e.data.length
  suffix : e.moved = some (e.data.overwrite 0 (e.data.drop e.rt))
  reported : e.failed = true → e.hasError = true

def HttpResponseParser.lts : LTS HttpResponseParser Executed where
  step parser e parser' :=
    parser.execute e.data = some (e.rt, e.moved, parser')
      ∧ (∃ code,
          Client.httpclientParserExecute parser (e.data ++ [0]) e.data.length = some (code, parser')
            ∧ e.failed
              = (decide (code < 0)
                || Client.httpclientParserHasError parser'.m_httpclientParser))
      ∧ e.hasError = parser'.hasError

def HttpRequestParser.lts (uri_relaxed : Bool) : LTS HttpRequestParser Executed where
  step parser e parser' :=
    (∃ data', parser.execute uri_relaxed (e.data ++ [0]) e.data.length
        = some (e.rt, data', parser'))
      ∧ e.moved = memmove e.data (ptrOffset e.rt) (toSize (e.data.length - e.rt))
      ∧ e.failed = httpParserHasError parser'.m_httpParser
      ∧ e.hasError = parser'.hasError

/-- A call of `execute` on the chunk `data` returns, and consumes its chunk as it should. -/
def HttpResponseParser.Behaves (parser : HttpResponseParser) (data : List UInt8) : Prop :=
  ∃ e parser', lts.step parser e parser' ∧ e.data = data ∧ e.Behaves

def HttpRequestParser.Behaves (uri_relaxed : Bool) (parser : HttpRequestParser) (data : List UInt8)
    : Prop :=
  ∃ e parser', (lts uri_relaxed).step parser e parser' ∧ e.data = data ∧ e.Behaves

theorem toSize_of_lt {n : Nat} (h : n < 2 ^ 63) : toSize n = n := by
  unfold toSize
  omega

theorem toSize_neg_one : toSize (-1) = 2 ^ 64 - 1 := by
  decide

theorem ptrOffset_of_lt {n : Nat} (h : n < 2 ^ 63) : ptrOffset n = n := by
  apply Int.bmod_eq_of_le
  . omega
  . omega

theorem memmove_suffix {data : List UInt8} {rt : Nat} (hrt : rt ≤ data.length)
    (hlen : data.length < 2 ^ 31)
    : memmove data (ptrOffset rt) (toSize (data.length - rt))
        = some (data.overwrite 0 (data.drop rt)) := by
  have hsize : toSize (data.length - rt) = data.length - rt := by
    rw [← Int.ofNat_sub hrt]
    apply toSize_of_lt
    omega
  have hptr : ptrOffset rt = rt := by
    apply ptrOffset_of_lt
    omega
  have hinside : 0 ≤ (rt : Int) ∧ (rt : Int) + (data.length - rt : Nat) ≤ data.length := by
    omega
  unfold memmove
  rw [hptr, hsize, if_pos hinside, Int.toNat_natCast]
  rw [List.take_of_length_le (by rw [List.length_drop])]

namespace Client

structure Within (n : Nat) (parser : HttpResponseParser) : Prop where
  mark : parser.m_httpclientParser.mark < n
  field_start : parser.m_httpclientParser.field_start < n
  field_len : parser.m_httpclientParser.field_len ≤ n

section Within

variable {n p : Nat} {parser : HttpResponseParser}

theorem within_reset (parser : HttpResponseParser) (h : 0 < n) : Within n (reset parser) :=
  ⟨h, h, Nat.zero_le n⟩

theorem Within.setState (h : Within n parser) (cs : Nat) : Within n (setState parser cs) :=
  ⟨h.mark, h.field_start, h.field_len⟩

theorem Within.of_registers {parser' : HttpResponseParser} (h : Within n parser)
    (hsame : parser'.m_httpclientParser = parser.m_httpclientParser) : Within n parser' := by
  constructor
  . rw [hsame]
    exact h.mark
  . rw [hsame]
    exact h.field_start
  . rw [hsame]
    exact h.field_len

theorem onResponseVersion_registers (ptr : List UInt8) (length : Nat)
    : (parser.onResponseVersion ptr length).m_httpclientParser = parser.m_httpclientParser := by
  unfold HttpResponseParser.onResponseVersion
  split
  . rfl
  . split
    . rfl
    . rfl

theorem onResponseHttpField_registers (field value : List UInt8) (flen vlen : Nat)
    : (parser.onResponseHttpField field flen value vlen).m_httpclientParser
        = parser.m_httpclientParser := by
  unfold HttpResponseParser.onResponseHttpField
  split
  . rfl
  . rfl

theorem Within.run (h : Within n parser) (hp : p < n) (buffer : List UInt8) (a : Action)
    : Within n (a.run buffer p parser) := by
  cases a with
  | mark => exact ⟨hp, h.field_start, h.field_len⟩
  | start_value => exact ⟨hp, h.field_start, h.field_len⟩
  | start_field => exact ⟨h.mark, hp, h.field_len⟩
  | write_field => exact ⟨h.mark, h.field_start, (Nat.sub_le _ _).trans hp.le⟩
  | write_value => exact h.of_registers (onResponseHttpField_registers _ _ _ _)
  | reason_phrase => exact h.of_registers rfl
  | status_code => exact h.of_registers rfl
  | http_version => exact h.of_registers (onResponseVersion_registers _ _)
  | done => exact ⟨h.mark, h.field_start, h.field_len⟩
  | write_content_len => exact h
  | write_connection_close => exact h
  | chunk_size => exact h
  | trans_chunked => exact h

theorem foldl_invariant {I : HttpResponseParser → Prop} {buffer : List UInt8}
    (hrun : ∀ parser a, I parser → I (Action.run buffer p parser a)) (actions : List Action)
    (h : I parser) : I (actions.foldl (Action.run buffer p) parser) := by
  induction actions generalizing parser with
  | nil => exact h
  | cons a actions ih => exact ih (hrun parser a h)

theorem exec_invariant {I : HttpResponseParser → Prop} {buffer rest : List UInt8}
    (hrun : ∀ p parser a, p < n → I parser → I (Action.run buffer p parser a))
    (hstate : ∀ parser cs, I parser → I (setState parser cs)) (hn : p + rest.length ≤ n)
    (h : I parser) : (exec buffer p rest parser).1 ≤ n ∧ I (exec buffer p rest parser).2 := by
  induction rest generalizing p parser with
  | nil => exact ⟨hn, h⟩
  | cons b rest ih =>
    rw [List.length_cons] at hn
    have hp : p < n := by
      omega
    have hnext : I (setState _ (trans parser.m_httpclientParser.cs b).2) :=
      hstate _ _ (foldl_invariant (fun parser a => hrun p parser a hp)
        (trans parser.m_httpclientParser.cs b).1 h)
    unfold exec
    dsimp only
    split
    . exact ⟨hp.le, hnext⟩
    . split
      . exact ⟨hp, hnext⟩
      . apply ih _ hnext
        omega

theorem exec_within (h : Within n parser) (buffer rest : List UInt8) (hn : p + rest.length ≤ n)
    : (exec buffer p rest parser).1 ≤ n ∧ Within n (exec buffer p rest parser).2 :=
  exec_invariant (fun _ _ a hp h => h.run hp buffer a) (fun _ cs h => h.setState cs) hn h

def completes (cs : Nat) (rest : List UInt8) : Bool :=
  match rest with
  | [] => false
  | b :: rest =>
    (trans cs b).1.contains .done
      || (trans cs b).2 != httpclient_parser_error && completes (trans cs b).2 rest

theorem foldl_body_start (buffer : List UInt8) (p : Nat) (actions : List Action)
    (parser : HttpResponseParser)
    : (actions.foldl (Action.run buffer p) parser).m_httpclientParser.body_start
        = if .done ∈ actions then p + 1 else parser.m_httpclientParser.body_start := by
  induction actions generalizing parser with
  | nil => rfl
  | cons a actions ih =>
    rw [List.foldl_cons, ih]
    by_cases hmem : .done ∈ actions
    . rw [if_pos hmem, if_pos (List.mem_cons_of_mem a hmem)]
    . rw [if_neg hmem]
      cases a with
      | done =>
        rw [if_pos List.mem_cons_self]
        rfl
      | write_value =>
        rw [if_neg (by simp [hmem])]
        change (parser.onResponseHttpField _ _ _ _).m_httpclientParser.body_start = _
        rw [onResponseHttpField_registers]
      | http_version =>
        rw [if_neg (by simp [hmem])]
        change (parser.onResponseVersion _ _).m_httpclientParser.body_start = _
        rw [onResponseVersion_registers]
      | _ =>
        rw [if_neg (by simp [hmem])]
        rfl

theorem exec_body_start (buffer : List UInt8) {rest : List UInt8} (parser : HttpResponseParser)
    (hn : p + rest.length ≤ n)
    : (exec buffer p rest parser).2.m_httpclientParser.body_start ≤ n
      ↔ parser.m_httpclientParser.body_start ≤ n
        ∨ completes parser.m_httpclientParser.cs rest = true := by
  induction rest generalizing p parser with
  | nil => exact (or_iff_left Bool.false_ne_true).symm
  | cons b rest ih =>
    rw [List.length_cons] at hn
    obtain ⟨parser₁, hparser₁⟩ : ∃ parser₁, setState ((trans parser.m_httpclientParser.cs b).1.foldl
      (Action.run buffer p) parser) (trans parser.m_httpclientParser.cs b).2 = parser₁ := ⟨_, rfl⟩
    have hbody := foldl_body_start buffer p (trans parser.m_httpclientParser.cs b).1 parser
    have hset := congrArg (·.m_httpclientParser.body_start) hparser₁
    have hcs := congrArg (·.m_httpclientParser.cs) hparser₁
    dsimp only [setState] at hset hcs
    rw [hbody] at hset
    unfold exec completes
    dsimp only
    rw [hparser₁]
    by_cases hdone : .done ∈ (trans parser.m_httpclientParser.cs b).1
    . rw [if_pos hdone] at hset
      rw [if_pos hdone]
      have hend : parser₁.m_httpclientParser.body_start ≤ n := by omega
      split
      . exact iff_of_true hend (.inr (by simp [hdone]))
      . exact iff_of_true hend (.inr (by simp [hdone]))
    . rw [if_neg hdone] at hset
      rw [if_neg hdone]
      split
      . next herror =>
        rw [← hset]
        simp [hdone, herror]
      . next herror =>
        rw [ih parser₁ (by omega), ← hset, ← hcs]
        simp [hdone, herror]

end Within

variable {parser parser' : HttpResponseParser} {buffer : List UInt8} {len : Nat} {code : Int}

theorem execute_empty (h : httpclientParserExecute parser buffer 0 = some (code, parser'))
    : code = -1 := by
  unfold httpclientParserExecute at h
  rw [if_pos ((toInt_eq_iff 0).mpr (by decide))] at h
  dsimp only at h
  split at h
  . rw [if_neg (by omega)] at h
    injection h with h
    injection h with hcode
    exact hcode.symm
  . cases h

theorem execute_pos (parser : HttpResponseParser) (buffer : List UInt8) (hpos : 0 < len)
    : httpclientParserExecute parser buffer len
        = if len < 2 ^ 31 ∧ (parser.m_httpclientParser.body_start ≤ len
              ∨ completes parser.m_httpclientParser.cs (buffer.take len) = true) then
            some ((exec buffer 0 (buffer.take len) (reset parser)).1.cast,
              (exec buffer 0 (buffer.take len) (reset parser)).2)
          else
            none := by
  have htake : 0 + (buffer.take len).length ≤ len := by
    rw [List.length_take]
    omega
  obtain ⟨hread, hwithin⟩ := exec_within (within_reset parser hpos) buffer _ htake
  have hbody := exec_body_start buffer (reset parser) htake
  unfold httpclientParserExecute
  by_cases hlt : len < 2 ^ 31
  . rw [if_pos ((toInt_eq_iff len).mpr hlt)]
    dsimp only
    have hnread := (toInt_eq_iff _).mpr (hread.trans_lt hlt)
    by_cases hbodyStart : parser.m_httpclientParser.body_start ≤ len
        ∨ completes parser.m_httpclientParser.cs (buffer.take len) = true
    . rw [if_pos ⟨hread, hbody.mpr hbodyStart⟩,
        if_pos ⟨hwithin.mark, hwithin.field_len, hwithin.field_start⟩, hnread,
        if_pos ⟨hlt, hbodyStart⟩]
    . rw [if_neg (fun h => hbodyStart (hbody.mp h.2)), if_neg (fun h => hbodyStart h.2)]
  . rw [if_neg (mt (toInt_eq_iff len).mp hlt), if_neg (fun h => hlt h.1)]

end Client

namespace HttpResponseParser

variable {parser parser' : HttpResponseParser} {e : Executed} {data : List UInt8}

theorem execute_eq {code : Int}
    (h : Client.httpclientParserExecute parser (data ++ [0]) data.length = some (code, parser'))
    : parser.execute data
        = some (toSize code,
          memmove data (ptrOffset (toSize code)) (toSize (data.length - toSize code)), parser') := by
  unfold execute
  rw [h, Option.map_some]

theorem behaves_of_step (h : lts.step parser e parser') (hne : e.data ≠ []) : e.Behaves := by
  obtain ⟨hexecute, ⟨code, hcode, hfailed⟩, herror⟩ := h
  have hpos := List.length_pos_of_ne_nil hne
  have hlen : 0 + ((e.data ++ [0]).take e.data.length).length ≤ e.data.length := by
    rw [List.take_left]
    exact (Nat.zero_add _).le
  have hread := (Client.exec_within (Client.within_reset parser hpos) (e.data ++ [0]) _
    hlen).1
  have hexecute' := execute_eq hcode
  rw [Client.execute_pos parser _ hpos] at hcode
  split at hcode
  . next hassert =>
    cases hcode
    have hsize := toSize_of_lt (hread.trans_lt (hassert.1.trans (by decide)))
    rw [hexecute', hsize] at hexecute
    simp only [Option.some.injEq, Prod.mk.injEq] at hexecute
    obtain ⟨hrt, hmoved, -⟩ := hexecute
    constructor
    . rw [← hrt]
      exact hread
    . rw [← hmoved, ← hrt]
      exact memmove_suffix hread hassert.1
    . intro hf
      rw [hfailed, decide_eq_false (by omega), Bool.false_or] at hf
      rw [herror]
      unfold hasError
      rw [hf, Bool.or_true]
  . cases hcode

theorem rt_of_step_empty (h : lts.step parser e parser') (hnil : e.data = [])
    : e.rt = 2 ^ 64 - 1 := by
  obtain ⟨hexecute, ⟨code, hcode, -⟩, -⟩ := h
  rw [hnil] at hexecute hcode
  rw [execute_eq hcode, Client.execute_empty hcode, toSize_neg_one] at hexecute
  simp only [Option.some.injEq, Prod.mk.injEq] at hexecute
  exact hexecute.1.symm

theorem step_unique {e' : Executed} {parser₁ parser₂ : HttpResponseParser}
    (h : lts.step parser e parser₁) (h' : lts.step parser e' parser₂) (hdata : e.data = e'.data)
    : parser₁ = parser₂ := by
  have hsame := h.1.symm.trans ((congrArg parser.execute hdata).trans h'.1)
  injection hsame with hsame
  injection hsame with _ hsame
  injection hsame

theorem exists_step_iff (hpos : 0 < data.length)
    : (∃ e parser', lts.step parser e parser' ∧ e.data = data)
        ↔ data.length < 2 ^ 31 ∧ (parser.m_httpclientParser.body_start ≤ data.length
          ∨ Client.completes parser.m_httpclientParser.cs data = true) := by
  have heq := Client.execute_pos parser (data ++ [0]) hpos
  rw [List.take_left] at heq
  constructor
  . rintro ⟨e, parser', ⟨-, ⟨code, hcode, -⟩, -⟩, rfl⟩
    rw [heq] at hcode
    split at hcode
    . next h => exact h
    . cases hcode
  . intro h
    rw [if_pos h] at heq
    obtain ⟨code, parser', hcode⟩ : ∃ code parser', Client.httpclientParserExecute parser
      (data ++ [0]) data.length = some (code, parser') := ⟨_, _, heq⟩
    refine ⟨⟨data, toSize code,
      memmove data (ptrOffset (toSize code)) (toSize (data.length - toSize code)),
      decide (code < 0) || Client.httpclientParserHasError parser'.m_httpclientParser,
      parser'.hasError⟩, parser', ⟨?_, ⟨code, ?_, ?_⟩, ?_⟩, ?_⟩
    . rw [execute_eq hcode]
    . exact hcode
    . dsimp only
    . dsimp only
    . dsimp only

-- `body_start` is what an earlier call has left
def Takes (parser : HttpResponseParser) (data : List UInt8) : Prop :=
  data ≠ [] ∧ data.length < 2 ^ 31
    ∧ (parser.m_httpclientParser.body_start ≤ data.length
      ∨ Client.completes parser.m_httpclientParser.cs data = true)

theorem behaves_iff (parser : HttpResponseParser) (data : List UInt8)
    : parser.Behaves data ↔ parser.Takes data := by
  constructor
  . rintro ⟨e, parser', hstep, rfl, hbehaves⟩
    have hne : e.data ≠ [] := by
      intro hnil
      have hconsumed := hbehaves.consumed
      rw [rt_of_step_empty hstep hnil, hnil, List.length_nil] at hconsumed
      omega
    exact ⟨hne, (exists_step_iff (List.length_pos_of_ne_nil hne)).mp ⟨e, parser', hstep, rfl⟩⟩
  . intro ⟨hne, hreturns⟩
    obtain ⟨e, parser', hstep, rfl⟩ :=
      (exists_step_iff (List.length_pos_of_ne_nil hne)).mpr hreturns
    exact ⟨e, parser', hstep, rfl, behaves_of_step hstep hne⟩

end HttpResponseParser

/--
Where the machine ends a query that began in an earlier chunk: the offset of the byte, which
`query_string` compares with the offset that `start_query` has stored then.
-/
def staleQuery (r : Bool) (cs : Nat) (rest : List UInt8) : Option Nat :=
  match rest with
  | [] => none
  | b :: rest =>
    if .start_query ∈ (trans r cs b).1 then
      none
    else if .query_string ∈ (trans r cs b).1 then
      some 0
    else if stops (trans r cs b).1 (trans r cs b).2 then
      none
    else
      (staleQuery r (trans r cs b).2 rest).map (· + 1)

section Query

variable {r : Bool} {buffer rest : List UInt8} {p : Nat} {a : Action} {actions : List Action}
  {parser parser' : HttpRequestParser}

theorem Action.run_eq_none_iff
    : a.run buffer p parser = none ↔ a = .query_string ∧ p < parser.m_httpParser.query_start := by
  cases a with
  | query_string =>
    unfold run
    dsimp only
    split
    . next h => simp [h]
    . next h => simp [Nat.lt_of_not_le h]
  | done =>
    unfold run
    dsimp only
    split
    . simp
    . simp
  | _ => simp [run]

theorem Action.run_query_start (h : a.run buffer p parser = some parser')
    : parser'.m_httpParser.query_start
        = if a = .start_query then p else parser.m_httpParser.query_start := by
  cases a with
  | query_string =>
    unfold run at h
    dsimp only at h
    split at h
    . cases h
      rfl
    . cases h
  | done =>
    unfold run at h
    dsimp only at h
    split at h
    . cases h
      rfl
    . cases h
      rfl
  | write_value =>
    cases h
    rw [onRequestHttpField_registers]
    rfl
  | request_method =>
    cases h
    rw [onRequestMethod_registers]
    rfl
  | http_version =>
    cases h
    rw [onRequestVersion_registers]
    rfl
  | _ =>
    cases h
    rfl

theorem foldlM_run_of_le (buffer : List UInt8) (actions : List Action)
    (h : parser.m_httpParser.query_start ≤ p)
    : ∃ parser', actions.foldlM (Action.run buffer p) parser = some parser'
        ∧ parser'.m_httpParser.query_start ≤ p := by
  induction actions generalizing parser with
  | nil => exact ⟨parser, rfl, h⟩
  | cons a actions ih =>
    cases hrun : a.run buffer p parser with
    | none => exact absurd (Action.run_eq_none_iff.mp hrun).2 (Nat.not_lt_of_le h)
    | some parser₁ =>
      have hle : parser₁.m_httpParser.query_start ≤ p := by
        rw [Action.run_query_start hrun]
        split
        . exact Nat.le_refl p
        . exact h
      obtain ⟨parser', hactions, hle'⟩ := ih hle
      exact ⟨parser', by rw [List.foldlM_cons, hrun]; exact hactions, hle'⟩

theorem exec_of_le (h : parser.m_httpParser.query_start ≤ p) : exec r buffer p rest parser ≠ none := by
  induction rest generalizing p parser with
  | nil => exact Option.some_ne_none _
  | cons b rest ih =>
    obtain ⟨parser₁, hactions, hle⟩ := foldlM_run_of_le buffer
      (trans r parser.m_httpParser.cs b).1 h
    unfold exec
    dsimp only
    rw [hactions]
    dsimp only
    split
    . exact Option.some_ne_none _
    . split
      . exact Option.some_ne_none _
      . exact ih (hle.trans (Nat.le_succ p))

theorem foldlM_run_stale (buffer : List UInt8) (p : Nat) (parser : HttpRequestParser)
    (h : .start_query ∉ actions)
    : (actions.foldlM (Action.run buffer p) parser = none
        ↔ .query_string ∈ actions ∧ p < parser.m_httpParser.query_start)
      ∧ ∀ parser', actions.foldlM (Action.run buffer p) parser = some parser'
        → parser'.m_httpParser.query_start = parser.m_httpParser.query_start := by
  induction actions generalizing parser with
  | nil =>
    refine ⟨by simp, ?_⟩
    intro parser' hsome
    cases hsome
    rfl
  | cons a actions ih =>
    rw [List.mem_cons, not_or] at h
    rw [List.foldlM_cons, List.mem_cons]
    cases hrun : a.run buffer p parser with
    | none =>
      obtain ⟨ha, hlt⟩ := Action.run_eq_none_iff.mp hrun
      exact ⟨iff_of_true rfl ⟨.inl ha.symm, hlt⟩, nofun⟩
    | some parser₁ =>
      have hsame := Action.run_query_start hrun
      rw [if_neg (Ne.symm h.1)] at hsame
      obtain ⟨hnone, hkeeps⟩ := ih parser₁ h.2
      rw [hsame] at hnone hkeeps
      refine ⟨?_, hkeeps⟩
      change actions.foldlM (Action.run buffer p) parser₁ = none ↔ _
      rw [hnone]
      constructor
      . intro hthrows
        exact ⟨.inr hthrows.1, hthrows.2⟩
      . rintro ⟨ha | hmem, hlt⟩
        . have hthrows : a.run buffer p parser = none :=
            Action.run_eq_none_iff.mpr ⟨ha.symm, hlt⟩
          rw [hrun] at hthrows
          cases hthrows
        . exact ⟨hmem, hlt⟩

def edgeQuery (_ : Nat) (e : Edge) : Bool :=
  !e.actions.contains .start_query || e.actions.head? == some .start_query

theorem edges_edgeQuery (r : Bool) : tableAll r edgeQuery = true := by
  revert r
  decide +kernel

theorem trans_start_query {cs : Nat} {b : UInt8} (h : .start_query ∈ (trans r cs b).1)
    : ∃ actions, (trans r cs b).1 = .start_query :: actions := by
  have htrans : trans r cs b = ((trans r cs b).1, (trans r cs b).2) := rfl
  rcases trans_cases r (edges_edgeQuery r) htrans with ⟨hnil, -⟩ | ⟨e, -, hedge, hactions, -⟩
  . rw [hnil] at h
    cases h
  . rw [hactions] at h ⊢
    unfold edgeQuery at hedge
    rw [List.contains_iff_mem.mpr h, Bool.not_true, Bool.false_or, beq_iff_eq] at hedge
    exact ⟨e.actions.tail, (List.cons_head?_tail hedge).symm⟩

theorem exec_cons_of_le {b : UInt8} {parser₁ : HttpRequestParser}
    (hrun : (trans r parser.m_httpParser.cs b).1.foldlM (Action.run buffer p) parser = some parser₁)
    (hle : parser₁.m_httpParser.query_start ≤ p + 1)
    : exec r buffer p (b :: rest) parser ≠ none := by
  unfold exec
  dsimp only
  rw [hrun]
  dsimp only
  split
  . exact Option.some_ne_none _
  . split
    . exact Option.some_ne_none _
    . exact exec_of_le hle

theorem exec_start_query {b : UInt8} (hstart : .start_query ∈ (trans r parser.m_httpParser.cs b).1)
    : exec r buffer p (b :: rest) parser ≠ none := by
  obtain ⟨actions, hactions⟩ := trans_start_query hstart
  obtain ⟨parser₁, hrun, hle⟩ := @foldlM_run_of_le p
    { parser with m_httpParser := { parser.m_httpParser with query_start := p } }
    buffer actions (Nat.le_refl p)
  have hedge : (trans r parser.m_httpParser.cs b).1.foldlM (Action.run buffer p) parser
      = some parser₁ := by
    rw [hactions]
    exact hrun
  exact exec_cons_of_le hedge (hle.trans (Nat.le_succ p))

theorem exec_eq_none_iff
    : exec r buffer p rest parser = none
        ↔ ∃ k, staleQuery r parser.m_httpParser.cs rest = some k
          ∧ p + k < parser.m_httpParser.query_start := by
  induction rest generalizing p parser with
  | nil => simp [exec, staleQuery]
  | cons b rest ih =>
    by_cases hstart : .start_query ∈ (trans r parser.m_httpParser.cs b).1
    . unfold staleQuery
      rw [if_pos hstart]
      exact iff_of_false (exec_start_query hstart) (by simp)
    . obtain ⟨hnone, hkeeps⟩ := foldlM_run_stale buffer p parser hstart
      cases hrun : (trans r parser.m_httpParser.cs b).1.foldlM (Action.run buffer p) parser with
      | none =>
        obtain ⟨hmem, hlt⟩ := hnone.mp hrun
        unfold exec staleQuery
        dsimp only
        rw [hrun, if_neg hstart, if_pos hmem]
        exact iff_of_true rfl ⟨0, rfl, hlt⟩
      | some parser₁ =>
        have hsame := hkeeps parser₁ hrun
        by_cases hquery : .query_string ∈ (trans r parser.m_httpParser.cs b).1
        . have hle : parser.m_httpParser.query_start ≤ p := by
            apply Nat.le_of_not_lt
            intro hlt
            rw [hnone.mpr ⟨hquery, hlt⟩] at hrun
            cases hrun
          unfold staleQuery
          rw [if_neg hstart, if_pos hquery]
          apply iff_of_false
          . apply exec_cons_of_le hrun
            omega
          . rintro ⟨k, hk, hlt⟩
            cases hk
            omega
        . unfold exec staleQuery stops
          dsimp only
          rw [hrun, if_neg hstart, if_neg hquery]
          dsimp only
          split
          . next herror => simp [herror]
          . next herror =>
            split
            . next hdone => simp [hdone]
            . next hdone =>
              rw [if_neg (by simp [herror, hdone]), ih]
              change (∃ k, _ ∧ _ < parser₁.m_httpParser.query_start) ↔ _
              rw [hsame]
              constructor
              . rintro ⟨k, hk, hlt⟩
                change staleQuery r (trans r parser.m_httpParser.cs b).2 rest = some k at hk
                exact ⟨k + 1, by rw [hk]; rfl, by omega⟩
              . rintro ⟨k, hk, hlt⟩
                rw [Option.map_eq_some_iff] at hk
                obtain ⟨k', hk', rfl⟩ := hk
                exact ⟨k', hk', by omega⟩

end Query

namespace HttpRequestParser

variable {r : Bool} {parser parser' : HttpRequestParser} {e : Executed} {data : List UInt8}

theorem behaves_of_step (h : (lts r).step parser e parser') : e.Behaves := by
  obtain ⟨⟨data', hexecute⟩, hmoved, hfailed, herror⟩ := h
  have hrt := (execute_spec hexecute (by simp)).1
  have hlen : e.data.length < 2 ^ 31 := by
    by_cases hpos : 0 < e.data.length
    . unfold execute at hexecute
      rw [httpParserExecute_eq r parser _ hpos] at hexecute
      by_contra hlong
      rw [if_neg (fun hassert => hlong hassert.1)] at hexecute
      cases hexecute
    . omega
  constructor
  . exact hrt
  . rw [hmoved]
    exact memmove_suffix hrt hlen
  . intro hf
    rw [herror]
    unfold hasError
    rw [← hfailed, hf, Bool.or_true]

theorem exists_step_iff
    : (∃ e parser', (lts r).step parser e parser' ∧ e.data = data)
        ↔ ∃ out, httpParserExecute r parser (data ++ [0]) data.length = some out := by
  constructor
  . rintro ⟨e, parser', ⟨⟨data', hexecute⟩, -⟩, rfl⟩
    unfold execute at hexecute
    split at hexecute
    . cases hexecute
    . next hrun => exact ⟨_, hrun⟩
  . rintro ⟨⟨rt, parser'⟩, hrun⟩
    refine ⟨⟨data, rt, memmove data (ptrOffset rt) (toSize (data.length - rt)),
      httpParserHasError parser'.m_httpParser, parser'.hasError⟩, parser', ⟨?_, ?_, ?_, ?_⟩, ?_⟩
    . unfold execute
      rw [hrun]
      exact ⟨_, rfl⟩
    . dsimp only
    . dsimp only
    . dsimp only
    . dsimp only

theorem step_unique {e' : Executed} {parser₁ parser₂ : HttpRequestParser}
    (h : (lts r).step parser e parser₁) (h' : (lts r).step parser e' parser₂)
    (hdata : e.data = e'.data) : parser₁ = parser₂ := by
  obtain ⟨⟨data₁, h⟩, -⟩ := h
  obtain ⟨⟨data₂, h'⟩, -⟩ := h'
  rw [hdata] at h
  have hsame := h.symm.trans h'
  injection hsame with hsame
  injection hsame with _ hsame
  injection hsame

def Takes (r : Bool) (parser : HttpRequestParser) (data : List UInt8) : Prop :=
  data = [] ∨ data.length < 2 ^ 31
    ∧ (parser.m_httpParser.body_start ≤ data.length
      ∨ completes r parser.m_httpParser.cs data = true)
    ∧ ∀ k, staleQuery r parser.m_httpParser.cs data = some k → parser.m_httpParser.query_start ≤ k

theorem behaves_iff (r : Bool) (parser : HttpRequestParser) (data : List UInt8)
    : parser.Behaves r data ↔ parser.Takes r data := by
  unfold Takes
  have hbehaves : parser.Behaves r data
      ↔ ∃ out, httpParserExecute r parser (data ++ [0]) data.length = some out := by
    rw [← exists_step_iff]
    constructor
    . rintro ⟨e, parser', hstep, hdata, -⟩
      exact ⟨e, parser', hstep, hdata⟩
    . rintro ⟨e, parser', hstep, hdata⟩
      exact ⟨e, parser', hstep, hdata, behaves_of_step hstep⟩
  rw [hbehaves]
  by_cases hnil : data = []
  . subst hnil
    exact iff_of_true ⟨_, rfl⟩ (.inl rfl)
  . have hquery : exec r (data ++ [0]) 0 data parser.reset ≠ none
        ↔ ∀ k, staleQuery r parser.m_httpParser.cs data = some k
          → parser.m_httpParser.query_start ≤ k := by
      rw [ne_eq, exec_eq_none_iff]
      change ¬ (∃ k, staleQuery r parser.m_httpParser.cs data = some k
        ∧ 0 + k < parser.m_httpParser.query_start) ↔ _
      rw [not_exists]
      apply forall_congr'
      intro k
      rw [not_and, Nat.zero_add, Nat.not_lt]
    rw [httpParserExecute_eq r parser _ (List.length_pos_of_ne_nil hnil), List.take_left,
      or_iff_right hnil, ← hquery, ← and_assoc]
    split
    . next hassert => rw [and_iff_right hassert, Option.ne_none_iff_exists']
    . next hassert => exact iff_of_false (by simp) (fun h => hassert h.1)

theorem moved_of_step (h : (lts r).step parser e parser')
    : parser.execute r (e.data ++ [0]) e.data.length
        = some (e.rt, e.moved.getD [] ++ [0], parser') := by
  have hbehaves := behaves_of_step h
  obtain ⟨⟨data', hexecute⟩, -, -, -⟩ := h
  have hrt := hbehaves.consumed
  have hdata : data' = e.data.overwrite 0 (e.data.drop e.rt) ++ [0] := by
    unfold execute at hexecute
    split at hexecute
    . cases hexecute
    . simp only [Option.some.injEq, Prod.mk.injEq] at hexecute
      obtain ⟨hrt', hdata', -⟩ := hexecute
      rw [← hdata', hrt', List.drop_append_of_le_length hrt]
      rw [List.take_left' (by rw [List.length_drop])]
      unfold List.overwrite
      rw [List.take_zero, List.take_zero, List.drop_append_of_le_length (by simp)]
      rw [List.append_assoc, List.append_assoc, List.append_assoc]
  rw [hexecute, hdata, hbehaves.suffix]
  rfl

end HttpRequestParser

theorem execute_behaves_iff (r : Bool) (client : HttpResponseParser) (server : HttpRequestParser)
    (chunks : List (List UInt8))
    : ((∃ es parser, HttpResponseParser.lts.Run client es parser
          ∧ es.map (·.data) = chunks ∧ ∀ e ∈ es, e.Behaves)
        ↔ ∀ pre data post, chunks = pre ++ data :: post
          → ∀ es parser, HttpResponseParser.lts.Run client es parser → es.map (·.data) = pre
            → parser.Takes data)
      ∧ ((∃ es parser, (HttpRequestParser.lts r).Run server es parser
          ∧ es.map (·.data) = chunks ∧ ∀ e ∈ es, e.Behaves)
        ↔ ∀ pre data post, chunks = pre ++ data :: post
          → ∀ es parser, (HttpRequestParser.lts r).Run server es parser → es.map (·.data) = pre
            → parser.Takes r data) := by
  constructor
  . apply LTS.run_inputs_iff Executed.data
    . intro parser e e' parser₁ parser₂ hdata h h'
      exact HttpResponseParser.step_unique h h' hdata
    . exact HttpResponseParser.behaves_iff
  . apply LTS.run_inputs_iff Executed.data
    . intro parser e e' parser₁ parser₂ hdata h h'
      exact HttpRequestParser.step_unique h h' hdata
    . exact HttpRequestParser.behaves_iff r

theorem emptyChunk_not_behaves : ¬ HttpResponseParser.new.Behaves [] := by
  rintro ⟨e, parser', hstep, hnil, hbehaves⟩
  have hconsumed := hbehaves.consumed
  rw [HttpResponseParser.rt_of_step_empty hstep hnil, hnil, List.length_nil] at hconsumed
  omega

end Http
end CXS
