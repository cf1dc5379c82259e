import CXS.Http.RequestRoundTrip

namespace CXS
namespace Http

namespace Client

def lineStates : List Nat :=
  [20, 43]

def keyStates : List Nat :=
  [21, 25, 26, 27, 28, 29, 30, 31, 32, 33, 34, 44, 45, 46, 47, 48, 49, 50, 51, 52, 53, 54, 55, 56, 57,
    58, 59, 60, 101, 102, 103, 104, 105, 106, 107, 108, 109, 110, 111]

def colonStates : List Nat :=
  [22, 35, 61, 112]

def valueStates : List Nat :=
  [23, 81, 82, 83, 84, 85, 86, 87, 96, 97, 98, 99, 100, 119]

def crStates : List Nat :=
  [24, 71, 88]

def keyName (cs : Nat) : List UInt8 :=
  if 25 ≤ cs ∧ cs ≤ 34 then
    (bytes "connection").take (cs - 24)
  else if 44 ≤ cs ∧ cs ≤ 60 then
    (bytes "transfer-encoding").take (cs - 43)
  else if 101 ≤ cs ∧ cs ≤ 111 then
    (bytes "content-length").take (cs - 97)
  else
    []

def InKey (text : List UInt8) (cs : Nat) : Prop :=
  cs ∈ keyStates ∧ (cs = 21 ∨ keyName cs = text.map tolower)

def Special (key : List UInt8) : Prop :=
  key.map tolower ∈ [bytes "connection", bytes "transfer-encoding", bytes "content-length"]

def FieldName (key : List UInt8) : Prop :=
  key ≠ [] ∧ ∀ b ∈ key, inRange b Table.token = true

def Plain (text : List UInt8) : Prop :=
  ∀ b ∈ text, b ≠ 10 ∧ b ≠ 13

structure FieldValue (key value : List UInt8) : Prop where
  plain : Plain value
  head : ∀ b, value.head? = some b → inRange b Table.space = false
  empty : value = [] → ¬Special key

section Table

theorem trans_key_start : ∀ b, inRange b Table.token = true → ∀ cs ∈ lineStates,
    (trans cs b).1 ∈ [[.start_field], [.write_connection_close, .start_field]]
      ∧ (trans cs b).2 ∈ keyStates
      ∧ ((trans cs b).2 = 21 ∨ keyName (trans cs b).2 = [tolower b]) := by
  apply forall_byte
  decide +kernel

theorem trans_key : ∀ b, inRange b Table.token = true → ∀ cs ∈ keyStates,
    (trans cs b).1 = [] ∧ (trans cs b).2 ∈ keyStates
      ∧ ((trans cs b).2 = 21
        ∨ cs ≠ 21 ∧ keyName (trans cs b).2 = keyName cs ++ [tolower b]) := by
  apply forall_byte
  decide +kernel

theorem trans_colon : ∀ cs ∈ keyStates, (trans cs 58).1 = [.write_field]
    ∧ (trans cs 58).2 ∈ colonStates
    ∧ ((trans cs 58).2 = 22
      ∨ keyName cs ∈ [bytes "connection", bytes "transfer-encoding", bytes "content-length"]
        ∧ cs ≠ 21) := by
  decide

theorem trans_blank : ∀ cs ∈ colonStates, trans cs 32 = ([.start_value], cs) := by
  decide

theorem trans_value_start : ∀ b, b ≠ 10 ∧ b ≠ 13 ∧ inRange b Table.space = false
    → ∀ cs ∈ colonStates, (trans cs b).1 = [.start_value] ∧ (trans cs b).2 ∈ valueStates := by
  apply forall_byte
  decide +kernel

theorem trans_value : ∀ b, b ≠ 10 ∧ b ≠ 13 → ∀ cs ∈ valueStates,
    (trans cs b).1 = [] ∧ (trans cs b).2 ∈ valueStates := by
  apply forall_byte
  decide +kernel

theorem trans_value_end : ∀ cs ∈ valueStates,
    (trans cs 13).1 ∈ [[.write_value], [.write_content_len, .write_value]]
      ∧ (trans cs 13).2 ∈ crStates := by
  decide

theorem trans_value_empty : trans 22 13 = ([.start_value, .write_value], 24) := by
  decide

theorem trans_line_end : ∀ cs ∈ crStates, (trans cs 10).1 ∈ [[], [.trans_chunked]]
    ∧ (trans cs 10).2 ∈ lineStates := by
  decide

theorem trans_empty_line : (∀ cs ∈ lineStates, (trans cs 13).1 ∈ [[], [.write_connection_close]]
      ∧ (trans cs 13).2 = 3)
    ∧ trans 3 10 = ([.done], httpclient_parser_first_final) := by
  decide

end Table

namespace ResponseMachine

def next (buffer : List UInt8) (p : Nat) (b : UInt8) (parser : HttpResponseParser)
    : Option HttpResponseParser :=
  let (actions, cs) := trans parser.m_httpclientParser.cs b
  if cs = httpclient_parser_error ∨ .done ∈ actions then
    none
  else
    some (setState (actions.foldl (Action.run buffer p) parser) cs)

theorem exec_of_run {buffer text : List UInt8} {p : Nat} {parser parser' : HttpResponseParser}
    (h : Scan.run (next buffer) p text parser = some parser') (rest : List UInt8)
    : exec buffer p (text ++ rest) parser = exec buffer (p + text.length) rest parser' := by
  induction text generalizing p parser with
  | nil =>
    rw [Scan.run, Option.some.injEq] at h
    rw [h]
    rfl
  | cons b text ih =>
    rw [Scan.run] at h
    split at h
    . cases h
    . next parser₁ hnext =>
      unfold next at hnext
      dsimp only at hnext
      split at hnext
      . cases hnext
      . next hgo =>
        rw [not_or] at hgo
        rw [Option.some.injEq] at hnext
        rw [List.cons_append, exec]
        dsimp only
        rw [if_neg hgo.1, if_neg hgo.2, hnext, ih h, List.length_cons, Nat.add_right_comm,
          Nat.add_assoc]

structure Offsets where
  mark : Nat
  field_start : Nat
  field_len : Nat

def offsets (m : HttpclientParser) : Offsets :=
  ⟨m.mark, m.field_start, m.field_len⟩

structure Holds (data : HttpResponse) (known : Offsets → Prop) (parser : HttpResponseParser)
    : Prop where
  m_data : parser.m_data = data
  m_error : parser.m_error = 0
  known : known (offsets parser.m_httpclientParser)

structure At (states : Nat → Prop) (data : HttpResponse) (known : Offsets → Prop)
    (parser : HttpResponseParser) : Prop where
  cs : states parser.m_httpclientParser.cs
  holds : Holds data known parser

def Free (_ : Offsets) : Prop :=
  True

section Rules

variable {buffer : List UInt8} {p : Nat} {b : UInt8} {states states' : Nat → Prop}
  {data data' : HttpResponse} {known known' : Offsets → Prop}

theorem reads_byte (edges : List (List Action))
    (htrans : ∀ cs, states cs → (trans cs b).1 ∈ edges ∧ states' (trans cs b).2)
    (hstates' : ∀ cs, states' cs → cs ≠ httpclient_parser_error)
    (hrun : ∀ actions ∈ edges, .done ∉ actions ∧ ∀ parser, Holds data known parser
      → Holds data' known' (actions.foldl (Action.run buffer p) parser))
    : Scan.Reads (next buffer) (At states data known) p [b] (At states' data' known') := by
  apply Scan.Reads.single
  intro parser h
  obtain ⟨hedge, hnext⟩ := htrans _ h.cs
  obtain ⟨hdone, hfold⟩ := hrun _ hedge
  refine ⟨_, if_neg (not_or.mpr ⟨hstates' _ hnext, hdone⟩), hnext, ?_⟩
  have h' := hfold parser h.holds
  exact ⟨h'.m_data, h'.m_error, h'.known⟩

theorem reads_quiet (htrans : ∀ cs, states cs → (trans cs b).1 = [] ∧ states' (trans cs b).2)
    (hstates' : ∀ cs, states' cs → cs ≠ httpclient_parser_error)
    : Scan.Reads (next buffer) (At states data known) p [b] (At states' data known) := by
  apply reads_byte [[]]
  . intro cs hcs
    rw [List.mem_singleton]
    exact htrans cs hcs
  . exact hstates'
  . intro actions hactions
    rw [List.mem_singleton.mp hactions]
    exact ⟨List.not_mem_nil, fun _ h => h⟩

end Rules

section StartLine

variable {buffer rest : List UInt8} {p : Nat} {data : HttpResponse}

def quiet (cs : Nat) (text : List UInt8) : Option Nat :=
  match text with
  | [] => some cs
  | b :: text =>
    if (trans cs b).1 = [] ∧ (trans cs b).2 ≠ httpclient_parser_error then
      quiet (trans cs b).2 text
    else
      none

theorem reads_quiet_text {known : Offsets → Prop} {cs cs' : Nat} {text : List UInt8}
    (h : quiet cs text = some cs')
    : Scan.Reads (next buffer) (At (· = cs) data known) p text (At (· = cs') data known) := by
  induction text generalizing p cs with
  | nil =>
    rw [quiet, Option.some.injEq] at h
    rw [h]
    exact .nil
  | cons b text ih =>
    rw [quiet] at h
    split at h
    . next hb =>
      apply Scan.Reads.cons _ (ih h)
      apply reads_quiet
      . rintro _ rfl
        exact ⟨hb.1, rfl⟩
      . rintro _ rfl
        exact hb.2
    . cases h

theorem reads_edge {b : UInt8} {cs cs' : Nat} {actions : List Action} {data' : HttpResponse}
    {known known' : Offsets → Prop} (htrans : trans cs b = (actions, cs'))
    (hcs' : cs' ≠ httpclient_parser_error) (hdone : .done ∉ actions)
    (hrun : ∀ parser, Holds data known parser
      → Holds data' known' (actions.foldl (Action.run buffer p) parser))
    : Scan.Reads (next buffer) (At (· = cs) data known) p [b] (At (· = cs') data' known') := by
  apply reads_byte [actions]
  . rintro _ rfl
    rw [htrans]
    exact ⟨List.mem_singleton_self actions, rfl⟩
  . rintro _ rfl
    exact hcs'
  . intro edge hedge
    rw [List.mem_singleton.mp hedge]
    exact ⟨hdone, hrun⟩

theorem reads_mark {b : UInt8} {cs cs' : Nat} (htrans : trans cs b = ([.mark], cs'))
    (hcs' : cs' ≠ httpclient_parser_error)
    : Scan.Reads (next buffer) (At (· = cs) data Free) p [b]
        (At (· = cs') data (fun o => o.mark = p)) := by
  apply reads_edge htrans hcs' (by decide)
  intro parser h
  exact ⟨h.m_data, h.m_error, rfl⟩

theorem onResponseVersion_text {v : UInt8} (hv : v = 0x10 ∨ v = 0x11) (parser : HttpResponseParser)
    (rest : List UInt8)
    : parser.onResponseVersion (versionText v ++ rest) (versionText v).length
        = { parser with m_data := { parser.m_data with m_version := v } } := by
  obtain ⟨h11, h10⟩ := RequestMachine.strncmp_versionText hv rest
  unfold HttpResponseParser.onResponseVersion
  rw [h11, h10]
  rcases hv with rfl | rfl <;> rfl

theorem versionText_cons {v : UInt8} (hv : v = 0x10 ∨ v = 0x11)
    : ∃ text, versionText v = 72 :: text ∧ quiet 8 text = some 15 := by
  rcases hv with rfl | rfl
  . exact ⟨bytes "TTP/1.0", by decide, by decide⟩
  . exact ⟨bytes "TTP/1.1", by decide, by decide⟩

theorem reads_version {v : UInt8} (hv : v = 0x10 ∨ v = 0x11)
    (hbuffer : buffer.drop p = versionText v ++ rest)
    : Scan.Reads (next buffer) (At (· = httpclient_parser_start) data Free) p
        (versionText v ++ bytes " ") (At (· = 16) { data with m_version := v } Free) := by
  obtain ⟨text, htext, hquiet⟩ := versionText_cons hv
  have hstart : trans httpclient_parser_start 72 = ([.mark], 8) := by decide
  have hend : trans 15 32 = ([.http_version], 16) := by decide
  have hname : Scan.Reads (next buffer) (At (· = httpclient_parser_start) data Free) p
      (versionText v) (At (· = 15) data (fun o => o.mark = p)) := by
    rw [htext]
    exact (reads_mark hstart (by decide)).cons (reads_quiet_text hquiet)
  apply hname.append
  apply reads_edge hend (by decide) (by decide)
  intro parser h
  have hmark : parser.m_httpclientParser.mark = p := h.known
  change Holds _ _ (parser.onResponseVersion (buffer.drop parser.m_httpclientParser.mark)
    (p + (versionText v).length - parser.m_httpclientParser.mark))
  rw [hmark, Nat.add_sub_cancel_left, hbuffer, onResponseVersion_text hv]
  refine ⟨?_, h.m_error, trivial⟩
  rw [← h.m_data]

end StartLine

section Status

variable {buffer rest : List UInt8} {p : Nat} {data : HttpResponse}

theorem digit_of_isdigit {c : UInt8} (h : 48 ≤ c ∧ c ≤ 57) : Lines.digit c = some (c.toNat - 48) := by
  unfold Lines.digit
  rw [if_pos h]

theorem foldlM_digit_eq {text : List UInt8} (h : ∀ c ∈ text, 48 ≤ c ∧ c ≤ 57) (n : Nat)
    : text.foldlM (fun v c => (Lines.digit c).map (10 * v + ·)) n
        = some (text.foldl (fun n c => 10 * n + (c.toNat - 48)) n) := by
  induction text generalizing n with
  | nil => rfl
  | cons c text ih =>
    rw [List.forall_mem_cons] at h
    rw [List.foldlM_cons, digit_of_isdigit h.1]
    exact ih h.2 _

theorem isdigit_decimal (n : Nat) : ∀ c ∈ Lines.decimal n, isdigit c = true := by
  intro c hc
  unfold isdigit
  rw [Bool.and_eq_true, decide_eq_true_eq, decide_eq_true_eq]
  exact Lines.mem_decimal hc

theorem digits_decimal (n : Nat) (rest : List UInt8)
    : digits (Lines.decimal n ++ 32 :: rest) = n := by
  unfold digits
  rw [List.takeWhile_append_of_pos (isdigit_decimal n), List.takeWhile_cons_of_neg (by decide),
    List.append_nil]
  have hsome := (foldlM_digit_eq (fun c => Lines.mem_decimal) 0).symm.trans
    (Lines.foldlM_digit_decimal n)
  rw [Option.some.injEq] at hsome
  exact hsome

theorem decimal_cons (n : Nat) : ∃ c text, Lines.decimal n = c :: text := by
  cases h : Lines.decimal n with
  | nil =>
    unfold Lines.decimal at h
    rw [List.map_eq_nil_iff] at h
    exact absurd h Nat.toDigits_ne_nil
  | cons c text => exact ⟨c, text, rfl⟩

theorem not_space_of_digit : ∀ c : UInt8, 48 ≤ c ∧ c ≤ 57
    → isspace c = false ∧ c ≠ 45 ∧ c ≠ 43 := by
  apply forall_byte
  decide +kernel

theorem atoi_decimal {n : Nat} (h : n < 2 ^ 32) (rest : List UInt8)
    : atoi (Lines.decimal n ++ 32 :: rest) = Int.bmod n (2 ^ 32) := by
  obtain ⟨c, text, htext⟩ := decimal_cons n
  have hdigits := digits_decimal n rest
  have hc : 48 ≤ c ∧ c ≤ 57 := by
    apply Lines.mem_decimal (n := n)
    rw [htext]
    exact List.mem_cons_self
  obtain ⟨hspace, hminus, hplus⟩ := not_space_of_digit c hc
  rw [htext, List.cons_append] at hdigits ⊢
  unfold atoi
  rw [List.dropWhile_cons_of_neg (by rw [hspace]; decide)]
  dsimp only
  rw [if_neg hminus, if_neg hplus, hdigits]
  congr 1
  omega

theorem num_of_mem : ∀ entry ∈ httpStatusMap, entry.1.num = entry.2.1 := by
  decide

theorem num_lt_of_mem : ∀ entry ∈ httpStatusMap, entry.2.1 < 1000 := by
  decide

theorem ofInt_num {code : Int} (hlow : -2 ^ 31 ≤ code) (hhigh : code < 2 ^ 31)
    : (HttpStatus.ofInt code).num < 2 ^ 32
      ∧ HttpStatus.ofInt (Int.bmod (HttpStatus.ofInt code).num (2 ^ 32)) = HttpStatus.ofInt code := by
  have hcode : (HttpStatus.ofInt code).num = code % 2 ^ 32 := by
    unfold HttpStatus.ofInt
    split
    . next entry hfind =>
      have hmem := List.mem_of_find?_eq_some hfind
      have heq := List.find?_some hfind
      rw [decide_eq_true_eq] at heq
      have hlt := num_lt_of_mem entry hmem
      rw [num_of_mem entry hmem]
      omega
    . unfold HttpStatus.num
      dsimp only
      omega
  have hback : Int.bmod (code % 2 ^ 32) (2 ^ 32) = code := by
    unfold Int.bmod
    dsimp only
    split <;> omega
  refine ⟨by omega, ?_⟩
  rw [hcode, hback]

theorem trans_digit : ∀ b : UInt8, 48 ≤ b ∧ b ≤ 57
    → trans 16 b = ([.mark], 17) ∧ trans 17 b = ([], 17) := by
  apply forall_byte
  decide +kernel

theorem reads_status {n : Nat} (hn : n < 2 ^ 32) {status : HttpStatus}
    (hstatus : HttpStatus.ofInt (Int.bmod n (2 ^ 32)) = status)
    (hbuffer : buffer.drop p = Lines.decimal n ++ 32 :: rest)
    : Scan.Reads (next buffer) (At (· = 16) data Free) p (Lines.decimal n ++ bytes " ")
        (At (· = 18) { data with m_status := status } Free) := by
  have hend : trans 17 32 = ([.status_code], 18) := by decide
  have hread : Scan.Reads (next buffer) (At (· = 16) data Free) p (Lines.decimal n)
      (At (· = 17) data (fun o => o.mark = p)) := by
    obtain ⟨c, text, htext⟩ := decimal_cons n
    have hdigits : ∀ b ∈ c :: text, 48 ≤ b ∧ b ≤ 57 := by
      intro b hb
      apply Lines.mem_decimal (n := n)
      rw [htext]
      exact hb
    rw [List.forall_mem_cons] at hdigits
    rw [htext]
    apply (reads_mark (trans_digit c hdigits.1).1 (by decide)).cons
    apply Scan.Reads.invariant
    intro b hb q
    apply reads_quiet
    . rintro _ rfl
      rw [(trans_digit b (hdigits.2 b hb)).2]
      exact ⟨rfl, rfl⟩
    . rintro _ rfl
      decide
  apply hread.append
  apply reads_edge hend (by decide) (by decide)
  intro parser h
  have hmark : parser.m_httpclientParser.mark = p := h.known
  change Holds _ _ (parser.onResponseStatus (buffer.drop parser.m_httpclientParser.mark))
  unfold HttpResponseParser.onResponseStatus
  rw [hmark, hbuffer, atoi_decimal hn, hstatus]
  refine ⟨?_, h.m_error, trivial⟩
  rw [← h.m_data]

theorem trans_reason : ∀ b : UInt8, b ≠ 10 ∧ b ≠ 13
    → trans 18 b = ([.mark], 19) ∧ trans 19 b = ([], 19) := by
  apply forall_byte
  decide +kernel

theorem reads_reason {reason : List UInt8} (hne : reason ≠ []) (hplain : Plain reason)
    (hbuffer : buffer.drop p = reason ++ rest)
    : Scan.Reads (next buffer) (At (· = 18) data Free) p (reason ++ Lines.crlf)
        (At (· ∈ lineStates) { data with m_reason := reason } Free) := by
  have hend : trans 19 13 = ([.reason_phrase], 24) := by decide
  have hread : Scan.Reads (next buffer) (At (· = 18) data Free) p reason
      (At (· = 19) data (fun o => o.mark = p)) := by
    cases reason with
    | nil => exact absurd rfl hne
    | cons c text =>
      unfold Plain at hplain
      rw [List.forall_mem_cons] at hplain
      apply (reads_mark (trans_reason c hplain.1).1 (by decide)).cons
      apply Scan.Reads.invariant
      intro b hb q
      apply reads_quiet
      . rintro _ rfl
        rw [(trans_reason b (hplain.2 b hb)).2]
        exact ⟨rfl, rfl⟩
      . rintro _ rfl
        decide
  have hphrase : Scan.Reads (next buffer) (At (· = 19) data (fun o => o.mark = p))
      (p + reason.length) [13] (At (· = 24) { data with m_reason := reason } Free) := by
    apply reads_edge hend (by decide) (by decide)
    intro parser h
    have hmark : parser.m_httpclientParser.mark = p := h.known
    change Holds _ _ (parser.onResponseReason (buffer.drop parser.m_httpclientParser.mark)
      (p + reason.length - parser.m_httpclientParser.mark))
    unfold HttpResponseParser.onResponseReason
    rw [hmark, RequestMachine.string_of_drop hbuffer]
    refine ⟨?_, h.m_error, trivial⟩
    rw [← h.m_data]
  apply hread.append
  apply hphrase.cons
  apply reads_quiet
  . rintro _ rfl
    decide
  . intro cs hcs
    revert cs
    decide

end Status

section Field

variable {buffer rest : List UInt8} {p : Nat} {data : HttpResponse} {key value : List UInt8}

theorem states_ne_error : ∀ cs ∈ lineStates ++ keyStates ++ colonStates ++ valueStates ++ crStates,
    cs ≠ httpclient_parser_error := by
  decide

theorem inKey_ne_error {text : List UInt8} : ∀ cs, InKey text cs → cs ≠ httpclient_parser_error := by
  intro cs hcs
  apply states_ne_error
  simp only [List.mem_append]
  exact .inl (.inl (.inl (.inr hcs.1)))

theorem reads_key_rest {known : Offsets → Prop} {text : List UInt8}
    (htext : ∀ b ∈ text, inRange b Table.token = true) (done : List UInt8)
    : Scan.Reads (next buffer) (At (InKey done) data known) p text
        (At (InKey (done ++ text)) data known) := by
  induction text generalizing p done with
  | nil =>
    rw [List.append_nil]
    exact .nil
  | cons b text ih =>
    rw [List.forall_mem_cons] at htext
    have hbyte : Scan.Reads (next buffer) (At (InKey done) data known) p [b]
        (At (InKey (done ++ [b])) data known) := by
      apply reads_quiet _ inKey_ne_error
      rintro cs ⟨hmem, hname⟩
      obtain ⟨hquiet, hnext, htarget⟩ := trans_key b htext.1 cs hmem
      refine ⟨hquiet, hnext, ?_⟩
      rcases htarget with h21 | ⟨hne, hkey⟩
      . exact .inl h21
      . right
        rw [hkey, hname.resolve_left hne, List.map_append, List.map_singleton]
    have hrest := ih (p := p + 1) htext.2 (done ++ [b])
    rw [List.append_assoc] at hrest
    exact hbyte.cons hrest

def AfterColon (key : List UInt8) (cs : Nat) : Prop :=
  cs ∈ colonStates ∧ (¬Special key → cs = 22)

theorem afterColon_ne_error : ∀ cs, AfterColon key cs → cs ≠ httpclient_parser_error := by
  intro cs hcs
  apply states_ne_error
  simp only [List.mem_append]
  exact .inl (.inl (.inr hcs.1))

theorem reads_name (hkey : FieldName key)
    : Scan.Reads (next buffer) (At (· ∈ lineStates) data Free) p (key ++ [58])
        (At (AfterColon key) data (fun o => o.field_start = p ∧ o.field_len = key.length)) := by
  have hread : Scan.Reads (next buffer) (At (· ∈ lineStates) data Free) p key
      (At (InKey key) data (fun o => o.field_start = p)) := by
    obtain ⟨hne, htoken⟩ := hkey
    cases key with
    | nil => exact absurd rfl hne
    | cons c text =>
      rw [List.forall_mem_cons] at htoken
      have hstart : Scan.Reads (next buffer) (At (· ∈ lineStates) data Free) p [c]
          (At (InKey [c]) data (fun o => o.field_start = p)) := by
        apply reads_byte [[.start_field], [.write_connection_close, .start_field]] _
          inKey_ne_error
        . intro actions hactions
          simp only [List.mem_cons, List.not_mem_nil, or_false] at hactions
          rcases hactions with rfl | rfl
          . exact ⟨by decide, fun parser h => ⟨h.m_data, h.m_error, rfl⟩⟩
          . exact ⟨by decide, fun parser h => ⟨h.m_data, h.m_error, rfl⟩⟩
        . intro cs hcs
          obtain ⟨hactions, hnext, hname⟩ := trans_key_start c htoken.1 cs hcs
          exact ⟨hactions, hnext, hname⟩
      exact hstart.cons (reads_key_rest htoken.2 [c])
  apply hread.append
  apply reads_byte [[.write_field]] _ afterColon_ne_error
  . intro actions hactions
    rw [List.mem_singleton.mp hactions]
    refine ⟨by decide, fun parser h => ⟨h.m_data, h.m_error, h.known, ?_⟩⟩
    have hptr : parser.m_httpclientParser.field_start = p := h.known
    change p + key.length - parser.m_httpclientParser.field_start = key.length
    rw [hptr, Nat.add_sub_cancel_left]
  . rintro cs ⟨hmem, hname⟩
    obtain ⟨hactions, hcolon, htarget⟩ := trans_colon cs hmem
    rw [hactions]
    refine ⟨List.mem_singleton_self _, hcolon, ?_⟩
    intro hspecial
    rcases htarget with h22 | ⟨hkeyName, hne⟩
    . exact h22
    . rw [hname.resolve_left hne] at hkeyName
      exact absurd hkeyName hspecial

theorem run_write_value {q : Nat} (hkey : key ≠ []) (hbuffer : buffer.drop p = key ++ rest)
    {rest' : List UInt8} (hbuffer' : buffer.drop q = value ++ rest') {parser : HttpResponseParser}
    (h : Holds data (fun o => (o.field_start = p ∧ o.field_len = key.length) ∧ o.mark = q) parser)
    : Holds (data.setHeader key value) Free
        (Action.run buffer (q + value.length) parser .write_value) := by
  obtain ⟨⟨hfield, hlen⟩, hmark⟩ := h.known
  have hpos : key.length ≠ 0 := by
    rw [Ne, List.length_eq_zero_iff]
    exact hkey
  have hvalue : string (buffer.drop q) (q + value.length - q) = value :=
    RequestMachine.string_of_drop hbuffer'
  have hname : string (buffer.drop p) key.length = key := by
    rw [string, hbuffer, List.take_left]
  change parser.m_httpclientParser.field_start = p at hfield
  change parser.m_httpclientParser.field_len = key.length at hlen
  change parser.m_httpclientParser.mark = q at hmark
  change Holds _ _ (parser.onResponseHttpField (buffer.drop parser.m_httpclientParser.field_start)
    parser.m_httpclientParser.field_len (buffer.drop parser.m_httpclientParser.mark)
    (q + value.length - parser.m_httpclientParser.mark))
  unfold HttpResponseParser.onResponseHttpField
  rw [hfield, hlen, hmark, if_neg hpos, hvalue, hname]
  refine ⟨?_, h.m_error, trivial⟩
  rw [← h.m_data]

theorem reads_value {q : Nat} (hkey : key ≠ []) (hvalue : FieldValue key value)
    (hbuffer : buffer.drop p = key ++ rest) {rest' : List UInt8}
    (hbuffer' : buffer.drop q = value ++ rest')
    : Scan.Reads (next buffer)
        (At (AfterColon key) data (fun o => o.field_start = p ∧ o.field_len = key.length)) q
        (value ++ [13]) (At (· ∈ crStates) (data.setHeader key value) Free) := by
  have hcr : ∀ cs ∈ crStates, cs ≠ httpclient_parser_error := by decide
  cases hcases : value with
  | nil =>
    rw [hcases] at hbuffer'
    apply reads_byte [[.start_value, .write_value]] _ hcr
    . intro actions hactions
      rw [List.mem_singleton.mp hactions]
      refine ⟨by decide, fun parser h => ?_⟩
      have hmark : Holds data
          (fun o => (o.field_start = p ∧ o.field_len = key.length) ∧ o.mark = q)
          (Action.run buffer q parser .start_value) := ⟨h.m_data, h.m_error, h.known, rfl⟩
      exact run_write_value hkey hbuffer hbuffer' hmark
    . rintro cs ⟨-, h22⟩
      rw [h22 (hvalue.empty hcases), trans_value_empty]
      decide
  | cons c text =>
    have hplain := hvalue.plain
    have hspace := hvalue.head c (by rw [hcases]; rfl)
    rw [hcases] at hbuffer' hplain
    unfold Plain at hplain
    rw [List.forall_mem_cons] at hplain
    have hvalues : ∀ cs ∈ valueStates, cs ≠ httpclient_parser_error := by decide
    have hstart : Scan.Reads (next buffer)
        (At (AfterColon key) data (fun o => o.field_start = p ∧ o.field_len = key.length)) q [c]
        (At (· ∈ valueStates) data
          (fun o => (o.field_start = p ∧ o.field_len = key.length) ∧ o.mark = q)) := by
      apply reads_byte [[.start_value]] _ hvalues
      . intro actions hactions
        rw [List.mem_singleton.mp hactions]
        exact ⟨by decide, fun parser h => ⟨h.m_data, h.m_error, h.known, rfl⟩⟩
      . rintro cs ⟨hcs, -⟩
        obtain ⟨hactions, hnext⟩ := trans_value_start c ⟨hplain.1.1, hplain.1.2, hspace⟩ cs hcs
        rw [hactions]
        exact ⟨List.mem_singleton_self _, hnext⟩
    have hinside : Scan.Reads (next buffer)
        (At (· ∈ valueStates) data
          (fun o => (o.field_start = p ∧ o.field_len = key.length) ∧ o.mark = q)) (q + 1) text
        (At (· ∈ valueStates) data
          (fun o => (o.field_start = p ∧ o.field_len = key.length) ∧ o.mark = q)) :=
      .invariant fun b hb _ => reads_quiet (fun cs => trans_value b (hplain.2 b hb) cs) hvalues
    apply (hstart.cons hinside).append
    apply reads_byte _ (fun cs => trans_value_end cs) hcr
    intro actions hactions
    simp only [List.mem_cons, List.not_mem_nil, or_false] at hactions
    rcases hactions with rfl | rfl
    . exact ⟨by decide, fun parser h => run_write_value hkey hbuffer hbuffer' h⟩
    . exact ⟨by decide, fun parser h => run_write_value hkey hbuffer hbuffer' h⟩

theorem reads_field (hkey : FieldName key) (hvalue : FieldValue key value)
    (hbuffer : buffer.drop p = Lines.header key value ++ rest)
    : Scan.Reads (next buffer) (At (· ∈ lineStates) data Free) p
        (Lines.header key value ++ Lines.crlf)
        (At (· ∈ lineStates) (data.setHeader key value) Free) := by
  have hheader : Lines.header key value ++ Lines.crlf
      = key ++ [58] ++ ([32] ++ (value ++ [13] ++ [10])) := by
    unfold Lines.header Lines.crlf Lines.cr Lines.lf
    simp
  have hname : buffer.drop p = key ++ ([58, 32] ++ value ++ rest) := by
    rw [hbuffer, Lines.header, List.append_assoc, List.append_assoc, List.append_assoc]
  have hdrop : buffer.drop (p + (key ++ [58]).length + 1) = value ++ rest := by
    have hpos : p + (key ++ [58]).length + 1 = p + (key ++ [58, 32]).length := by
      rw [List.length_append, List.length_append]
      rfl
    rw [hpos]
    apply RequestMachine.drop_of_append
    rw [hbuffer, Lines.header, List.append_assoc]
  have hline : ∀ cs ∈ lineStates, cs ≠ httpclient_parser_error := by decide
  rw [hheader]
  apply (reads_name hkey).append
  apply Scan.Reads.cons
    (R := At (AfterColon key) data (fun o => o.field_start = p ∧ o.field_len = key.length))
  . apply reads_byte [[.start_value]] _ afterColon_ne_error
    . intro actions hactions
      rw [List.mem_singleton.mp hactions]
      exact ⟨by decide, fun parser h => ⟨h.m_data, h.m_error, h.known⟩⟩
    . rintro cs ⟨hcs, h22⟩
      rw [trans_blank cs hcs]
      exact ⟨List.mem_singleton_self _, hcs, h22⟩
  . apply (reads_value hkey.1 hvalue hname hdrop).append
    apply reads_byte _ (fun cs => trans_line_end cs) hline
    intro actions hactions
    simp only [List.mem_cons, List.not_mem_nil, or_false] at hactions
    rcases hactions with rfl | rfl
    . exact ⟨by decide, fun _ h => h⟩
    . exact ⟨by decide, fun _ h => h⟩

def setFields (data : HttpResponse) (fields : MapType) : HttpResponse :=
  fields.foldl (fun data field => data.setHeader field.1 field.2) data

theorem reads_fields {fields : MapType}
    (hfields : ∀ field ∈ fields, FieldName field.1 ∧ FieldValue field.1 field.2)
    (hbuffer : buffer.drop p
      = (fields.map fun field => Lines.header field.1 field.2).flatMap (· ++ Lines.crlf) ++ rest)
    : Scan.Reads (next buffer) (At (· ∈ lineStates) data Free) p
        ((fields.map fun field => Lines.header field.1 field.2).flatMap (· ++ Lines.crlf))
        (At (· ∈ lineStates) (setFields data fields) Free) := by
  induction fields generalizing p data with
  | nil => exact .nil
  | cons field fields ih =>
    rw [List.forall_mem_cons] at hfields
    rw [List.map_cons, List.flatMap_cons] at hbuffer ⊢
    rw [List.append_assoc] at hbuffer
    have hfield : Scan.Reads (next buffer) (At (· ∈ lineStates) data Free) p
        (Lines.header field.1 field.2 ++ Lines.crlf)
        (At (· ∈ lineStates) (data.setHeader field.1 field.2) Free) :=
      reads_field hfields.1.1 hfields.1.2 (by rw [hbuffer, List.append_assoc])
    exact hfield.append (ih hfields.2 (RequestMachine.drop_of_append hbuffer))

end Field

section End

variable (buffer rest : List UInt8) (p : Nat) {data : HttpResponse}

theorem exec_empty_line {parser : HttpResponseParser} (h : At (· ∈ lineStates) data Free parser)
    : ∃ parser', exec buffer p (Lines.crlf ++ rest) parser = (p + 2, parser')
      ∧ parser'.hasError = false ∧ parser'.isFinished = true ∧ parser'.m_data = data
      ∧ parser'.m_httpclientParser.body_start = p + 2
      ∧ offsets parser'.m_httpclientParser = offsets parser.m_httpclientParser := by
  obtain ⟨hcr, hdone⟩ := trans_empty_line
  obtain ⟨hactions, hnext⟩ := hcr _ h.cs
  have hstart : exec buffer p (13 :: 10 :: rest) parser
      = exec buffer (p + 1) (10 :: rest) (setState parser 3) := by
    rw [exec]
    dsimp only
    simp only [List.mem_cons, List.not_mem_nil, or_false] at hactions
    rw [hnext, if_neg (by decide)]
    rcases hactions with hnil | hclose
    . rw [hnil, if_neg (by decide)]
      rfl
    . rw [hclose, if_neg (by decide)]
      rfl
  refine ⟨setState (Action.run buffer (p + 1) (setState parser 3) .done)
    httpclient_parser_first_final, ?_, ?_, rfl, h.holds.m_data, rfl, rfl⟩
  . change exec buffer p (13 :: 10 :: rest) parser = _
    rw [hstart, exec]
    have htrans : trans (setState parser 3).m_httpclientParser.cs 10
        = ([.done], httpclient_parser_first_final) := hdone
    rw [htrans]
    rfl
  . have herror : parser.m_error = 0 := h.holds.m_error
    unfold HttpResponseParser.hasError
    change (parser.m_error != 0 || _) = false
    rw [herror]
    rfl

end End

end ResponseMachine

end Client

namespace HttpResponse

open Client Client.ResponseMachine

/--
The responses that the machine can take: the status is an `int`, the version one that it knows, and
the parts of the header are in the classes of bytes that it reads back as they are.
-/
structure Sendable (rsp : HttpResponse) : Prop where
  status : ∃ code : Int, -2 ^ 31 ≤ code ∧ code < 2 ^ 31 ∧ rsp.m_status = .ofInt code
  version : rsp.m_version = 0x10 ∨ rsp.m_version = 0x11
  reason : Client.Plain rsp.m_reason
  fields : ∀ field ∈ rsp.m_headers, sameKey field.1 (bytes "connection") = false
    → Client.FieldName field.1 ∧ Client.FieldValue field.1 field.2
  sorted : rsp.m_headers.Sorted

def reasonText (rsp : HttpResponse) : List UInt8 :=
  if rsp.m_reason.isEmpty then HttpStatusToString rsp.m_status else rsp.m_reason

-- the response that the text of a response is about
def onWire (rsp : HttpResponse) : HttpResponse :=
  let rsp := { rsp with m_reason := rsp.reasonText }
  let rsp := (rsp.delHeader (bytes "connection")).setHeader (bytes "connection")
    (HttpRequest.connectionValue rsp.m_close)
  if rsp.m_body.isEmpty then
    rsp
  else
    rsp.setHeader (bytes "content-length") (Lines.decimal rsp.m_body.length)

def fields (rsp : HttpResponse) : MapType :=
  rsp.m_headers.erase (bytes "connection")
    ++ (bytes "connection", HttpRequest.connectionValue rsp.m_close)
    :: if rsp.m_body.isEmpty then [] else [(bytes "content-length", Lines.decimal rsp.m_body.length)]

def header (rsp : HttpResponse) : List UInt8 :=
  versionText rsp.m_version ++ bytes " " ++ (Lines.decimal rsp.m_status.num ++ bytes " ")
    ++ (rsp.reasonText ++ Lines.crlf)
    ++ (rsp.fields.map fun field => Lines.header field.1 field.2).flatMap (· ++ Lines.crlf)
    ++ Lines.crlf

variable {rsp : HttpResponse}

theorem setFields_eq (data : HttpResponse) (fields : MapType)
    : setFields data fields
        = { data with m_headers := OrderedMap.setAll strcaseless data.m_headers fields } := by
  induction fields generalizing data with
  | nil => rfl
  | cons field fields ih =>
    change setFields (data.setHeader field.1 field.2) fields = _
    rw [ih]
    unfold HttpResponse.setHeader OrderedMap.setAll
    rw [List.foldl_cons, MapType.set_eq]

theorem setAll_fields (hsorted : rsp.m_headers.Sorted)
    : OrderedMap.setAll strcaseless [] rsp.fields = rsp.onWire.m_headers := by
  have herase : (rsp.m_headers.erase (bytes "connection")).Sorted := hsorted.erase _
  unfold fields onWire
  rw [OrderedMap.setAll_append, OrderedMap.setAll_nil strcaseless_iff herase]
  change _ = (if rsp.m_body.isEmpty then _ else _ : HttpResponse).m_headers
  split
  . unfold setHeader delHeader
    dsimp only
    rw [MapType.set_eq]
    rfl
  . unfold setHeader delHeader
    dsimp only
    rw [MapType.set_eq _ (bytes "content-length"), MapType.set_eq _ (bytes "connection")]
    rfl

theorem onWire_eq (rsp : HttpResponse)
    : rsp.onWire
        = { rsp with m_reason := rsp.reasonText, m_headers := rsp.onWire.m_headers } := by
  unfold onWire
  dsimp only
  split <;> rfl

theorem map_fields (rsp : HttpResponse)
    : (rsp.fields.map fun field => Lines.header field.1 field.2)
        = headerLines rsp.m_headers ++ connectionLine rsp.m_close :: lengthLines rsp.m_body := by
  unfold fields headerLines lengthLines
  rw [List.map_append, List.map_cons]
  congr 2
  split <;> rfl

theorem dump_eq_header (rsp : HttpResponse) : rsp.dump = rsp.header ++ rsp.m_body := by
  rw [dump_eq]
  unfold header
  rw [map_fields]
  unfold startLine reasonText
  simp only [List.append_assoc]

theorem fieldName_own
    : Client.FieldName (bytes "connection") ∧ Client.FieldName (bytes "content-length") :=
  ⟨⟨by decide, forall_mem_of_all (by decide)⟩, by decide, forall_mem_of_all (by decide)⟩

theorem fieldValue_connection (m_close : Bool)
    : Client.FieldValue (bytes "connection") (HttpRequest.connectionValue m_close) := by
  cases m_close with
  | false =>
    constructor
    . exact forall_mem_of_all (by decide)
    . intro b hb
      have hhead : (HttpRequest.connectionValue false).head? = some 107 := by decide
      rw [hhead, Option.some.injEq] at hb
      rw [← hb]
      decide
    . intro h
      exact absurd h (by decide)
  | true =>
    constructor
    . exact forall_mem_of_all (by decide)
    . intro b hb
      have hhead : (HttpRequest.connectionValue true).head? = some 99 := by decide
      rw [hhead, Option.some.injEq] at hb
      rw [← hb]
      decide
    . intro h
      exact absurd h (by decide)

theorem plain_of_digit : ∀ b : UInt8, 48 ≤ b ∧ b ≤ 57
    → (b ≠ 10 ∧ b ≠ 13) ∧ inRange b Client.Table.space = false := by
  apply forall_byte
  decide +kernel

theorem fieldValue_decimal (key : List UInt8) (n : Nat)
    : Client.FieldValue key (Lines.decimal n) := by
  constructor
  . intro b hb
    exact (plain_of_digit b (Lines.mem_decimal hb)).1
  . intro b hb
    exact (plain_of_digit b (Lines.mem_decimal (List.mem_of_mem_head? hb))).2
  . intro h
    obtain ⟨c, text, htext⟩ := decimal_cons n
    rw [htext] at h
    cases h

theorem Sendable.fields_ok (h : rsp.Sendable)
    : ∀ field ∈ rsp.fields, Client.FieldName field.1 ∧ Client.FieldValue field.1 field.2 := by
  unfold HttpResponse.fields
  intro field hfield
  rw [List.mem_append, List.mem_cons] at hfield
  rcases hfield with hfield | rfl | hfield
  . rw [MapType.erase, List.mem_filter, Bool.not_eq_true'] at hfield
    exact h.fields field hfield.1 hfield.2
  . exact ⟨fieldName_own.1, fieldValue_connection rsp.m_close⟩
  . split at hfield
    . cases hfield
    . rw [List.mem_singleton] at hfield
      rw [hfield]
      exact ⟨fieldName_own.2, fieldValue_decimal _ _⟩

theorem httpStatusMap_plain : ∀ entry ∈ httpStatusMap,
    bytes entry.2.2 ≠ [] ∧ ∀ b ∈ bytes entry.2.2, b ≠ 10 ∧ b ≠ 13 := by
  have h : ∀ entry ∈ httpStatusMap, bytes entry.2.2 ≠ []
      ∧ (bytes entry.2.2).all (fun b => decide (b ≠ 10 ∧ b ≠ 13)) = true := by
    decide +kernel
  intro entry hentry
  exact ⟨(h entry hentry).1, forall_mem_of_all (h entry hentry).2⟩

theorem httpStatusToString_plain (status : HttpStatus)
    : HttpStatusToString status ≠ [] ∧ Client.Plain (HttpStatusToString status) := by
  unfold HttpStatusToString
  split
  . next entry hfind => exact httpStatusMap_plain entry (List.mem_of_find?_eq_some hfind)
  . exact ⟨by decide, forall_mem_of_all (by decide)⟩

theorem Sendable.reasonText_plain (h : rsp.Sendable)
    : rsp.reasonText ≠ [] ∧ Client.Plain rsp.reasonText := by
  unfold reasonText
  split
  . exact httpStatusToString_plain rsp.m_status
  . next hne =>
    rw [List.isEmpty_iff] at hne
    exact ⟨hne, h.reason⟩

theorem Sendable.reads_header (h : rsp.Sendable) {text rest buffer : List UInt8}
    (hheader : rsp.header = text ++ Lines.crlf) (hbuffer : buffer = text ++ rest)
    : Scan.Reads (next buffer) (At (· = httpclient_parser_start) (.new 0x11 true) Free) 0 text
        (At (· ∈ lineStates) { rsp.onWire with m_close := true, m_body := [] } Free) := by
  obtain ⟨code, hlow, hhigh, hstatus⟩ := h.status
  obtain ⟨hnum, hofInt⟩ := ofInt_num hlow hhigh
  rw [← hstatus] at hnum hofInt
  unfold header at hheader
  rw [← List.append_cancel_right hheader] at hbuffer ⊢
  have hversion : buffer.drop 0 = versionText rsp.m_version ++ bytes " "
      ++ (Lines.decimal rsp.m_status.num ++ bytes " " ++ (rsp.reasonText ++ Lines.crlf
        ++ ((rsp.fields.map fun field => Lines.header field.1 field.2).flatMap
              (· ++ Lines.crlf) ++ rest))) := by
    rw [hbuffer, List.drop_zero]
    simp only [List.append_assoc]
  have hcode := RequestMachine.drop_of_append hversion
  have hreason := RequestMachine.drop_of_append hcode
  have hfields := RequestMachine.drop_of_append hreason
  rw [List.append_assoc] at hversion hcode hreason
  have hread₁ : Scan.Reads (next buffer) (At (· = httpclient_parser_start) (.new 0x11 true) Free) 0
      (versionText rsp.m_version ++ bytes " ")
      (At (· = 16) { HttpResponse.new 0x11 true with m_version := rsp.m_version } Free) :=
    reads_version h.version hversion
  have hread₂ := hread₁.append (reads_status hnum hofInt hcode)
  have hread₃ := hread₂.append (reads_reason h.reasonText_plain.1 h.reasonText_plain.2 (by
    rw [List.length_append, ← Nat.add_assoc]
    exact hreason))
  have hread₄ := hread₃.append (reads_fields h.fields_ok (by
    rw [List.length_append, List.length_append, ← Nat.add_assoc, ← Nat.add_assoc]
    exact hfields))
  have hdata : setFields { HttpResponse.new 0x11 true with
        m_version := rsp.m_version, m_status := rsp.m_status, m_reason := rsp.reasonText } rsp.fields
      = { rsp.onWire with m_close := true, m_body := [] } := by
    rw [setFields_eq, onWire_eq]
    change ({ rsp with
      m_close := true
      m_body := []
      m_reason := rsp.reasonText
      m_headers := OrderedMap.setAll strcaseless [] rsp.fields } : HttpResponse) = _
    rw [setAll_fields h.sorted]
  rw [← hdata]
  exact hread₄

theorem Sendable.exec_header (h : rsp.Sendable) (after rest : List UInt8)
    : ∃ parser, Client.exec (rsp.header ++ after) 0 (rsp.header ++ rest) .new
          = (rsp.header.length, parser)
      ∧ parser.hasError = false ∧ parser.isFinished = true
      ∧ parser.m_data = { rsp.onWire with m_close := true, m_body := [] }
      ∧ parser.m_httpclientParser.body_start = rsp.header.length := by
  obtain ⟨text, hheader⟩ : ∃ text, rsp.header = text ++ Lines.crlf := ⟨_, rfl⟩
  have hstart : At (· = httpclient_parser_start) (.new 0x11 true) Free .new :=
    ⟨rfl, rfl, rfl, trivial⟩
  have hbuffer : rsp.header ++ after = text ++ (Lines.crlf ++ after) := by
    rw [hheader, List.append_assoc]
  obtain ⟨parser₁, hrun, h₁⟩ := h.reads_header hheader hbuffer _ hstart
  obtain ⟨parser, hexec, herror, hfinished, hdata, hbody, -⟩ :=
    exec_empty_line (rsp.header ++ after) rest text.length h₁
  have hlen : rsp.header.length = text.length + 2 := by
    rw [hheader, List.length_append]
    rfl
  refine ⟨parser, ?_, herror, hfinished, hdata, ?_⟩
  . have hall := exec_of_run hrun (Lines.crlf ++ rest)
    rw [Nat.zero_add, hexec, ← List.append_assoc, ← hheader] at hall
    rw [hall, hlen]
  . rw [hbody, hlen]

/--
A parser that is given the text that `dump` writes takes the header and moves the body to the front.
Header and body are those of the response with what `dump` adds, but for `m_close`, which no callback
writes.
-/
theorem response_roundTrip (rsp : HttpResponse) (h : rsp.Sendable) (hlen : rsp.dump.length < 2 ^ 31)
    : ∃ rt moved parser, HttpResponseParser.lts.step .new
          { data := rsp.dump, rt := rt, moved := some moved, failed := false, hasError := false }
          parser
      ∧ rt + rsp.m_body.length = rsp.dump.length ∧ parser.isFinished = true
      ∧ parser.m_data.m_close = true
      ∧ { parser.m_data with
            m_close := rsp.m_close, m_body := moved.take rsp.m_body.length } = rsp.onWire := by
  obtain ⟨parser, hexec, herror, hfinished, hdata, hbody⟩ :=
    h.exec_header (rsp.m_body ++ [0]) rsp.m_body
  have hdump := dump_eq_header rsp
  have hrt : rsp.header.length ≤ rsp.dump.length := by
    rw [hdump, List.length_append]
    exact Nat.le_add_right _ _
  have hpos : 0 < rsp.dump.length := by
    rw [hdump, header, List.length_append, List.length_append]
    change 0 < _ + 2 + _
    omega
  have hrest : rsp.dump.drop rsp.header.length = rsp.m_body := by
    rw [hdump, List.drop_left]
  have hmove : (rsp.dump.overwrite 0 rsp.m_body).take rsp.m_body.length = rsp.m_body := by
    have htake : (rsp.dump.overwrite 0 rsp.m_body).take (0 + rsp.m_body.length)
        = rsp.dump.take 0 ++ rsp.m_body := List.take_overwrite (Nat.zero_le _)
    rw [Nat.zero_add] at htake
    exact htake
  have hrun : Client.exec (rsp.dump ++ [0]) 0 rsp.dump .new = (rsp.header.length, parser) := by
    rw [hdump, List.append_assoc]
    exact hexec
  have hwithin : Client.Within rsp.dump.length parser := by
    have hstart : Client.Within rsp.dump.length HttpResponseParser.new :=
      ⟨hpos, hpos, Nat.zero_le _⟩
    have hend := (Client.exec_within (p := 0) hstart (rsp.dump ++ [0]) rsp.dump
      (by rw [Nat.zero_add])).2
    rw [hrun] at hend
    exact hend
  have hcode : Client.httpclientParserExecute .new (rsp.dump ++ [0]) rsp.dump.length
      = some ((rsp.header.length : Int), parser) := by
    have hint : toInt rsp.header.length = rsp.header.length := (toInt_eq_iff _).mpr (by omega)
    have hreset : Client.reset .new = HttpResponseParser.new := rfl
    unfold Client.httpclientParserExecute
    rw [if_pos ((toInt_eq_iff _).mpr hlen), List.take_left, hreset, hrun]
    dsimp only
    rw [if_pos ⟨hrt, by rw [hbody]; exact hrt⟩,
      if_pos ⟨hwithin.mark, hwithin.field_len, hwithin.field_start⟩, hint]
  have hsize : toSize (rsp.header.length : Int) = rsp.header.length := toSize_of_lt (by omega)
  have hfailed : (decide ((rsp.header.length : Int) < 0)
      || Client.httpclientParserHasError parser.m_httpclientParser) = false := by
    have hnonneg : decide ((rsp.header.length : Int) < 0) = false := by
      rw [decide_eq_false_iff_not]
      omega
    unfold HttpResponseParser.hasError at herror
    rw [Bool.or_eq_false_iff] at herror
    rw [hnonneg, herror.2]
    rfl
  refine ⟨rsp.header.length, rsp.dump.overwrite 0 rsp.m_body, parser,
    ⟨?_, ⟨_, hcode, hfailed.symm⟩, herror.symm⟩, ?_, hfinished, ?_, ?_⟩
  . rw [HttpResponseParser.execute_eq hcode, hsize, memmove_suffix hrt hlen, hrest]
  . rw [hdump, List.length_append]
  . rw [hdata]
  . rw [hdata, hmove, onWire_eq]

def sampleResponse : HttpResponse :=
  { HttpResponse.new 0x11 false with
    m_status := .NOT_FOUND, m_headers := [(bytes "Server", bytes "CXS/1.0"), (bytes "X-Empty", [])],
    m_body := bytes "ab" }

theorem sampleResponse_sendable : sampleResponse.Sendable := by
  constructor
  . exact ⟨404, by decide, by decide, by decide⟩
  . decide
  . exact forall_mem_of_all (by decide)
  . intro field hfield _
    simp only [sampleResponse, List.mem_cons, List.not_mem_nil, or_false] at hfield
    rcases hfield with rfl | rfl
    . refine ⟨⟨by decide, forall_mem_of_all (by decide)⟩, ?_, ?_, ?_⟩
      . exact forall_mem_of_all (by decide)
      . intro b hb
        have hhead : (bytes "CXS/1.0").head? = some 67 := by decide
        rw [hhead, Option.some.injEq] at hb
        rw [← hb]
        decide
      . intro h
        exact absurd h (by decide)
    . refine ⟨⟨by decide, forall_mem_of_all (by decide)⟩, ?_, ?_, ?_⟩
      . exact forall_mem_of_all (by decide)
      . intro b hb
        cases hb
      . intro _
        unfold Client.Special
        decide
  . unfold MapType.Sorted OrderedMap.Sorted OrderedSet.Sorted
    decide

theorem response_roundTrip_not_found
    : ∃ rt moved parser, HttpResponseParser.lts.step .new
          { data := sampleResponse.dump, rt := rt, moved := some moved, failed := false,
            hasError := false } parser
      ∧ rt + sampleResponse.m_body.length = sampleResponse.dump.length ∧ parser.isFinished = true
      ∧ parser.m_data.m_close = true
      ∧ { parser.m_data with
            m_close := sampleResponse.m_close, m_body := moved.take sampleResponse.m_body.length }
          = sampleResponse.onWire :=
  response_roundTrip sampleResponse sampleResponse_sendable (by decide +kernel)

end HttpResponse

end Http
end CXS
