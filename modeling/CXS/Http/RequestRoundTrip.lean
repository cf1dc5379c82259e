import CXS.Http.Execute
import CXS.Http.Grammar
import CXS.Http.Method

namespace CXS
namespace Http

namespace RequestMachine

def next (r : Bool) (buffer : List UInt8) (p : Nat) (b : UInt8) (parser : HttpRequestParser)
    : Option HttpRequestParser :=
  let (actions, cs) := trans r parser.m_httpParser.cs b
  match actions.foldlM (Action.run buffer p) parser with
  | none => none
  | some parser => if stops actions cs then none else some (parser.setState cs)

theorem exec_of_run {r : Bool} {buffer text : List UInt8} {p : Nat}
    {parser parser' : HttpRequestParser}
    (h : Scan.run (next r buffer) p text parser = some parser') (rest : List UInt8)
    : exec r buffer p (text ++ rest) parser = exec r buffer (p + text.length) rest parser' := by
  induction text generalizing p parser with
  | nil =>
    rw [Scan.run, Option.some.injEq] at h
    rw [h]
    rfl
  | cons b text ih =>
    rw [Scan.run] at h
    split at h
    . cases h
    . next parser₁ hnext =>
      unfold next at hnext
      dsimp only at hnext
      split at hnext
      . cases hnext
      . next parser₂ hfold =>
        split at hnext
        . cases hnext
        . next hstops =>
          rw [stops, Bool.or_eq_true, beq_iff_eq, List.contains_iff_mem, not_or] at hstops
          have htrans : trans r parser.m_httpParser.cs b
              = ((trans r parser.m_httpParser.cs b).1, (trans r parser.m_httpParser.cs b).2) := rfl
          rw [Option.some.injEq] at hnext
          rw [List.cons_append, exec_cons htrans hfold hstops.1 hstops.2, hnext, ih h,
            List.length_cons, Nat.add_right_comm, Nat.add_assoc]

structure Offsets where
  mark : Nat
  field_start : Nat
  field_len : Nat
  query_start : Nat

def offsets (m : HttpParser) : Offsets :=
  ⟨m.mark, m.field_start, m.field_len, m.query_start⟩

structure At (cs : Nat) (data : HttpRequest) (known : Offsets → Prop) (parser : HttpRequestParser)
    : Prop where
  cs : parser.m_httpParser.cs = cs
  m_data : parser.m_data = data
  m_error : parser.m_error = 0
  sent : (parser.m_httpParser.xml_sent || parser.m_httpParser.json_sent) = false
  known : known (offsets parser.m_httpParser)

def Free (_ : Offsets) : Prop :=
  True

section Rules

variable {r : Bool} {buffer : List UInt8} {p cs cs' : Nat} {b : UInt8} {actions : List Action}
  {data data' : HttpRequest} {known known' : Offsets → Prop}

theorem reads_byte (htrans : trans r cs b = (actions, cs')) (hgo : stops actions cs' = false)
    (hrun : ∀ parser, At cs data known parser → ∃ parser',
      actions.foldlM (Action.run buffer p) parser = some parser' ∧ At cs data' known' parser')
    : Scan.Reads (next r buffer) (At cs data known) p [b] (At cs' data' known') := by
  apply Scan.Reads.single
  intro parser h
  obtain ⟨parser', hfold, h'⟩ := hrun parser h
  refine ⟨parser'.setState cs', ?_, ?_⟩
  . unfold next
    rw [h.cs, htrans]
    dsimp only
    rw [hfold]
    dsimp only
    rw [hgo, if_neg (by decide)]
  . exact ⟨rfl, h'.m_data, h'.m_error, h'.sent, h'.known⟩

theorem reads_quiet (htrans : trans r cs b = ([], cs')) (hcs : cs' ≠ http_parser_error)
    : Scan.Reads (next r buffer) (At cs data known) p [b] (At cs' data known) := by
  apply reads_byte htrans
  . rw [stops, beq_eq_false_iff_ne.mpr hcs]
    rfl
  . intro parser h
    exact ⟨parser, rfl, h⟩

def quiet (r : Bool) (cs : Nat) (text : List UInt8) : Option Nat :=
  match text with
  | [] => some cs
  | b :: text =>
    if (trans r cs b).1 = [] ∧ (trans r cs b).2 ≠ http_parser_error then
      quiet r (trans r cs b).2 text
    else
      none

theorem reads_quiet_text {text : List UInt8} (h : quiet r cs text = some cs')
    : Scan.Reads (next r buffer) (At cs data known) p text (At cs' data known) := by
  induction text generalizing p cs with
  | nil =>
    rw [quiet, Option.some.injEq] at h
    rw [h]
    exact .nil
  | cons b text ih =>
    rw [quiet] at h
    split at h
    . next hb => exact (reads_quiet (Prod.ext hb.1 rfl) hb.2).cons (ih h)
    . cases h

section Region

variable {first cls : List (Nat × Nat)} {start inside hex hex' : Nat}
  (hregion : Region r first cls start actions inside hex hex')
  (hne : inside ≠ http_parser_error ∧ hex ≠ http_parser_error ∧ hex' ≠ http_parser_error)

include hregion hne

theorem reads_encoded {text : List UInt8} (h : Encoded cls text)
    : Scan.Reads (next r buffer) (At inside data known) p text (At inside data known) := by
  induction h generalizing p with
  | nil => exact .nil
  | char hc _ ih => exact (reads_quiet (hregion.char _ hc) hne.1).cons ih
  | escape hc hd _ ih =>
    apply (reads_quiet hregion.escape hne.2.1).cons
    apply (reads_quiet (hregion.hex _ hc) hne.2.2).cons
    exact (reads_quiet (hregion.hex' _ hd) hne.1).cons ih

theorem reads_region {c : UInt8} {text : List UInt8} (h : Encoded cls (c :: text))
    (hfirst : inRange c cls = true → inRange c first = true) (hdone : .done ∉ actions)
    (hrun : ∀ parser, At start data known parser → ∃ parser',
      actions.foldlM (Action.run buffer p) parser = some parser' ∧ At start data' known' parser')
    : Scan.Reads (next r buffer) (At start data known) p (c :: text) (At inside data' known') := by
  have hgo : ∀ cs', cs' ≠ http_parser_error → stops actions cs' = false := by
    intro cs' hcs'
    rw [stops, beq_eq_false_iff_ne.mpr hcs', Bool.false_or, Bool.eq_false_iff, Ne,
      List.contains_iff_mem]
    exact hdone
  cases h with
  | char hc h =>
    apply (reads_byte (hregion.first c (hfirst hc)) (hgo inside hne.1) hrun).cons
    exact reads_encoded hregion hne h
  | escape hc hd h =>
    apply (reads_byte hregion.escape_first (hgo hex hne.2.1) hrun).cons
    apply (reads_quiet (hregion.hex _ hc) hne.2.2).cons
    apply (reads_quiet (hregion.hex' _ hd) hne.1).cons
    exact reads_encoded hregion hne h

end Region

end Rules

section Method

def takesMethod (r : Bool) (name : List UInt8) : Bool :=
  match name with
  | [] => false
  | c :: name =>
    trans r http_parser_start c == ([.mark], 2)
      && match quiet r 2 name with
        | none => false
        | some cs => trans r cs 32 == ([.request_method], 3)

theorem httpMethodMap_takesMethod : ∀ r, ∀ entry ∈ httpMethodMap, entry.1 ≠ .MSEARCH
    → takesMethod r (bytes entry.2) = true := by
  decide +kernel

theorem exists_method {m : HttpMethod} (h : m ≠ .HTTP_INVALID_METHOD)
    : ∃ entry ∈ httpMethodMap, entry.1 = m ∧ HttpMethodToString m = bytes entry.2 := by
  have hmem : ∃ entry ∈ httpMethodMap, entry.1 = m := by
    revert h
    cases m <;> decide
  unfold HttpMethodToString
  cases hfind : httpMethodMap.find? (fun entry => entry.1 = m) with
  | none =>
    obtain ⟨entry, hentry, hm⟩ := hmem
    have := List.find?_eq_none.mp hfind entry hentry
    rw [decide_eq_true_eq] at this
    exact absurd hm this
  | some entry =>
    refine ⟨entry, List.mem_of_find?_eq_some hfind, ?_, rfl⟩
    have := List.find?_some hfind
    rw [decide_eq_true_eq] at this
    exact this

theorem charsToHttpMethod_name {entry : HttpMethod × String} (h : entry ∈ httpMethodMap)
    (rest : List UInt8) : charsToHttpMethod (bytes entry.2 ++ rest) = entry.1 := by
  have hstart : nameOf entry <+: bytes entry.2 ++ rest := List.prefix_append _ rest
  obtain ⟨found, hfound⟩ := PrefixFree.exists_byStart h hstart
  have hspec := PrefixFree.byStart_eq_some hfound
  rw [charsToHttpMethod_eq, hfound, httpMethodMap_free.unique hspec.1 h hspec.2 hstart]
  rfl

variable {r : Bool} {buffer rest : List UInt8} {p : Nat} {data : HttpRequest} {m : HttpMethod}

theorem reads_method (hm : m ≠ .MSEARCH) (hvalid : m ≠ .HTTP_INVALID_METHOD)
    (hbuffer : buffer.drop p = HttpMethodToString m ++ rest)
    : Scan.Reads (next r buffer) (At http_parser_start data Free) p
        (HttpMethodToString m ++ bytes " ") (At 3 { data with m_method := m } Free) := by
  obtain ⟨entry, hentry, rfl, hname⟩ := exists_method hvalid
  have htakes := httpMethodMap_takesMethod r entry hentry hm
  have hchars : charsToHttpMethod (buffer.drop p) = entry.1 := by
    rw [hbuffer, hname]
    exact charsToHttpMethod_name hentry rest
  rw [hname]
  unfold takesMethod at htakes
  split at htakes
  . cases htakes
  . next c name hbytes =>
    rw [Bool.and_eq_true, beq_iff_eq] at htakes
    obtain ⟨hc, hrest⟩ := htakes
    split at hrest
    . cases hrest
    . next cs hquiet =>
      rw [beq_iff_eq] at hrest
      have hmark : Scan.Reads (next r buffer) (At http_parser_start data Free) p [c]
          (At 2 data (fun o => o.mark = p)) := by
        apply reads_byte hc rfl
        intro parser h
        exact ⟨_, rfl, h.cs, h.m_data, h.m_error, h.sent, rfl⟩
      rw [hbytes]
      apply hmark.cons
      apply (reads_quiet_text hquiet).append
      apply reads_byte hrest rfl
      intro parser h
      refine ⟨{ parser with m_data := { parser.m_data with m_method := entry.1 } }, ?_, h.cs, ?_,
        h.m_error, h.sent, trivial⟩
      . have hrun : parser.onRequestMethod (buffer.drop parser.m_httpParser.mark)
            = { parser with m_data := { parser.m_data with m_method := entry.1 } } := by
          have hptr : parser.m_httpParser.mark = p := h.known
          unfold HttpRequestParser.onRequestMethod
          rw [hptr, hchars, if_neg hvalid]
        rw [← hrun]
        rfl
      . rw [h.m_data]

end Method

section Target

variable {r : Bool} {buffer rest : List UInt8} {p cs : Nat} {data : HttpRequest} {t : UInt8}

theorem string_of_drop {text : List UInt8} (h : buffer.drop p = text ++ rest)
    : string (buffer.drop p) (p + text.length - p) = text := by
  unfold string
  rw [h, Nat.add_sub_cancel_left, List.take_left]

theorem reads_path_end {path : List UInt8} {cs' : Nat} {uri : List Action}
    (htrans : trans r cs t = (.request_path :: uri, cs')) (huri : uri = [] ∨ uri = [.request_uri])
    (hcs' : cs' ≠ http_parser_error) (hbuffer : buffer.drop p = path ++ rest)
    : Scan.Reads (next r buffer) (At cs data (fun o => o.mark = p)) (p + path.length) [t]
        (At cs' { data with m_path := path } Free) := by
  apply reads_byte htrans
  . rw [stops, beq_eq_false_iff_ne.mpr hcs']
    rcases huri with rfl | rfl <;> rfl
  . intro parser h
    have hmark : parser.m_httpParser.mark = p := h.known
    refine ⟨parser.onRequestPath (buffer.drop parser.m_httpParser.mark)
      (p + path.length - parser.m_httpParser.mark), ?_, h.cs, ?_, h.m_error, h.sent, trivial⟩
    . rcases huri with rfl | rfl <;> rfl
    . unfold HttpRequestParser.onRequestPath
      rw [hmark, string_of_drop hbuffer, h.m_data]

theorem reads_path {path : List UInt8} (hpath : PathText r path) {cs' : Nat} {uri : List Action}
    (htrans : ∀ cs ∈ [33, 26], trans r cs t = (.request_path :: uri, cs'))
    (huri : uri = [] ∨ uri = [.request_uri]) (hcs' : cs' ≠ http_parser_error)
    (hbuffer : buffer.drop p = path ++ rest)
    : Scan.Reads (next r buffer) (At 3 data Free) p (path ++ [t])
        (At cs' { data with m_path := path } Free) := by
  obtain ⟨text, rfl, htext, hhead⟩ := hpath
  have hmark : Scan.Reads (next r buffer) (At 3 data Free) p [47]
      (At 33 data (fun o => o.mark = p)) := by
    apply reads_byte (trans_path_start r) rfl
    intro parser h
    exact ⟨_, rfl, h.cs, h.m_data, h.m_error, h.sent, rfl⟩
  cases text with
  | nil => exact hmark.append (reads_path_end (htrans 33 (by decide)) huri hcs' hbuffer)
  | cons c text =>
    apply Scan.Reads.append _ (reads_path_end (htrans 26 (by decide)) huri hcs' hbuffer)
    apply hmark.cons
    apply reads_region (region_path r) (by decide) htext
    . intro hc
      apply pchar_of_path r c hc
      intro heq
      exact hhead (by rw [heq]; rfl)
    . exact List.not_mem_nil
    . intro parser h
      exact ⟨parser, rfl, h⟩

theorem reads_query {query : List UInt8} (hquery : Encoded (Table.query r) query)
    (hne : query ≠ []) {cs' : Nat} (htrans : trans r 30 t = ([.query_string, .request_uri], cs'))
    (hcs' : cs' ≠ http_parser_error) (hbuffer : buffer.drop p = query ++ rest)
    : Scan.Reads (next r buffer) (At 29 data Free) p (query ++ [t])
        (At cs' { data with m_query := query } Free) := by
  cases query with
  | nil => exact absurd rfl hne
  | cons c text =>
    have hstart : Scan.Reads (next r buffer) (At 29 data Free) p (c :: text)
        (At 30 data (fun o => o.query_start = p)) := by
      apply reads_region (region_query r) (by decide) hquery id (by decide)
      intro parser h
      exact ⟨_, rfl, h.cs, h.m_data, h.m_error, h.sent, rfl⟩
    apply hstart.append
    apply reads_byte htrans
    . rw [stops, beq_eq_false_iff_ne.mpr hcs']
      rfl
    . intro parser h
      have hptr : parser.m_httpParser.query_start = p := h.known
      refine ⟨parser.onRequestQuery (buffer.drop parser.m_httpParser.query_start)
        (p + (c :: text).length - parser.m_httpParser.query_start), ?_, h.cs, ?_, h.m_error, h.sent,
        trivial⟩
      . have hle : parser.m_httpParser.query_start ≤ p + (c :: text).length := by
          rw [hptr]
          exact Nat.le_add_right _ _
        simp only [List.foldlM_cons, List.foldlM_nil, Action.run, if_pos hle]
        rfl
      . unfold HttpRequestParser.onRequestQuery
        rw [hptr, string_of_drop hbuffer, h.m_data]

theorem reads_fragment {fragment : List UInt8} (hfragment : Encoded (Table.query r) fragment)
    (hne : fragment ≠ []) (hbuffer : buffer.drop p = fragment ++ rest)
    : Scan.Reads (next r buffer) (At 20 data Free) p (fragment ++ bytes " ")
        (At 4 { data with m_fragment := fragment } Free) := by
  cases fragment with
  | nil => exact absurd rfl hne
  | cons c text =>
    have hstart : Scan.Reads (next r buffer) (At 20 data Free) p (c :: text)
        (At 21 data (fun o => o.mark = p)) := by
      apply reads_region (region_fragment r) (by decide) hfragment id (by decide)
      intro parser h
      exact ⟨_, rfl, h.cs, h.m_data, h.m_error, h.sent, rfl⟩
    apply hstart.append
    apply reads_byte (trans_fragment_end r) rfl
    intro parser h
    have hmark : parser.m_httpParser.mark = p := h.known
    refine ⟨parser.onRequestFragment (buffer.drop parser.m_httpParser.mark)
      (p + (c :: text).length - parser.m_httpParser.mark), rfl, h.cs, ?_, h.m_error, h.sent, trivial⟩
    unfold HttpRequestParser.onRequestFragment
    rw [hmark, string_of_drop hbuffer, h.m_data]

def Ends (t : UInt8) (cs : Nat) : Prop :=
  t = 32 ∧ cs = 4 ∨ t = 35 ∧ cs = 20

def part (mark : String) (text : List UInt8) : List UInt8 :=
  (if text.isEmpty then [] else bytes mark) ++ text

theorem part_nil (mark : String) : part mark [] = [] := rfl

theorem part_of_ne (mark : String) {text : List UInt8} (h : text ≠ [])
    : part mark text = bytes mark ++ text := by
  unfold part
  rw [List.isEmpty_eq_false_iff.mpr h]
  rfl

def target (req : HttpRequest) : List UInt8 :=
  req.m_path ++ part "?" req.m_query ++ part "#" req.m_fragment

theorem drop_of_append {text more : List UInt8} (h : buffer.drop p = text ++ more)
    : buffer.drop (p + text.length) = more := by
  rw [← List.drop_drop, h, List.drop_left]

theorem reads_path_query {path query : List UInt8} (hpath : PathText r path)
    (hquery : Encoded (Table.query r) query) (hdata : data.m_query = []) {cs' : Nat}
    (hend : Ends t cs') (hbuffer : buffer.drop p = path ++ part "?" query ++ rest)
    : Scan.Reads (next r buffer) (At 3 data Free) p (path ++ part "?" query ++ [t])
        (At cs' { data with m_path := path, m_query := query } Free) := by
  have hcs' : cs' ≠ http_parser_error := by
    rcases hend with ⟨-, rfl⟩ | ⟨-, rfl⟩ <;> decide
  by_cases hnil : query = []
  . have hsame : { data with m_path := path, m_query := query } = { data with m_path := path } := by
      rw [hnil, ← hdata]
    rw [hnil, part_nil, List.append_nil] at hbuffer
    rw [hsame, hnil, part_nil, List.append_nil]
    apply reads_path hpath _ (.inr rfl) hcs' hbuffer
    rcases hend with ⟨rfl, rfl⟩ | ⟨rfl, rfl⟩
    . exact fun cs hcs => (trans_path_end r cs hcs).1
    . exact fun cs hcs => (trans_path_end r cs hcs).2.1
  . have hmark : bytes "?" = [63] := by decide
    have htrans : trans r 30 t = ([.query_string, .request_uri], cs') := by
      rcases hend with ⟨rfl, rfl⟩ | ⟨rfl, rfl⟩
      . exact (trans_query_end r).1
      . exact (trans_query_end r).2
    rw [part_of_ne "?" hnil, hmark] at hbuffer ⊢
    rw [← List.append_assoc] at hbuffer ⊢
    have hpath' : Scan.Reads (next r buffer) (At 3 data Free) p (path ++ [63])
        (At 29 { data with m_path := path } Free) := by
      apply reads_path hpath _ (.inl rfl) (by decide)
      . rw [hbuffer, List.append_assoc, List.append_assoc]
      . exact fun cs hcs => (trans_path_end r cs hcs).2.2
    rw [List.append_assoc] at hbuffer
    rw [List.append_assoc (path ++ [63])]
    exact hpath'.append (reads_query hquery hnil htrans hcs' (drop_of_append hbuffer))

theorem reads_target {req : HttpRequest} (hpath : PathText r req.m_path)
    (hquery : Encoded (Table.query r) req.m_query)
    (hfragment : Encoded (Table.query r) req.m_fragment) (hdata : data.m_query = [])
    (hdata' : data.m_fragment = []) (hbuffer : buffer.drop p = target req ++ rest)
    : Scan.Reads (next r buffer) (At 3 data Free) p (target req ++ bytes " ")
        (At 4 { data with
          m_path := req.m_path, m_query := req.m_query, m_fragment := req.m_fragment } Free) := by
  unfold target at hbuffer ⊢
  by_cases hnil : req.m_fragment = []
  . have hblank : bytes " " = [32] := by decide
    have hsame : { data with
          m_path := req.m_path, m_query := req.m_query, m_fragment := req.m_fragment }
        = { data with m_path := req.m_path, m_query := req.m_query } := by
      rw [hnil, ← hdata']
    rw [hnil, part_nil, List.append_nil] at hbuffer
    rw [hsame, hnil, part_nil, List.append_nil, hblank]
    exact reads_path_query hpath hquery hdata (.inl ⟨rfl, rfl⟩) hbuffer
  . have hmark : bytes "#" = [35] := by decide
    rw [part_of_ne "#" hnil, hmark] at hbuffer ⊢
    rw [← List.append_assoc] at hbuffer ⊢
    have htext : Scan.Reads (next r buffer) (At 3 data Free) p
        (req.m_path ++ part "?" req.m_query ++ [35])
        (At 20 { data with m_path := req.m_path, m_query := req.m_query } Free) := by
      apply reads_path_query hpath hquery hdata (.inr ⟨rfl, rfl⟩)
      rw [hbuffer, List.append_assoc (_ ++ _), List.append_assoc (_ ++ _)]
    rw [List.append_assoc] at hbuffer
    rw [List.append_assoc (_ ++ [35])]
    exact htext.append (reads_fragment hfragment hnil (drop_of_append hbuffer))

end Target

section Version

variable {r : Bool} {buffer rest : List UInt8} {p : Nat} {data : HttpRequest} {v : UInt8}

theorem strncmp_take (lhs rhs : List UInt8) (n : Nat)
    : strncmp (lhs.take n) rhs n = strncmp lhs rhs n := by
  unfold strncmp
  rw [List.take_take, Nat.min_self]

theorem strncmp_versionText (hv : v = 0x10 ∨ v = 0x11) (rest : List UInt8)
    : strncmp (versionText v ++ rest) (bytes "HTTP/1.1") (versionText v).length = (v == 0x11)
      ∧ strncmp (versionText v ++ rest) (bytes "HTTP/1.0") (versionText v).length = (v == 0x10) := by
  rw [← strncmp_take, ← strncmp_take _ (bytes "HTTP/1.0"), List.take_left]
  rcases hv with rfl | rfl
  . decide
  . decide

theorem onRequestVersion_text (hv : v = 0x10 ∨ v = 0x11) (parser : HttpRequestParser)
    (rest : List UInt8)
    : parser.onRequestVersion (versionText v ++ rest) (versionText v).length
        = { parser with m_data := { parser.m_data with m_version := v } } := by
  obtain ⟨h11, h10⟩ := strncmp_versionText hv rest
  unfold HttpRequestParser.onRequestVersion
  rw [h11, h10]
  rcases hv with rfl | rfl <;> rfl

theorem versionText_cons (hv : v = 0x10 ∨ v = 0x11)
    : ∃ text, versionText v = 72 :: text ∧ ∀ r, quiet r 5 text = some 12 := by
  rcases hv with rfl | rfl
  . exact ⟨bytes "TTP/1.0", by decide, by decide⟩
  . exact ⟨bytes "TTP/1.1", by decide, by decide⟩

theorem reads_version (hv : v = 0x10 ∨ v = 0x11) (hbuffer : buffer.drop p = versionText v ++ rest)
    : Scan.Reads (next r buffer) (At 4 data Free) p (versionText v ++ Lines.crlf)
        (At 13 { data with m_version := v } Free) := by
  obtain ⟨text, htext, hquiet⟩ := versionText_cons hv
  have hmark : Scan.Reads (next r buffer) (At 4 data Free) p [72]
      (At 5 data (fun o => o.mark = p)) := by
    apply reads_byte (trans_version r).1 rfl
    intro parser h
    exact ⟨_, rfl, h.cs, h.m_data, h.m_error, h.sent, rfl⟩
  have hname : Scan.Reads (next r buffer) (At 4 data Free) p (versionText v)
      (At 12 data (fun o => o.mark = p)) := by
    rw [htext]
    exact hmark.cons (reads_quiet_text (hquiet r))
  apply hname.append
  apply Scan.Reads.cons (R := At 17 { data with m_version := v } Free)
  . apply reads_byte (trans_version r).2 rfl
    intro parser h
    have hptr : parser.m_httpParser.mark = p := h.known
    refine ⟨{ parser with m_data := { parser.m_data with m_version := v } }, ?_, h.cs, ?_, h.m_error,
      h.sent, trivial⟩
    . have hrun : parser.onRequestVersion (buffer.drop parser.m_httpParser.mark)
          (p + (versionText v).length - parser.m_httpParser.mark)
            = { parser with m_data := { parser.m_data with m_version := v } } := by
        rw [hptr, Nat.add_sub_cancel_left, hbuffer]
        exact onRequestVersion_text hv parser rest
      rw [← hrun]
      rfl
    . rw [h.m_data]
  . exact reads_quiet (trans_field_ends r).2.2.2.2 (by decide)

end Version

section Field

variable {r : Bool} {buffer rest : List UInt8} {p : Nat} {data : HttpRequest}
  {key value : List UInt8}

theorem reads_name (hkey : FieldName key)
    : Scan.Reads (next r buffer) (At 13 data Free) p (key ++ [58])
        (At 15 data (fun o => o.field_start = p ∧ o.field_len = key.length)) := by
  obtain ⟨c, text, rfl, hc, htext⟩ := hkey
  have hstart : Scan.Reads (next r buffer) (At 13 data Free) p [c]
      (At 14 data (fun o => o.field_start = p)) := by
    apply reads_byte (trans_field_start r c hc) rfl
    intro parser h
    exact ⟨_, rfl, h.cs, h.m_data, h.m_error, h.sent, rfl⟩
  have hinside : Scan.Reads (next r buffer) (At 14 data (fun o => o.field_start = p)) (p + 1) text
      (At 14 data (fun o => o.field_start = p)) :=
    .invariant fun b hb _ => reads_quiet (trans_field r b (htext b hb)) (by decide)
  apply (hstart.cons hinside).append
  apply reads_byte (trans_field_ends r).1 rfl
  intro parser h
  have hptr : parser.m_httpParser.field_start = p := h.known
  refine ⟨_, rfl, h.cs, h.m_data, h.m_error, h.sent, hptr, ?_⟩
  change p + (c :: text).length - parser.m_httpParser.field_start = (c :: text).length
  rw [hptr, Nat.add_sub_cancel_left]

theorem run_write_value {q : Nat} (parser : HttpRequestParser) (hkey : key ≠ [])
    (hbuffer : buffer.drop p = key ++ rest) {rest' : List UInt8}
    (hbuffer' : buffer.drop q = value ++ rest')
    (hfield : parser.m_httpParser.field_start = p) (hlen : parser.m_httpParser.field_len = key.length)
    (hmark : parser.m_httpParser.mark = q)
    : Action.run buffer (q + value.length) parser .write_value
        = some { parser with m_data := parser.m_data.setHeader key value } := by
  have hpos : key.length ≠ 0 := by
    rw [Ne, List.length_eq_zero_iff]
    exact hkey
  have hvalue : string (buffer.drop q) (q + value.length - q) = value := string_of_drop hbuffer'
  have hname : string (buffer.drop p) key.length = key := by
    rw [string, hbuffer, List.take_left]
  unfold Action.run HttpRequestParser.onRequestHttpField
  dsimp only
  rw [hfield, hlen, hmark, if_neg hpos, hvalue, hname]

theorem reads_value {q : Nat} (hkey : key ≠ []) (hvalue : FieldValue value)
    (hbuffer : buffer.drop p = key ++ rest) {rest' : List UInt8}
    (hbuffer' : buffer.drop q = value ++ rest')
    : Scan.Reads (next r buffer)
        (At 15 data (fun o => o.field_start = p ∧ o.field_len = key.length)) q (value ++ [13])
        (At 17 (data.setHeader key value) Free) := by
  cases hcases : value with
  | nil =>
    apply reads_byte (trans_field_ends r).2.2.1 rfl
    intro parser h
    have hrun := run_write_value { parser with m_httpParser := { parser.m_httpParser with mark := q } }
      hkey hbuffer hbuffer' h.known.1 h.known.2 rfl
    rw [hcases] at hrun
    refine ⟨_, hrun, h.cs, ?_, h.m_error, h.sent, trivial⟩
    change parser.m_data.setHeader key [] = _
    rw [h.m_data]
  | cons c text =>
    obtain ⟨hc, htext⟩ := hvalue c text hcases
    rw [hcases] at hbuffer'
    have hstart : Scan.Reads (next r buffer)
        (At 15 data (fun o => o.field_start = p ∧ o.field_len = key.length)) q [c]
        (At 16 data (fun o => o.field_start = p ∧ o.field_len = key.length ∧ o.mark = q)) := by
      apply reads_byte (trans_value_start r c hc) rfl
      intro parser h
      exact ⟨_, rfl, h.cs, h.m_data, h.m_error, h.sent, h.known.1, h.known.2, rfl⟩
    have hinside : Scan.Reads (next r buffer)
        (At 16 data (fun o => o.field_start = p ∧ o.field_len = key.length ∧ o.mark = q)) (q + 1) text
        (At 16 data (fun o => o.field_start = p ∧ o.field_len = key.length ∧ o.mark = q)) :=
      .invariant fun b hb _ => reads_quiet (trans_value r b (htext b hb)) (by decide)
    apply (hstart.cons hinside).append
    apply reads_byte (trans_field_ends r).2.2.2.1 rfl
    intro parser h
    have hrun := run_write_value parser hkey hbuffer hbuffer' h.known.1 h.known.2.1 h.known.2.2
    refine ⟨_, hrun, h.cs, ?_, h.m_error, h.sent, trivial⟩
    change parser.m_data.setHeader key (c :: text) = _
    rw [h.m_data]

theorem reads_field (hkey : FieldName key) (hvalue : FieldValue value)
    (hbuffer : buffer.drop p = Lines.header key value ++ rest)
    : Scan.Reads (next r buffer) (At 13 data Free) p (Lines.header key value ++ Lines.crlf)
        (At 13 (data.setHeader key value) Free) := by
  have hne : key ≠ [] := by
    obtain ⟨c, text, rfl, -⟩ := hkey
    exact List.cons_ne_nil c text
  have hheader : Lines.header key value ++ Lines.crlf
      = key ++ [58] ++ ([32] ++ (value ++ [13] ++ [10])) := by
    unfold Lines.header Lines.crlf Lines.cr Lines.lf
    simp
  have hname : buffer.drop p = key ++ ([58, 32] ++ value ++ rest) := by
    rw [hbuffer, Lines.header, List.append_assoc, List.append_assoc, List.append_assoc]
  have hdrop : buffer.drop (p + (key ++ [58]).length + 1) = value ++ rest := by
    have hpos : p + (key ++ [58]).length + 1 = p + (key ++ [58, 32]).length := by
      rw [List.length_append, List.length_append]
      rfl
    rw [hpos]
    apply drop_of_append
    rw [hbuffer, Lines.header, List.append_assoc]
  rw [hheader]
  apply (reads_name hkey).append
  apply Scan.Reads.cons
    (R := At 15 data (fun o => o.field_start = p ∧ o.field_len = key.length))
  . apply reads_byte (trans_field_ends r).2.1 rfl
    intro parser h
    exact ⟨_, rfl, h.cs, h.m_data, h.m_error, h.sent, h.known⟩
  . apply (reads_value hne hvalue hname hdrop).append
    exact reads_quiet (trans_field_ends r).2.2.2.2 (by decide)

def setFields (data : HttpRequest) (fields : MapType) : HttpRequest :=
  fields.foldl (fun data field => data.setHeader field.1 field.2) data

theorem reads_fields {fields : MapType}
    (hfields : ∀ field ∈ fields, FieldName field.1 ∧ FieldValue field.2)
    (hbuffer : buffer.drop p
      = (fields.map fun field => Lines.header field.1 field.2).flatMap (· ++ Lines.crlf) ++ rest)
    : Scan.Reads (next r buffer) (At 13 data Free) p
        ((fields.map fun field => Lines.header field.1 field.2).flatMap (· ++ Lines.crlf))
        (At 13 (setFields data fields) Free) := by
  induction fields generalizing p data with
  | nil => exact .nil
  | cons field fields ih =>
    rw [List.forall_mem_cons] at hfields
    rw [List.map_cons, List.flatMap_cons] at hbuffer ⊢
    rw [List.append_assoc] at hbuffer
    have hfield : Scan.Reads (next r buffer) (At 13 data Free) p
        (Lines.header field.1 field.2 ++ Lines.crlf)
        (At 13 (data.setHeader field.1 field.2) Free) :=
      reads_field hfields.1.1 hfields.1.2 (by rw [hbuffer, List.append_assoc])
    exact hfield.append (ih hfields.2 (drop_of_append hbuffer))

end Field

section End

variable (r : Bool) (buffer rest : List UInt8) (p : Nat) {data : HttpRequest}

theorem exec_empty_line {parser : HttpRequestParser} (h : At 13 data Free parser)
    : ∃ parser', exec r buffer p (Lines.crlf ++ rest) parser = some (p + 2, parser')
      ∧ Accepts parser' ∧ parser'.m_data = data := by
  have hstart : Scan.Reads (next r buffer) (At 13 data Free) p [13] (At 18 data Free) := by
    apply reads_byte (trans_empty_line r).1 rfl
    intro parser h
    exact ⟨_, rfl, h.cs, h.m_data, h.m_error, h.sent, trivial⟩
  obtain ⟨parser₁, hrun, h₁⟩ := hstart parser h
  refine ⟨({ parser₁ with m_httpParser := { parser₁.m_httpParser with body_start := p + 2 } }).setState
    http_parser_first_final, ?_, ?_, h₁.m_data⟩
  . have hdone : [Action.done].foldlM (Action.run buffer (p + 1)) parser₁
        = some { parser₁ with m_httpParser := { parser₁.m_httpParser with body_start := p + 2 } } := by
      have hsent := h₁.sent
      simp only [List.foldlM_cons, List.foldlM_nil, Action.run, hsent]
      rfl
    change exec r buffer p ([13] ++ 10 :: rest) parser = _
    rw [exec_of_run hrun]
    rw [exec, h₁.cs, (trans_empty_line r).2]
    dsimp only [List.length_singleton]
    rw [hdone]
    rfl
  . have herror : parser₁.m_error = 0 := h₁.m_error
    constructor
    . unfold HttpRequestParser.hasError
      change (parser₁.m_error != 0 || _) = false
      rw [herror]
      rfl
    . rw [isFinished_eq_one (Nat.le_refl http_parser_first_final)]
      decide

end End

end RequestMachine

namespace HttpRequest

open RequestMachine

/--
The requests that the machine can take: the method has a name without blanks, and the parts of the
header are in the classes of bytes that it knows.
-/
structure Sendable (r : Bool) (req : HttpRequest) : Prop where
  method : req.m_method ≠ .MSEARCH ∧ req.m_method ≠ .HTTP_INVALID_METHOD
  path : PathText r req.m_path
  query : Encoded (Table.query r) req.m_query
  fragment : Encoded (Table.query r) req.m_fragment
  version : req.m_version = 0x10 ∨ req.m_version = 0x11
  fields : ∀ field ∈ req.m_headers, sameKey field.1 (bytes "connection") = false
    → FieldName field.1 ∧ FieldValue field.2
  sorted : req.m_headers.Sorted

def connectionValue (m_close : Bool) : List UInt8 :=
  if m_close then bytes "close" else bytes "keep-alive"

def onWire (req : HttpRequest) (m_close : Bool) : HttpRequest :=
  let req := (req.delHeader (bytes "connection")).setHeader (bytes "connection")
    (connectionValue m_close)
  if req.m_body.isEmpty then
    req
  else
    req.setHeader (bytes "content-length") (Lines.decimal req.m_body.length)

def fields (req : HttpRequest) (m_close : Bool) : MapType :=
  (bytes "connection", connectionValue m_close)
    :: req.m_headers.erase (bytes "connection")
    ++ if req.m_body.isEmpty then [] else [(bytes "content-length", Lines.decimal req.m_body.length)]

variable {r : Bool} {req : HttpRequest}

theorem setFields_eq (data : HttpRequest) (fields : MapType)
    : setFields data fields
        = { data with m_headers := OrderedMap.setAll strcaseless data.m_headers fields } := by
  induction fields generalizing data with
  | nil => rfl
  | cons field fields ih =>
    change setFields (data.setHeader field.1 field.2) fields = _
    rw [ih]
    unfold HttpRequest.setHeader OrderedMap.setAll
    rw [List.foldl_cons, MapType.set_eq]

theorem setAll_fields (hsorted : req.m_headers.Sorted) (m_close : Bool)
    : OrderedMap.setAll strcaseless [] (req.fields m_close) = (req.onWire m_close).m_headers := by
  have herase : (req.m_headers.erase (bytes "connection")).Sorted := hsorted.erase _
  have hnone : (req.m_headers.erase (bytes "connection")).find (bytes "connection") = none := by
    rw [MapType.find_erase]
    rfl
  have hfirst : OrderedMap.setAll strcaseless []
        ((bytes "connection", connectionValue m_close) :: req.m_headers.erase (bytes "connection"))
      = (req.m_headers.erase (bytes "connection")).set (bytes "connection")
          (connectionValue m_close) := by
    rw [MapType.set_eq]
    exact OrderedMap.setAll_cons strcaseless_iff herase hnone (connectionValue m_close)
  unfold fields onWire
  rw [OrderedMap.setAll_append, hfirst]
  change _ = (if req.m_body.isEmpty then _ else _ : HttpRequest).m_headers
  split
  . rfl
  . unfold setHeader delHeader
    dsimp only
    rw [MapType.set_eq _ (bytes "content-length")]
    rfl

theorem map_fields (req : HttpRequest) (m_close : Bool)
    : ((req.fields m_close).map fun field => Lines.header field.1 field.2)
        = connectionLine m_close :: headerLines req.m_headers ++ lengthLines req.m_body := by
  unfold fields headerLines lengthLines
  rw [List.map_append, List.map_cons]
  congr 1
  split <;> rfl

def header (req : HttpRequest) (m_close : Bool) : List UInt8 :=
  HttpMethodToString req.m_method ++ bytes " " ++ (target req ++ bytes " ")
    ++ (versionText req.m_version ++ Lines.crlf)
    ++ ((req.fields m_close).map fun field => Lines.header field.1 field.2).flatMap (· ++ Lines.crlf)
    ++ Lines.crlf

theorem dump_eq_header (req : HttpRequest) (m_close : Bool)
    : req.dump m_close = req.header m_close ++ req.m_body := by
  rw [dump_eq]
  unfold header
  rw [map_fields]
  unfold startLine target part
  simp only [List.append_assoc]

theorem fieldName_connection : FieldName (bytes "connection") := by
  exact ⟨99, bytes "onnection", by decide, by decide, forall_mem_of_all (by decide)⟩

theorem fieldName_length : FieldName (bytes "content-length") := by
  exact ⟨99, bytes "ontent-length", by decide, by decide, forall_mem_of_all (by decide)⟩

theorem fieldValue_connection (m_close : Bool) : FieldValue (connectionValue m_close) := by
  intro c text h
  cases m_close with
  | false =>
    have hbytes : connectionValue false = 107 :: bytes "eep-alive" := by decide
    rw [hbytes, List.cons.injEq] at h
    rw [← h.1, ← h.2]
    exact ⟨by decide, forall_mem_of_all (by decide)⟩
  | true =>
    have hbytes : connectionValue true = 99 :: bytes "lose" := by decide
    rw [hbytes, List.cons.injEq] at h
    rw [← h.1, ← h.2]
    exact ⟨by decide, forall_mem_of_all (by decide)⟩

theorem value_of_digit : ∀ b : UInt8, 48 ≤ b ∧ b ≤ 57
    → inRange b Table.valueStart = true ∧ inRange b Table.value = true := by
  apply forall_byte
  decide +kernel

theorem fieldValue_decimal (n : Nat) : FieldValue (Lines.decimal n) := by
  intro c text h
  have hdigit : ∀ b ∈ c :: text, 48 ≤ b ∧ b ≤ 57 := by
    intro b hb
    rw [← h] at hb
    exact Lines.mem_decimal hb
  rw [List.forall_mem_cons] at hdigit
  exact ⟨(value_of_digit c hdigit.1).1, fun b hb => (value_of_digit b (hdigit.2 b hb)).2⟩

theorem Sendable.fields_ok (h : req.Sendable r) (m_close : Bool)
    : ∀ field ∈ req.fields m_close, FieldName field.1 ∧ FieldValue field.2 := by
  unfold HttpRequest.fields
  intro field hfield
  rw [List.mem_append, List.mem_cons] at hfield
  rcases hfield with (rfl | hfield) | hfield
  . exact ⟨fieldName_connection, fieldValue_connection m_close⟩
  . rw [MapType.erase, List.mem_filter, Bool.not_eq_true'] at hfield
    exact h.fields field hfield.1 hfield.2
  . split at hfield
    . cases hfield
    . rw [List.mem_singleton] at hfield
      rw [hfield]
      exact ⟨fieldName_length, fieldValue_decimal _⟩

theorem onWire_eq (req : HttpRequest) (m_close : Bool)
    : req.onWire m_close = { req with m_headers := (req.onWire m_close).m_headers } := by
  unfold onWire
  dsimp only
  split <;> rfl

theorem Sendable.reads_header (h : req.Sendable r) (m_close : Bool) {text buffer rest : List UInt8}
    (hheader : req.header m_close = text ++ Lines.crlf) (hbuffer : buffer = text ++ rest)
    : Scan.Reads (next r buffer) (At http_parser_start HttpRequest.new Free) 0 text
        (At 13 { req.onWire m_close with m_body := [] } Free) := by
  unfold header at hheader
  rw [← List.append_cancel_right hheader] at hbuffer ⊢
  have hmethod : buffer.drop 0 = HttpMethodToString req.m_method ++ bytes " "
      ++ (target req ++ bytes " " ++ (versionText req.m_version ++ Lines.crlf
        ++ (((req.fields m_close).map fun field => Lines.header field.1 field.2).flatMap
              (· ++ Lines.crlf) ++ rest))) := by
    rw [hbuffer, List.drop_zero]
    simp only [List.append_assoc]
  have htarget := drop_of_append hmethod
  have hversion := drop_of_append htarget
  have hfields := drop_of_append hversion
  rw [List.append_assoc] at hmethod htarget hversion
  have hread₁ : Scan.Reads (next r buffer) (At http_parser_start HttpRequest.new Free) 0
      (HttpMethodToString req.m_method ++ bytes " ")
      (At 3 { HttpRequest.new with m_method := req.m_method } Free) :=
    reads_method h.method.1 h.method.2 hmethod
  have hread₂ := hread₁.append (reads_target h.path h.query h.fragment rfl rfl htarget)
  have hread₃ := hread₂.append
    (reads_version h.version (by rw [List.length_append, ← Nat.add_assoc]; exact hversion))
  have hread₄ := hread₃.append (reads_fields (h.fields_ok m_close) (by
    rw [List.length_append, List.length_append, ← Nat.add_assoc, ← Nat.add_assoc]
    exact hfields))
  have hdata : setFields { HttpRequest.new with
        m_method := req.m_method, m_path := req.m_path, m_query := req.m_query,
        m_fragment := req.m_fragment, m_version := req.m_version } (req.fields m_close)
      = { req.onWire m_close with m_body := [] } := by
    rw [setFields_eq, onWire_eq]
    change ({ req with
      m_body := []
      m_headers := OrderedMap.setAll strcaseless [] (req.fields m_close) } : HttpRequest) = _
    rw [setAll_fields h.sorted]
  rw [← hdata]
  exact hread₄

theorem Sendable.exec_header (h : req.Sendable r) (m_close : Bool) (query_start : Nat)
    (after rest : List UInt8)
    : ∃ parser, exec r (req.header m_close ++ after) 0 (req.header m_close ++ rest) (.new query_start)
          = some ((req.header m_close).length, parser)
      ∧ Accepts parser ∧ parser.m_data = { req.onWire m_close with m_body := [] } := by
  obtain ⟨text, hheader⟩ : ∃ text, req.header m_close = text ++ Lines.crlf := ⟨_, rfl⟩
  have hstart : At http_parser_start HttpRequest.new Free (.new query_start) :=
    ⟨rfl, rfl, rfl, rfl, trivial⟩
  have hbuffer : req.header m_close ++ after = text ++ (Lines.crlf ++ after) := by
    rw [hheader, List.append_assoc]
  obtain ⟨parser₁, hrun, h₁⟩ := h.reads_header m_close hheader hbuffer _ hstart
  obtain ⟨parser, hexec, haccepts, hdata⟩ :=
    exec_empty_line r (req.header m_close ++ after) rest text.length h₁
  refine ⟨parser, ?_, haccepts, hdata⟩
  have hall := exec_of_run hrun (Lines.crlf ++ rest)
  rw [Nat.zero_add, hexec, ← List.append_assoc, ← hheader] at hall
  rw [hall, hheader, List.length_append]
  rfl

/--
A parser that is given the text that `dump` writes takes the header and moves the body to the front,
and header and body are those of the request with what `dump` adds.
-/
theorem request_roundTrip (r : Bool) (req : HttpRequest) (m_close : Bool) (query_start : Nat)
    (h : req.Sendable r) (hlen : (req.dump m_close).length < 2 ^ 31)
    : ∃ rt moved parser, (HttpRequestParser.lts r).step (.new query_start)
          { data := req.dump m_close, rt := rt, moved := some moved, failed := false,
            hasError := false } parser
      ∧ rt + req.m_body.length = (req.dump m_close).length ∧ parser.isFinished = 1
      ∧ { parser.m_data with m_body := moved.take req.m_body.length } = req.onWire m_close := by
  obtain ⟨parser, hexec, haccepts, hdata⟩ :=
    h.exec_header m_close query_start (req.m_body ++ [0]) req.m_body
  have hdump := dump_eq_header req m_close
  have hrt : (req.header m_close).length ≤ (req.dump m_close).length := by
    rw [hdump, List.length_append]
    exact Nat.le_add_right _ _
  have hbody : (req.dump m_close).drop (req.header m_close).length = req.m_body := by
    rw [hdump, List.drop_left]
  have hpos : (req.dump m_close).length ≠ 0 := by
    rw [hdump, header, List.length_append, List.length_append]
    change _ + 2 + _ ≠ 0
    omega
  have hmove : ((req.dump m_close).overwrite 0 req.m_body).take req.m_body.length = req.m_body := by
    have htake : ((req.dump m_close).overwrite 0 req.m_body).take (0 + req.m_body.length)
        = (req.dump m_close).take 0 ++ req.m_body := List.take_overwrite (Nat.zero_le _)
    rw [Nat.zero_add] at htake
    exact htake
  have herror : httpParserHasError parser.m_httpParser = false := by
    rw [httpParserHasError, beq_eq_false_iff_ne]
    exact haccepts.ne_error
  have hrun : httpParserExecute r (.new query_start) (req.dump m_close ++ [0])
      (req.dump m_close).length = some ((req.header m_close).length, parser) := by
    rw [httpParserExecute_eq r _ _ (Nat.pos_of_ne_zero hpos), if_pos ⟨hlen, .inl (Nat.zero_le _)⟩,
      List.take_left, ← hexec, ← List.append_assoc, ← hdump]
    rfl
  have hexecute : ∃ data, (HttpRequestParser.new query_start).execute r (req.dump m_close ++ [0])
      (req.dump m_close).length = some ((req.header m_close).length, data, parser) := by
    unfold HttpRequestParser.execute
    rw [hrun]
    exact ⟨_, rfl⟩
  refine ⟨(req.header m_close).length, (req.dump m_close).overwrite 0 req.m_body, parser,
    ⟨hexecute, ?_, herror.symm, haccepts.1.symm⟩, ?_, ?_, ?_⟩
  . rw [memmove_suffix hrt hlen, hbody]
  . rw [hdump, List.length_append]
  . exact isFinished_eq_one haccepts.final
  . rw [hdata, hmove]
    change { req.onWire m_close with m_body := req.m_body } = _
    rw [onWire_eq]

def sampleRequest : HttpRequest :=
  { HttpRequest.new with
    m_method := .POST, m_path := bytes "/a%2Fb", m_query := bytes "x=1", m_fragment := bytes "top",
    m_headers := [(bytes "Host", bytes "h")], m_body := bytes "ab" }

theorem sampleRequest_sendable : sampleRequest.Sendable false := by
  constructor
  . decide
  . exact ⟨bytes "a%2Fb", by decide, .char (by decide)
      (.escape (by decide) (by decide) (.char (by decide) .nil)), by decide⟩
  . exact .char (by decide) (.char (by decide) (.char (by decide) .nil))
  . exact .char (by decide) (.char (by decide) (.char (by decide) .nil))
  . decide
  . intro field hfield _
    rw [List.mem_singleton.mp hfield]
    refine ⟨⟨72, bytes "ost", by decide, by decide, forall_mem_of_all (by decide)⟩, ?_⟩
    intro c text h
    have hbytes : bytes "h" = [104] := by decide
    rw [hbytes, List.cons.injEq] at h
    rw [← h.1, ← h.2]
    exact ⟨by decide, forall_mem_of_all (by decide)⟩
  . exact List.pairwise_singleton _ _

theorem request_roundTrip_post
    : ∃ rt moved parser, (HttpRequestParser.lts false).step (.new 0)
          { data := sampleRequest.dump false, rt := rt, moved := some moved, failed := false,
            hasError := false } parser
      ∧ rt + sampleRequest.m_body.length = (sampleRequest.dump false).length ∧ parser.isFinished = 1
      ∧ { parser.m_data with m_body := moved.take sampleRequest.m_body.length }
          = sampleRequest.onWire false :=
  request_roundTrip false sampleRequest false 0 sampleRequest_sendable (by decide +kernel)

end HttpRequest

end Http
end CXS
