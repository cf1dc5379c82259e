import CXS.Http.Session

namespace CXS
namespace Http

theorem exec_cons_cases {r : Bool} {buffer rest : List UInt8} {b : UInt8} {p q : Nat}
    {parser parser' : HttpRequestParser} (h : exec r buffer p (b :: rest) parser = some (q, parser'))
    : ∃ actions cs parser₁, trans r parser.m_httpParser.cs b = (actions, cs)
      ∧ actions.foldlM (Action.run buffer p) parser = some parser₁
      ∧ (cs = http_parser_error ∧ q = p ∧ parser' = parser₁.setState cs
        ∨ cs ≠ http_parser_error ∧ .done ∈ actions ∧ q = p + 1 ∧ parser' = parser₁.setState cs
        ∨ cs ≠ http_parser_error ∧ .done ∉ actions
          ∧ exec r buffer (p + 1) rest (parser₁.setState cs) = some (q, parser')) := by
  simp only [exec] at h
  split at h
  next => cases h
  next parser₁ hrun =>
    refine ⟨_, _, parser₁, rfl, hrun, ?_⟩
    split at h
    next herror =>
      simp only [Option.some.injEq, Prod.mk.injEq] at h
      exact .inl ⟨herror, h.1.symm, h.2.symm⟩
    next herror =>
      split at h
      next hdone =>
        simp only [Option.some.injEq, Prod.mk.injEq] at h
        exact .inr (.inl ⟨herror, hdone, h.1.symm, h.2.symm⟩)
      next hdone => exact .inr (.inr ⟨herror, hdone, h⟩)

theorem exec_le (r : Bool) (buffer : List UInt8) (p : Nat) (rest : List UInt8)
    (parser : HttpRequestParser) {q : Nat} {parser' : HttpRequestParser}
    (h : exec r buffer p rest parser = some (q, parser')) : q ≤ p + rest.length := by
  induction rest generalizing p parser with
  | nil =>
    simp only [exec, Option.some.injEq, Prod.mk.injEq] at h
    omega
  | cons b rest ih =>
    obtain ⟨_, _, _, -, -, hcases⟩ := exec_cons_cases h
    simp only [List.length_cons]
    rcases hcases with ⟨-, hq, -⟩ | ⟨-, -, hq, -⟩ | ⟨-, -, hrest⟩
    . omega
    . omega
    . have := ih _ _ hrest
      omega

structure HttpRequestParser.Within (n : Nat) (parser : HttpRequestParser) : Prop where
  mark : parser.m_httpParser.mark < n
  field_start : parser.m_httpParser.field_start < n
  field_len : parser.m_httpParser.field_len ≤ n

section Within

variable {r : Bool} {n p q : Nat} {buffer rest : List UInt8} {a : Action} {actions : List Action}
variable {parser parser' : HttpRequestParser}

theorem HttpRequestParser.within_reset (h : 0 < n) : Within n parser.reset :=
  ⟨h, h, Nat.zero_le n⟩

theorem HttpRequestParser.Within.of_registers (h : Within n parser)
    (hsame : parser'.m_httpParser = parser.m_httpParser) : Within n parser' := by
  constructor
  . rw [hsame]
    exact h.mark
  . rw [hsame]
    exact h.field_start
  . rw [hsame]
    exact h.field_len

theorem onRequestMethod_registers (ptr : List UInt8)
    : (parser.onRequestMethod ptr).m_httpParser = parser.m_httpParser := by
  unfold HttpRequestParser.onRequestMethod
  dsimp only
  split
  . rfl
  . rfl

theorem onRequestVersion_registers (ptr : List UInt8) (length : Nat)
    : (parser.onRequestVersion ptr length).m_httpParser = parser.m_httpParser := by
  unfold HttpRequestParser.onRequestVersion
  split
  . rfl
  . split
    . rfl
    . rfl

theorem onRequestHttpField_registers (field value : List UInt8) (flen vlen : Nat)
    : (parser.onRequestHttpField field flen value vlen).m_httpParser = parser.m_httpParser := by
  unfold HttpRequestParser.onRequestHttpField
  split
  . rfl
  . rfl

theorem Action.run_within (h : a.run buffer p parser = some parser') (hp : p < n)
    (hwithin : parser.Within n)
    : parser'.Within n
      ∧ (a ≠ .done → parser'.m_httpParser.body_start = parser.m_httpParser.body_start)
      ∧ (a = .done → parser'.m_httpParser.body_start ≤ n) := by
  cases a with
  | query_string =>
    unfold run at h
    dsimp only at h
    split at h
    . cases h
      exact ⟨hwithin.of_registers rfl, fun _ => rfl, nofun⟩
    . cases h
  | done =>
    unfold run at h
    dsimp only at h
    split at h
    . cases h
      exact ⟨⟨hwithin.mark, hwithin.field_start, hwithin.field_len⟩, nofun, fun _ => hwithin.mark.le⟩
    . cases h
      exact ⟨⟨hwithin.mark, hwithin.field_start, hwithin.field_len⟩, nofun, fun _ => hp⟩
  | mark =>
    cases h
    exact ⟨⟨hp, hwithin.field_start, hwithin.field_len⟩, fun _ => rfl, nofun⟩
  | start_field =>
    cases h
    exact ⟨⟨hwithin.mark, hp, hwithin.field_len⟩, fun _ => rfl, nofun⟩
  | write_field =>
    cases h
    exact ⟨⟨hwithin.mark, hwithin.field_start, (Nat.sub_le _ _).trans hp.le⟩, fun _ => rfl, nofun⟩
  | write_value =>
    cases h
    have hsame := @onRequestHttpField_registers parser
    exact ⟨hwithin.of_registers (hsame _ _ _ _), fun _ => by rw [hsame], nofun⟩
  | request_method =>
    cases h
    have hsame := @onRequestMethod_registers parser
    exact ⟨hwithin.of_registers (hsame _), fun _ => by rw [hsame], nofun⟩
  | http_version =>
    cases h
    have hsame := @onRequestVersion_registers parser
    exact ⟨hwithin.of_registers (hsame _ _), fun _ => by rw [hsame], nofun⟩
  | _ =>
    cases h
    exact ⟨⟨hwithin.mark, hwithin.field_start, hwithin.field_len⟩, fun _ => rfl, nofun⟩

theorem foldlM_run_within (h : actions.foldlM (Action.run buffer p) parser = some parser')
    (hp : p < n) (hwithin : parser.Within n)
    : parser'.Within n
      ∧ (.done ∉ actions → parser'.m_httpParser.body_start = parser.m_httpParser.body_start)
      ∧ (.done ∈ actions → parser'.m_httpParser.body_start ≤ n) := by
  induction actions generalizing parser with
  | nil =>
    cases h
    exact ⟨hwithin, fun _ => rfl, nofun⟩
  | cons a actions ih =>
    simp only [List.foldlM_cons, Option.bind_eq_bind, Option.bind_eq_some_iff] at h
    obtain ⟨parser₁, ha, hactions⟩ := h
    obtain ⟨hwithin₁, hkeeps, hsets⟩ := Action.run_within ha hp hwithin
    obtain ⟨hwithin', hkeeps', hsets'⟩ := ih hactions hwithin₁
    refine ⟨hwithin', ?_, ?_⟩
    . intro hmem
      rw [List.mem_cons, not_or] at hmem
      rw [hkeeps' hmem.2, hkeeps (Ne.symm hmem.1)]
    . intro hmem
      by_cases hrest : .done ∈ actions
      . exact hsets' hrest
      . rw [hkeeps' hrest]
        rcases List.mem_cons.mp hmem with ha | hmem
        . exact hsets ha.symm
        . exact absurd hmem hrest

-- a `done` of the machine on these bytes
def completes (r : Bool) (cs : Nat) (rest : List UInt8) : Bool :=
  match rest with
  | [] => false
  | b :: rest =>
    (trans r cs b).1.contains .done
      || (trans r cs b).2 != http_parser_error && completes r (trans r cs b).2 rest

theorem exec_within (h : exec r buffer p rest parser = some (q, parser'))
    (hn : p + rest.length ≤ n) (hwithin : parser.Within n)
    : parser'.Within n
      ∧ (completes r parser.m_httpParser.cs rest = true → parser'.m_httpParser.body_start ≤ n)
      ∧ (completes r parser.m_httpParser.cs rest = false
        → parser'.m_httpParser.body_start = parser.m_httpParser.body_start) := by
  induction rest generalizing p parser with
  | nil =>
    cases h
    exact ⟨hwithin, nofun, fun _ => rfl⟩
  | cons b rest ih =>
    rw [List.length_cons] at hn
    obtain ⟨actions, cs, parser₁, htrans, hactions, hcases⟩ := exec_cons_cases h
    obtain ⟨hwithin₁, hkeeps, hsets⟩ := foldlM_run_within hactions (by omega) hwithin
    have hstate : (parser₁.setState cs).Within n :=
      ⟨hwithin₁.mark, hwithin₁.field_start, hwithin₁.field_len⟩
    have hstart : (parser₁.setState cs).m_httpParser.body_start
        = parser₁.m_httpParser.body_start := rfl
    simp only [completes, htrans]
    by_cases hdone : .done ∈ actions
    . have hend : parser' = parser₁.setState cs := by
        rcases hcases with ⟨-, -, hend⟩ | ⟨-, -, -, hend⟩ | ⟨-, hnot, -⟩
        . exact hend
        . exact hend
        . exact absurd hdone hnot
      rw [hend, hstart]
      exact ⟨hstate, fun _ => hsets hdone, by simp [hdone]⟩
    . rcases hcases with ⟨herror, -, hend⟩ | ⟨-, hmem, -⟩ | ⟨herror, -, hrest⟩
      . rw [hend, hstart]
        exact ⟨hstate, by simp [hdone, herror], fun _ => hkeeps hdone⟩
      . exact absurd hmem hdone
      . obtain ⟨hwithin', hsets', hkeeps'⟩ := ih hrest (by omega) hstate
        refine ⟨hwithin', ?_, ?_⟩
        . intro hcompletes
          have hrest' : completes r cs rest = true := by
            simpa [hdone, herror] using hcompletes
          exact hsets' hrest'
        . intro hcompletes
          have hrest' : completes r cs rest = false := by
            simpa [hdone, herror] using hcompletes
          rw [hkeeps' hrest', hstart, hkeeps hdone]

theorem toInt_eq_iff (n : Nat) : toInt n = n ↔ n < 2 ^ 31 := by
  constructor
  . intro heq
    have hlt := @Int.bmod_lt n (2 ^ 32) (by decide)
    unfold toInt at heq
    omega
  . intro hlt
    apply Int.bmod_eq_of_le
    . omega
    . omega

theorem httpParserExecute_eq (r : Bool) (parser : HttpRequestParser) (buffer : List UInt8)
    (hpos : 0 < n)
    : httpParserExecute r parser buffer n
        = if n < 2 ^ 31 ∧ (parser.m_httpParser.body_start ≤ n
              ∨ completes r parser.m_httpParser.cs (buffer.take n) = true) then
            exec r buffer 0 (buffer.take n) parser.reset
          else
            none := by
  have hlen : 0 + (buffer.take n).length ≤ n := by
    rw [List.length_take]
    omega
  unfold httpParserExecute
  rw [if_neg (by omega)]
  by_cases hlt : n < 2 ^ 31
  . rw [if_pos ((toInt_eq_iff n).mpr hlt)]
    cases hexec : exec r buffer 0 (buffer.take n) parser.reset with
    | none => exact (ite_self none).symm
    | some out =>
      obtain ⟨q, parser'⟩ := out
      have hread := exec_le _ _ _ _ _ hexec
      obtain ⟨hwithin, hsets, hkeeps⟩ := exec_within hexec hlen (HttpRequestParser.within_reset hpos)
      have hbody : parser'.m_httpParser.body_start ≤ n ↔ parser.m_httpParser.body_start ≤ n
          ∨ completes r parser.m_httpParser.cs (buffer.take n) = true := by
        cases hcompletes : completes r parser.m_httpParser.cs (buffer.take n) with
        | true => exact iff_of_true (hsets hcompletes) (.inr rfl)
        | false =>
          rw [hkeeps hcompletes]
          exact (or_iff_left Bool.false_ne_true).symm
      dsimp only
      congr 1
      apply propext
      rw [← hbody]
      constructor
      . intro h
        exact ⟨hlt, h.2.1⟩
      . intro h
        exact ⟨by omega, h.2, hwithin.mark, hwithin.field_len, hwithin.field_start⟩
  . rw [if_neg (mt (toInt_eq_iff n).mp hlt), if_neg (fun h => hlt h.1)]

theorem exec_of_httpParserExecute (h : httpParserExecute r parser buffer n = some (q, parser'))
    (hpos : 0 < n) : exec r buffer 0 (buffer.take n) parser.reset = some (q, parser') := by
  rw [httpParserExecute_eq r parser buffer hpos] at h
  split at h
  . exact h
  . cases h

theorem exec_of_execute {data data' : List UInt8}
    (h : parser.execute r data n = some (q, data', parser')) (hpos : 0 < n)
    : exec r data 0 (data.take n) parser.reset = some (q, parser') := by
  unfold HttpRequestParser.execute at h
  split at h
  . cases h
  . next hrun =>
    cases h
    exact exec_of_httpParserExecute hrun hpos

end Within

namespace HttpRequestParser

theorem execute_spec {r : Bool} {parser parser' : HttpRequestParser} {data data' : List UInt8}
    {len rt : Nat} (h : parser.execute r data len = some (rt, data', parser'))
    (hlen : len ≤ data.length)
    : rt ≤ len ∧ data'.length = data.length
      ∧ data.take len = data.take rt ++ data'.take (len - rt) := by
  simp only [execute] at h
  split at h
  next => cases h
  next rt' parser'' hexec =>
    simp only [Option.some.injEq, Prod.mk.injEq] at h
    have hrt : rt' ≤ len := by
      by_cases hpos : 0 < len
      . have := exec_le r data 0 (data.take len) _ (exec_of_httpParserExecute hexec hpos)
        rw [List.length_take] at this
        omega
      . unfold httpParserExecute at hexec
        rw [if_pos (by omega)] at hexec
        cases hexec
        omega
    have hmoved : ((data.drop rt').take (len - rt')).length = len - rt' := by
      rw [List.length_take, List.length_drop]
      omega
    rw [← h.1, ← h.2.1]
    refine ⟨hrt, List.length_overwrite (by omega), ?_⟩
    have htake := @List.take_overwrite _ data ((data.drop rt').take (len - rt')) 0 (by omega)
    rw [hmoved] at htake
    simp only [Nat.zero_add, List.take_zero, List.nil_append] at htake
    rw [htake, ← List.take_add]
    congr 1
    omega

end HttpRequestParser

theorem read_length_le (n : Nat) (peer : Peer) : (read n peer).1.length ≤ n := by
  cases peer with
  | nil => apply Nat.zero_le
  | cons piece peer =>
    simp only [read, List.length_take]
    omega

theorem read_cons {n : Nat} {piece : List UInt8} (peer : Peer) (hle : piece.length ≤ n)
    : read n (piece :: peer) = (piece, peer) := by
  simp only [read]
  rw [List.take_of_length_le hle, if_pos hle]

theorem recvHeader_piece (r : Bool) (data : List UInt8) {offset : Nat} (parser : HttpRequestParser)
    {piece : List UInt8} (peer : Peer) (hne : piece ≠ []) (hle : piece.length ≤ buff_size - offset)
    : recvHeader r data offset parser (piece :: peer)
        = match parser.execute r (data.overwrite offset piece) (piece.length + offset) with
          | none => .threw
          | some (rt, data, parser) =>
            if parser.hasError then
              .nullptr
            else if piece.length + offset - rt = buff_size then
              .nullptr
            else if parser.isFinished ≠ 0 then
              .finished parser data (piece.length + offset - rt) peer
            else
              recvHeader r data (piece.length + offset - rt) parser peer := by
  conv => lhs; unfold recvHeader
  simp only [read_cons peer hle]
  exact dif_neg hne

theorem execute_conserves {r : Bool} {data data' : List UInt8} {offset rt : Nat}
    {parser parser' : HttpRequestParser} {peer : Peer}
    (h : parser.execute r (data.overwrite offset (read (buff_size - offset) peer).1)
        ((read (buff_size - offset) peer).1.length + offset) = some (rt, data', parser'))
    (hdata : data.length = buff_size) (hoffset : offset ≤ buff_size)
    : data'.length = buff_size
      ∧ (read (buff_size - offset) peer).1.length + offset - rt ≤ buff_size
      ∧ ∃ header, data.take offset ++ peer.flatten
          = header ++ (data'.take ((read (buff_size - offset) peer).1.length + offset - rt)
              ++ (read (buff_size - offset) peer).2.flatten) := by
  have hle := read_length_le (buff_size - offset) peer
  have hflat := read_flatten (buff_size - offset) peer
  have hlen : (data.overwrite offset (read (buff_size - offset) peer).1).length = buff_size := by
    rw [List.length_overwrite (by omega), hdata]
  have htake := @List.take_overwrite _ data (read (buff_size - offset) peer).1 offset (by omega)
  obtain ⟨hrt, hdata', hsplit⟩ := HttpRequestParser.execute_spec h (by omega)
  refine ⟨by omega, by omega, ?_⟩
  exists (data.overwrite offset (read (buff_size - offset) peer).1).take rt
  rw [← List.append_assoc, ← hsplit]
  rw [Nat.add_comm _ offset, htake, List.append_assoc, hflat]

theorem recvHeader_conserves {r : Bool} {data data' : List UInt8} {offset k : Nat}
    {parser parser' : HttpRequestParser} {peer rest : Peer}
    (h : recvHeader r data offset parser peer = .finished parser' data' k rest)
    (hdata : data.length = buff_size) (hoffset : offset ≤ buff_size)
    : k ≤ data'.length
      ∧ ∃ header, data.take offset ++ peer.flatten = header ++ (data'.take k ++ rest.flatten) := by
  fun_induction recvHeader r data offset parser peer with
  | case1 => cases h
  | case2 => cases h
  | case3 => cases h
  | case4 => cases h
  | case5 data offset parser peer received hne len rt data₁ parser₁ hexec =>
    obtain ⟨hdata₁, hle, hheader⟩ := execute_conserves hexec hdata hoffset
    injection h with _ hd hk hrest
    rw [← hd, ← hk, ← hrest, hdata₁]
    exact ⟨hle, hheader⟩
  | case6 data offset parser peer received hne len rt data₁ parser₁ hexec _ _ _ ih =>
    obtain ⟨hdata₁, hle, header, hheader⟩ := execute_conserves hexec hdata hoffset
    obtain ⟨hk, header', hheader'⟩ := ih h hdata₁ hle
    refine ⟨hk, header ++ header', ?_⟩
    rw [hheader, hheader', List.append_assoc]

theorem StdString.store_length_le (s : StdString) (i : Nat) (cs : List UInt8)
    : (s.store i cs).chars.length ≤ s.chars.length := by
  simp only [store, List.length_take]
  omega

theorem readBody_length_le (body : StdString) (start length : Nat) (peer : Peer)
    : (readBody body start length peer).body.chars.length ≤ body.chars.length := by
  simp only [readBody]
  generalize List.zip _ _ = stores
  induction stores generalizing body with
  | nil => apply Nat.le_refl
  | cons s stores ih =>
    rw [List.foldl_cons]
    apply Nat.le_trans (ih _)
    apply StdString.store_length_le

theorem toInt64_of_lt {n : Nat} (h : n < 2 ^ 63) : toInt64 n = n := by
  unfold toInt64
  rw [Int.bmod_eq_of_le (by omega) (by omega)]

section Body

variable (lexical_cast : List UInt8 → Option Nat) (memory : Nat → List UInt8)

theorem recvBody_of_le {parser : HttpRequestParser} {data : List UInt8} {k L : Nat} {peer : Peer}
    (hL : toInt64 (parser.getContentLength lexical_cast) = L) (hpos : 1 ≤ L) (hle : L ≤ k)
    : recvBody lexical_cast memory parser data k peer
        = .request { parser.m_data with m_body := data.take L } [] := by
  have hdata : (if (L : Int) ≥ k then data.take k else data.take L) = data.take L := by
    split
    next h =>
      congr 1
      omega
    next => rfl
  simp only [recvBody, hL, Int.toNat_natCast, StdString.append, StdString.reserve,
    List.nil_append]
  rw [if_pos (by omega), if_neg (by omega)]
  split at hdata
  next h =>
    rw [if_pos h, hdata]
  next h =>
    rw [if_neg h]

theorem recvBody_of_lt (parser : HttpRequestParser) (data : List UInt8) {k L : Nat} (peer : Peer)
    (hL : toInt64 (parser.getContentLength lexical_cast) = L) (hlt : k < L)
    : recvBody lexical_cast memory parser data k peer
        = let body := (StdString.reserve (memory L)).append (data.take k)
          let out := readBody body body.chars.length (L - k) peer
          if out.ret ≤ 0 then
            .nullptr
          else
            .request { parser.m_data with m_body := out.body.chars } out.stored := by
  have hge : (L : Int) ≥ k := by omega
  have hleft : ((L : Int) - k).toNat = L - k := by omega
  simp only [recvBody, hL, Int.toNat_natCast, hleft, if_pos hge]
  rw [if_pos (by omega), if_pos (by omega)]

theorem recvBody_short {parser : HttpRequestParser} {data : List UInt8} {k L : Nat} {peer : Peer}
    {req : HttpRequest} {stored : List Nat}
    (hL : toInt64 (parser.getContentLength lexical_cast) = L) (hlt : k < L)
    (h : recvBody lexical_cast memory parser data k peer = .request req stored)
    : req.m_body.length ≤ k := by
  rw [recvBody_of_lt lexical_cast memory parser data peer hL hlt] at h
  simp only at h
  split at h
  next => cases h
  next =>
    injection h with hreq
    rw [← hreq]
    apply Nat.le_trans (readBody_length_le _ _ _ _)
    simp only [StdString.append, StdString.reserve, List.nil_append, List.length_take]
    omega

end Body

theorem recvRequest_body_iff (lexical_cast : List UInt8 → Option Nat)
    (memory : Nat → List UInt8) (uri_relaxed : Bool) (query_start : Nat) (buffer : List UInt8)
    (hbuffer : buffer.length = buff_size) (peer : Peer) (parser : HttpRequestParser)
    (data : List UInt8) (k : Nat) (rest : Peer)
    (hheader : recvHeader uri_relaxed buffer 0 (.new query_start) peer
      = .finished parser data k rest)
    (L : Nat) (hL : parser.getContentLength lexical_cast = L) (hpos : 1 ≤ L) (hmax : L ≤ 2 ^ 63 - 1)
    (harrive : L - k ≤ rest.flatten.length)
    : (∃ header, peer.flatten = header ++ (data.take k ++ rest.flatten))
      ∧ ((∃ req stored,
            recvRequest lexical_cast memory uri_relaxed query_start buffer peer
              = .request req stored
            ∧ req.m_body = (data.take k ++ rest.flatten).take L
            ∧ ∀ i ∈ stored, i < req.m_body.length)
          ↔ L ≤ k) := by
  obtain ⟨hk, hconserves⟩ := recvHeader_conserves hheader hbuffer (Nat.zero_le _)
  have hL' : toInt64 (parser.getContentLength lexical_cast) = L := by
    rw [hL, toInt64_of_lt (by omega)]
  have hlen : (data.take k).length = k := by
    rw [List.length_take]
    omega
  have hrecv : recvRequest lexical_cast memory uri_relaxed query_start buffer peer
      = recvBody lexical_cast memory parser data k rest := by
    unfold recvRequest
    rw [hheader]
  constructor
  . exact hconserves
  . rw [hrecv]
    constructor
    . intro h
      obtain ⟨req, stored, hreq, hbody, -⟩ := h
      by_cases hle : L ≤ k
      . assumption
      . exfalso
        have hshort := recvBody_short lexical_cast memory hL' (by omega) hreq
        rw [hbody, List.length_take, List.length_append, hlen] at hshort
        omega
    . intro hle
      refine ⟨_, [], recvBody_of_le lexical_cast memory hL' hpos hle, ?_, ?_⟩
      . rw [List.take_append_of_le_length (by omega), List.take_take, Nat.min_eq_left hle]
      . intro i hi
        cases hi

theorem recvRequest_body_iff_buffered
    : ∃ parser data,
        recvHeader false (List.replicate 100 0) 0 (.new 0)
            [bytes "POST / HTTP/1.1\r\ncontent-length: 2\r\n\r\nab"]
          = .finished parser data 2 []
        ∧ ((∃ req stored,
              recvRequest (fun s => if s = bytes "2" then some 2 else none)
                  (fun n => List.replicate (n + 1) 0) false 0 (List.replicate 100 0)
                  [bytes "POST / HTTP/1.1\r\ncontent-length: 2\r\n\r\nab"]
                = .request req stored
              ∧ req.m_body = (data.take 2 ++ List.flatten []).take 2
              ∧ ∀ i ∈ stored, i < req.m_body.length)
            ↔ 2 ≤ 2) := by
  have hheader : ∃ parser data,
      recvHeader false (List.replicate 100 0) 0 (.new 0)
          [bytes "POST / HTTP/1.1\r\ncontent-length: 2\r\n\r\nab"]
        = .finished parser data 2 []
      ∧ parser.getContentLength (fun s => if s = bytes "2" then some 2 else none) = 2 := by
    rw [recvHeader_piece _ _ _ _ (by decide) (by decide)]
    exact ⟨_, _, rfl, rfl⟩
  obtain ⟨parser, data, hheader, hL⟩ := hheader
  refine ⟨parser, data, hheader, ?_⟩
  exact (recvRequest_body_iff _ _ _ _ _ (by decide) _ _ _ _ _ hheader _ hL (by decide) (by decide)
    (by decide)).2

theorem recvRequest_body_unread
    : (∃ parser data,
        recvHeader false (List.replicate 100 0) 0 (.new 0)
            [bytes "POST / HTTP/1.1\r\ncontent-length: 2\r\n\r\n", bytes "ab"]
          = .finished parser data 0 [bytes "ab"]
        ∧ parser.getContentLength (fun s => if s = bytes "2" then some 2 else none) = 2)
      ∧ ∃ req,
          recvRequest (fun s => if s = bytes "2" then some 2 else none)
              (fun n => List.replicate (n + 1) 0) false 0 (List.replicate 100 0)
              [bytes "POST / HTTP/1.1\r\ncontent-length: 2\r\n\r\n", bytes "ab"]
            = .request req [0, 1]
          ∧ req.m_body = []
          ∧ req.m_body ≠ (bytes "ab").take 2
          ∧ ¬∀ i ∈ [0, 1], i < req.m_body.length := by
  constructor
  . rw [recvHeader_piece _ _ _ _ (by decide) (by decide)]
    exact ⟨_, _, rfl, rfl⟩
  . exists { HttpRequest.new with
      m_method := .POST, m_headers := [(bytes "content-length", bytes "2")] }
    refine ⟨?_, by decide, by decide, by decide⟩
    unfold recvRequest
    rw [recvHeader_piece _ _ _ _ (by decide) (by decide)]
    decide +kernel

end Http
end CXS
