import CXS.Http.Dump

namespace CXS
namespace Http

open Lines (crlf decimal named amount value block split notEmpty cr)

/--
A message whose body has `size` bytes is framed in the header lines `lines`: there is one
`connection` line, which says what `m_close` says, and one `content-length` line, which has the size of
the body, or none with a number other than 0 if there is no body.
-/
structure FramedLines (size : Nat) (m_close : Bool) (lines : List (List UInt8)) : Prop where
  connection : ∃ line, lines.filter (named (bytes "connection")) = [line]
    ∧ value line = if m_close then bytes "close" else bytes "keep-alive"
  length : size ≠ 0 → ∃ line, lines.filter (named (bytes "content-length")) = [line]
    ∧ amount (value line) = some (size : Int)
  no_length : size = 0 → ∀ line ∈ lines, named (bytes "content-length") line = true
    → ∀ n, amount (value line) = some n → n = 0

def Framed (size : Nat) (m_close : Bool) (text : List UInt8) : Prop :=
  FramedLines size m_close (block text)

-- the keys and values that do not break a line
def Plain (m_headers : MapType) : Prop :=
  ∀ header ∈ m_headers, cr ∉ header.1 ∧ Lines.lf ∉ header.1 ∧ cr ∉ header.2 ∧ Lines.lf ∉ header.2

instance (m_headers : MapType) : Decidable (Plain m_headers) :=
  inferInstanceAs (Decidable (∀ header ∈ m_headers, _))

def headerLines (m_headers : MapType) : List (List UInt8) :=
  (m_headers.filter fun header => !sameKey header.1 (bytes "connection")).map
    fun header => Lines.header header.1 header.2

-- lines that leave the framing to the lines of the connection and of the body
structure Unframed (size : Nat) (lines : List (List UInt8)) : Prop where
  connection : ∀ line ∈ lines, named (bytes "connection") line = false
  length : size ≠ 0 → ∀ line ∈ lines, named (bytes "content-length") line = false
  no_length : size = 0 → ∀ line ∈ lines, named (bytes "content-length") line = true
    → ∀ n, amount (value line) = some n → n = 0

/--
What has to hold of a message for its text to be framed. Line ends in the start line are the start of
further lines. If there is an empty one among them, they are all that is read of the header, and else
they stand before the lines of the header.
-/
def Frames (size : Nat) (m_close : Bool) (startLine : List UInt8) (m_headers : MapType) : Prop :=
  if [] ∈ (split startLine).tail then
    FramedLines size m_close ((split startLine).tail.takeWhile notEmpty)
  else
    Unframed size ((split startLine).tail ++ headerLines m_headers)

def connectionLine (m_close : Bool) : List UInt8 :=
  Lines.header (bytes "connection") (if m_close then bytes "close" else bytes "keep-alive")

def lengthLines (m_body : List UInt8) : List (List UInt8) :=
  if m_body.isEmpty then [] else [Lines.header (bytes "content-length") (decimal m_body.length)]

section Text

theorem dumpHeaders_eq (os : List UInt8) (m_headers : MapType)
    : dumpHeaders os m_headers = os ++ (headerLines m_headers).flatMap (· ++ crlf) := by
  induction m_headers generalizing os with
  | nil => exact (List.append_nil os).symm
  | cons header m_headers ih =>
    have hcolon : bytes ": " = [58, 32] := by decide
    unfold dumpHeaders
    split
    . next h =>
      rw [ih]
      unfold headerLines
      rw [List.filter_cons_of_neg (by rw [h]; decide)]
    . next h =>
      rw [ih]
      unfold headerLines
      rw [List.filter_cons_of_pos (by rw [Bool.not_eq_true'] ; exact Bool.eq_false_iff.mpr h),
        List.map_cons, List.flatMap_cons, hcolon]
      unfold Lines.header
      simp only [List.append_assoc]

theorem dumpConnection_eq (os : List UInt8) (m_close : Bool)
    : dumpConnection os m_close = os ++ (connectionLine m_close ++ crlf) := by
  have hname : bytes "connection: " = bytes "connection" ++ [58, 32] := by decide
  unfold dumpConnection connectionLine Lines.header
  rw [hname]
  simp only [List.append_assoc]

theorem dumpBody_eq (os m_body : List UInt8)
    : dumpBody os m_body
        = os ++ ((lengthLines m_body).flatMap (· ++ crlf) ++ (crlf ++ m_body)) := by
  have hname : bytes "content-length: " = bytes "content-length" ++ [58, 32] := by decide
  unfold dumpBody lengthLines Lines.header
  cases m_body with
  | nil => simp
  | cons c m_body =>
    rw [hname]
    simp

theorem HttpRequest.dump_eq (req : HttpRequest) (m_close : Bool)
    : req.dump m_close
        = req.startLine ++ crlf
          ++ ((connectionLine m_close :: headerLines req.m_headers ++ lengthLines req.m_body).flatMap
                (· ++ crlf) ++ (crlf ++ req.m_body)) := by
  unfold HttpRequest.dump
  rw [dumpBody_eq, dumpHeaders_eq, dumpConnection_eq]
  simp only [List.append_assoc, List.flatMap_append, List.flatMap_cons, List.cons_append]

theorem HttpResponse.dump_eq (rsp : HttpResponse)
    : rsp.dump
        = rsp.startLine ++ crlf
          ++ ((headerLines rsp.m_headers ++ connectionLine rsp.m_close :: lengthLines rsp.m_body).flatMap
                (· ++ crlf) ++ (crlf ++ rsp.m_body)) := by
  unfold HttpResponse.dump
  rw [dumpBody_eq, dumpConnection_eq, dumpHeaders_eq]
  simp only [List.append_assoc, List.flatMap_append, List.flatMap_cons]

end Text

section Own

theorem colon_not_mem_connection : (58 : UInt8) ∉ bytes "connection" := by
  decide

theorem colon_not_mem_length : (58 : UInt8) ∉ bytes "content-length" := by
  decide

theorem named_connectionLine (m_close : Bool)
    : named (bytes "connection") (connectionLine m_close) = true
      ∧ named (bytes "content-length") (connectionLine m_close) = false := by
  unfold connectionLine
  rw [Lines.named_header _ _ colon_not_mem_connection,
    Lines.named_header _ _ colon_not_mem_connection]
  decide

theorem value_connectionLine (m_close : Bool)
    : value (connectionLine m_close) = if m_close then bytes "close" else bytes "keep-alive" := by
  unfold connectionLine
  rw [Lines.value_header _ colon_not_mem_connection]
  cases m_close <;> decide

theorem named_lengthLine (size : Nat)
    : named (bytes "connection") (Lines.header (bytes "content-length") (decimal size)) = false
      ∧ named (bytes "content-length") (Lines.header (bytes "content-length") (decimal size))
          = true := by
  rw [Lines.named_header _ _ colon_not_mem_length, Lines.named_header _ _ colon_not_mem_length]
  decide

theorem amount_lengthLine (size : Nat)
    : amount (value (Lines.header (bytes "content-length") (decimal size))) = some (size : Int) := by
  rw [Lines.value_header _ colon_not_mem_length, Lines.trim_decimal, Lines.amount_decimal]

theorem header_ne_nil (n v : List UInt8) : Lines.header n v ≠ [] := by
  unfold Lines.header
  simp

theorem plain_connectionLine (m_close : Bool) : cr ∉ connectionLine m_close := by
  cases m_close <;> decide

theorem plain_lengthLines (m_body : List UInt8) : ∀ line ∈ lengthLines m_body, cr ∉ line := by
  intro line hline
  unfold lengthLines at hline
  split at hline
  . cases hline
  . rw [List.mem_singleton] at hline
    subst hline
    unfold Lines.header
    rw [List.mem_append, not_or]
    constructor
    . decide
    . intro hmem
      exact absurd (Lines.mem_decimal hmem).1 (by decide)

theorem plain_headerLines {m_headers : MapType} (h : Plain m_headers)
    : ∀ line ∈ headerLines m_headers, cr ∉ line := by
  intro line hline
  unfold headerLines at hline
  obtain ⟨header, hheader, rfl⟩ := List.mem_map.mp hline
  obtain ⟨hkey, -, hvalue, -⟩ := h header (List.mem_filter.mp hheader).1
  unfold Lines.header
  rw [List.mem_append, List.mem_append, not_or, not_or]
  exact ⟨⟨hkey, by decide⟩, hvalue⟩

theorem headerLines_ne_nil (m_headers : MapType) : [] ∉ headerLines m_headers := by
  intro hmem
  unfold headerLines at hmem
  obtain ⟨header, -, heq⟩ := List.mem_map.mp hmem
  exact header_ne_nil _ _ heq

theorem lengthLines_ne_nil (m_body : List UInt8) : [] ∉ lengthLines m_body := by
  intro hmem
  unfold lengthLines at hmem
  split at hmem
  . cases hmem
  . rw [List.mem_singleton] at hmem
    exact header_ne_nil _ _ hmem.symm

end Own

section Framed

variable {size : Nat} {m_close : Bool}

theorem FramedLines.of_perm {lines lines' : List (List UInt8)} (hperm : lines.Perm lines')
    (h : FramedLines size m_close lines) : FramedLines size m_close lines' where
  connection := by
    obtain ⟨line, hline, hvalue⟩ := h.connection
    refine ⟨line, ?_, hvalue⟩
    have := hperm.filter (named (bytes "connection"))
    rw [hline] at this
    exact this.symm.eq_singleton
  length := by
    intro hsize
    obtain ⟨line, hline, hamount⟩ := h.length hsize
    refine ⟨line, ?_, hamount⟩
    have := hperm.filter (named (bytes "content-length"))
    rw [hline] at this
    exact this.symm.eq_singleton
  no_length := by
    intro hsize line hline
    exact h.no_length hsize line (hperm.mem_iff.mpr hline)

theorem filter_eq_nil_iff_forall {p : List UInt8 → Bool} {lines : List (List UInt8)}
    : lines.filter p = [] ↔ ∀ line ∈ lines, p line = false := by
  rw [List.filter_eq_nil_iff]
  simp only [Bool.not_eq_true]

theorem filter_connection (m_close : Bool) (m_body : List UInt8) (others : List (List UInt8))
    : (connectionLine m_close :: lengthLines m_body ++ others).filter (named (bytes "connection"))
        = connectionLine m_close :: others.filter (named (bytes "connection")) := by
  rw [List.cons_append, List.filter_cons_of_pos (named_connectionLine m_close).1,
    List.filter_append]
  unfold lengthLines
  split
  . rfl
  . rw [List.filter_cons_of_neg (Bool.eq_false_iff.mp (named_lengthLine _).1)]
    rfl

theorem filter_length (m_close : Bool) {m_body : List UInt8} (hbody : m_body ≠ [])
    (others : List (List UInt8))
    : (connectionLine m_close :: lengthLines m_body ++ others).filter (named (bytes "content-length"))
        = Lines.header (bytes "content-length") (decimal m_body.length)
          :: others.filter (named (bytes "content-length")) := by
  have hempty : m_body.isEmpty = false := List.isEmpty_eq_false_iff.mpr hbody
  rw [List.cons_append,
    List.filter_cons_of_neg (Bool.eq_false_iff.mp (named_connectionLine m_close).2),
    List.filter_append]
  unfold lengthLines
  rw [hempty, if_neg Bool.false_ne_true, List.filter_cons_of_pos (named_lengthLine _).2]
  rfl

theorem framedLines_own (m_body : List UInt8) (others : List (List UInt8))
    : FramedLines m_body.length m_close (connectionLine m_close :: lengthLines m_body ++ others)
        ↔ Unframed m_body.length others := by
  constructor
  . intro h
    constructor
    . obtain ⟨line, hline, -⟩ := h.connection
      rw [filter_connection] at hline
      injection hline with _ hothers
      exact filter_eq_nil_iff_forall.mp hothers
    . intro hsize
      obtain ⟨line, hline, -⟩ := h.length hsize
      rw [filter_length m_close (List.ne_nil_of_length_pos (Nat.pos_of_ne_zero hsize))] at hline
      injection hline with _ hothers
      exact filter_eq_nil_iff_forall.mp hothers
    . intro hsize line hline
      exact h.no_length hsize line (List.mem_append_right _ hline)
  . intro h
    constructor
    . refine ⟨connectionLine m_close, ?_, value_connectionLine m_close⟩
      rw [filter_connection, filter_eq_nil_iff_forall.mpr h.connection]
    . intro hsize
      refine ⟨_, ?_, amount_lengthLine m_body.length⟩
      rw [filter_length m_close (List.ne_nil_of_length_pos (Nat.pos_of_ne_zero hsize)),
        filter_eq_nil_iff_forall.mpr (h.length hsize)]
    . intro hsize line hline
      rw [List.length_eq_zero_iff] at hsize
      subst hsize
      rw [List.mem_append] at hline
      rcases hline with hline | hline
      . have heq : line = connectionLine m_close := List.mem_singleton.mp hline
        intro hnamed
        rw [heq, (named_connectionLine m_close).2] at hnamed
        cases hnamed
      . exact h.no_length rfl line hline

end Framed

section Dump

theorem framed_iff {m_headers : MapType} (hplain : Plain m_headers) (m_close : Bool)
    (m_body startLine : List UInt8) {lines : List (List UInt8)}
    (hperm : lines.Perm (connectionLine m_close :: lengthLines m_body ++ headerLines m_headers))
    : Framed m_body.length m_close
          (startLine ++ crlf ++ (lines.flatMap (· ++ crlf) ++ (crlf ++ m_body)))
        ↔ Frames m_body.length m_close startLine m_headers := by
  have hcr : ∀ line ∈ lines, cr ∉ line := by
    intro line hline
    rw [hperm.mem_iff, List.mem_append, List.mem_cons] at hline
    rcases hline with (rfl | hline) | hline
    . exact plain_connectionLine m_close
    . exact plain_lengthLines m_body line hline
    . exact plain_headerLines hplain line hline
  have hempty : [] ∉ lines := by
    rw [hperm.mem_iff, List.mem_append, List.mem_cons, not_or, not_or]
    exact ⟨⟨(header_ne_nil _ _).symm, lengthLines_ne_nil m_body⟩, headerLines_ne_nil m_headers⟩
  unfold Framed Frames
  rw [Lines.block_eq startLine hcr hempty]
  split
  . rfl
  . have hmove : ((split startLine).tail ++ lines).Perm
        (connectionLine m_close :: lengthLines m_body
          ++ ((split startLine).tail ++ headerLines m_headers)) := by
      apply (hperm.append_left _).trans
      rw [← List.append_assoc, ← List.append_assoc]
      exact List.perm_append_comm.append_right _
    rw [← framedLines_own]
    constructor
    . exact FramedLines.of_perm hmove
    . exact FramedLines.of_perm hmove.symm

theorem HttpRequest.dump_framed_iff (req : HttpRequest) (m_close : Bool) (h : Plain req.m_headers)
    : Framed req.m_body.length m_close (req.dump m_close)
        ↔ Frames req.m_body.length m_close req.startLine req.m_headers := by
  rw [HttpRequest.dump_eq]
  apply framed_iff h
  rw [List.cons_append, List.cons_append]
  exact List.perm_append_comm.cons _

theorem HttpResponse.dump_framed_iff (rsp : HttpResponse) (h : Plain rsp.m_headers)
    : Framed rsp.m_body.length rsp.m_close rsp.dump
        ↔ Frames rsp.m_body.length rsp.m_close rsp.startLine rsp.m_headers := by
  rw [HttpResponse.dump_eq]
  apply framed_iff h
  exact List.perm_append_comm

def plainRequest : HttpRequest :=
  { HttpRequest.new with m_headers := [(bytes "Host", bytes "a")] }

def copiedRequest : HttpRequest :=
  { HttpRequest.new with
    m_headers := [(bytes "Content-Length", bytes "7")]
    m_body := bytes "hello"
  }

def copiedResponse : HttpResponse :=
  { HttpResponse.new 0x11 true with
    m_headers := [(bytes "Content-Length", bytes "7")]
    m_body := bytes "hello"
  }

end Dump

end Http
end CXS
