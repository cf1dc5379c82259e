import Mathlib.Data.List.Chain
import CXS.Log.Formatter
import CXS.Log.Level

namespace CXS

structure LogEvent where
  m_file : String
  m_line : UInt64
  m_elapse : UInt32
  m_threadId : UInt32
  m_fiberId : UInt32
  m_time : UInt64
  m_ss : String
  m_logger : String
  m_threadName : String

def FormatItem.format (strftime : String → UInt64 → String) (level : LogLevel) (event : LogEvent)
    : FormatItem → String
  | .StringFormatItem str => str
  | .MessageFormatItem _ => event.m_ss
  | .NameFormatItem _ => event.m_logger
  | .LevelFormatItem _ => LogLevelToString level
  | .ElapseFormatItem _ => toString event.m_elapse
  | .ThreadIdFormatItem _ => toString event.m_threadId
  | .NewLineFormatItem _ => "\n"
  | .DateTimeFormatItem fmt =>
    strftime (if fmt.isEmpty then "%Y-%m-%d %H:%M:%S" else fmt) event.m_time
  | .FilenameFormatItem _ => event.m_file
  | .LineFormatItem _ => toString event.m_line.toUInt32
  | .TabFormatItem _ => "\t"
  | .FiberIdFormatItem _ => toString event.m_fiberId
  | .ThreadNameFormatItem _ => event.m_threadName

namespace LogFormatter

def format (f : LogFormatter) (strftime : String → UInt64 → String) (level : LogLevel)
    (event : LogEvent) : String :=
  f.m_item.foldl (fun ss i => ss ++ i.format strftime level event) ""

/--
What a pattern is put together from: texts, and directives with a known name that may have a format in
braces.
-/
inductive Piece where
  | literal (text : List Char) (hne : text ≠ [])
  | directive (name : List Char) (make : String → FormatItem)
      (hmake : s_format_items (String.ofList name) = some make) (fmt : Option (List Char))
      (hfmt : ∀ s ∈ fmt, '\x7d' ∉ s)

def escape (text : List Char) : List Char :=
  text.flatMap fun c => if c = '%' then ['%', '%'] else [c]

def braces : Option (List Char) → List Char
  | none => []
  | some fmt => '\x7b' :: fmt ++ ['\x7d']

namespace Piece

def pattern : Piece → List Char
  | literal text _ => escape text
  | directive name _ _ fmt _ => '%' :: name ++ braces fmt

def entry : Piece → Entry
  | literal text _ => ⟨String.ofList text, "", 0⟩
  | directive name _ _ fmt _ => ⟨String.ofList name, String.ofList (fmt.getD []), 1⟩

def item : Piece → FormatItem
  | literal text _ => .StringFormatItem (String.ofList text)
  | directive _ make _ fmt _ => make (String.ofList (fmt.getD []))

-- the pieces that can be told apart when one comes right after the other
def Follows : Piece → Piece → Prop
  | literal _ _, literal _ _ => False
  | directive _ _ _ none _, literal text _ =>
    ∀ c ∈ text.head?, c.isAlpha = false ∧ c ≠ '\x7b' ∧ c ≠ '\x7d'
  | _, _ => True

end Piece

def patternOf (ps : List Piece) : List Char :=
  ps.flatMap Piece.pattern

section Scan

variable {name fmt nstr text s : List Char} {make : String → FormatItem}

theorem scan_skip (nstr s t : List Char) : scan s.length nstr (s ++ t) = scan 0 nstr t := by
  induction s with
  | nil => rfl
  | cons c s ih =>
    rw [List.length_cons, List.cons_append, scan]
    exact ih

theorem scan_text (h : '%' ∉ text) (nstr s : List Char)
    : scan 0 nstr (text ++ s) = scan 0 (nstr ++ text) s := by
  induction text generalizing nstr with
  | nil => simp
  | cons c text ih =>
    have hc : (c != '%') = true := by
      rw [bne_iff_ne]
      rintro rfl
      exact h List.mem_cons_self
    rw [List.cons_append, scan]
    dsimp only
    rw [if_pos hc, ih (fun h' => h (List.mem_cons_of_mem _ h'))]
    simp

theorem scan_percents (k : Nat) (nstr s : List Char)
    : scan 0 nstr (List.replicate k '%' ++ '%' :: s)
        = scan 0 (nstr ++ List.replicate k '%') ('%' :: s) := by
  induction k generalizing nstr with
  | zero => simp
  | succ k ih =>
    have hhead : (List.replicate k '%' ++ '%' :: s).head? = some '%' := by
      cases k <;> rfl
    rw [List.replicate_succ, List.cons_append, scan]
    dsimp only
    rw [if_neg (by decide), if_pos (by rw [hhead]; rfl), ih]
    simp

theorem scan_directive (hs : s.head? ≠ some '%') (nstr : List Char)
    : scan 0 nstr ('%' :: s)
        = if (readDirective [] s).fmt_status then
            (⟨"<<pattern error>>", String.ofList (readDirective [] s).fmt, 0⟩ :: (scan 0 nstr s).1,
              true)
          else
            (literal nstr ++ ⟨String.ofList (readDirective [] s).str,
                String.ofList (readDirective [] s).fmt, 1⟩ :: (scan (readDirective [] s).n [] s).1,
              (scan (readDirective [] s).n [] s).2) := by
  rw [scan]
  dsimp only
  rw [if_neg (by decide), if_neg (by simpa using hs)]

theorem readFmt_closed (h : '\x7d' ∉ fmt) (str pre : List Char) (n : Nat) (s : List Char)
    : readFmt str n pre (fmt ++ '\x7d' :: s)
        = { str, fmt := pre ++ fmt, fmt_status := false, n := n + fmt.length + 1 } := by
  induction fmt generalizing n pre with
  | nil => simp [readFmt]
  | cons c fmt ih =>
    have hc : ¬(c == '\x7d') = true := by
      rw [beq_iff_eq]
      rintro rfl
      exact h List.mem_cons_self
    rw [List.cons_append, readFmt, if_neg hc, ih (fun h' => h (List.mem_cons_of_mem _ h'))]
    simp [Nat.add_assoc, Nat.add_comm 1]

theorem readDirective_name (h : ∀ c ∈ name, c.isAlpha = true) (str s : List Char)
    : readDirective str (name ++ s) = readDirective (str ++ name) s := by
  induction name generalizing str with
  | nil => simp
  | cons c name ih =>
    have hc := h c List.mem_cons_self
    have hbrace : ¬(c == '\x7b') = true := by
      rw [beq_iff_eq]
      rintro rfl
      exact absurd hc (by decide)
    rw [List.cons_append, readDirective, if_neg hbrace, if_pos (by simp [hc]),
      ih fun c hc => h c (List.mem_cons_of_mem _ hc)]
    simp

theorem readDirective_stop (h : ∀ c ∈ s.head?, c.isAlpha = false ∧ c ≠ '\x7b' ∧ c ≠ '\x7d')
    (str : List Char)
    : readDirective str s = { str, fmt := [], fmt_status := false, n := str.length } := by
  cases s with
  | nil => rfl
  | cons c s =>
    obtain ⟨halpha, hopen, hclose⟩ := h c rfl
    simp [readDirective, halpha, hopen, hclose]

theorem isAlpha_of_mem_name (hmake : s_format_items (String.ofList name) = some make)
    : ∀ c ∈ name, c.isAlpha = true := by
  have hname : ∀ str : String, String.ofList name = str → name = str.toList := by
    intro str h
    rw [← h, String.toList_ofList]
  unfold s_format_items at hmake
  split at hmake
  all_goals
    first
      | next h =>
        rw [hname _ h]
        exact List.all_eq_true.mp rfl
      | cases hmake

end Scan

section Pieces

variable {text nstr s : List Char} {ps : List Piece}

theorem escape_eq_self (h : '%' ∉ text) : escape text = text := by
  induction text with
  | nil => rfl
  | cons c text ih =>
    have hc : c ≠ '%' := by
      rintro rfl
      exact h List.mem_cons_self
    have htext := ih (fun h' => h (List.mem_cons_of_mem _ h'))
    unfold escape at htext ⊢
    rw [List.flatMap_cons, if_neg hc, htext]
    rfl

theorem escape_append (t u : List Char) : escape (t ++ u) = escape t ++ escape u := by
  unfold escape
  rw [List.flatMap_append]

theorem escape_percent (t : List Char) : escape ('%' :: t) = '%' :: '%' :: escape t := by
  unfold escape
  rw [List.flatMap_cons, if_pos rfl]
  rfl

theorem escape_replicate (k : Nat)
    : escape (List.replicate k '%') = List.replicate k '%' ++ List.replicate k '%' := by
  induction k with
  | zero => rfl
  | succ k ih =>
    have hcons : List.replicate k '%' ++ '%' :: List.replicate k '%'
        = '%' :: (List.replicate k '%' ++ List.replicate k '%') := by
      rw [List.append_cons, ← List.replicate_succ', List.replicate_succ, List.cons_append]
    rw [List.replicate_succ, escape_percent, ih, List.cons_append, hcons]

theorem head?_escape (hne : text ≠ []) (s : List Char)
    : (escape text ++ s).head? = text.head? := by
  cases text with
  | nil => exact absurd rfl hne
  | cons c text =>
    unfold escape
    rw [List.flatMap_cons]
    split
    . next h =>
      rw [h]
      rfl
    . rfl

@[simp]
theorem item_entry (p : Piece) : LogFormatter.item p.entry = (p.item, false) := by
  cases p with
  | literal => rfl
  | directive name make hmake fmt hfmt => simp [LogFormatter.item, Piece.entry, Piece.item, hmake]

theorem follows_head? {name : List Char} {make : String → FormatItem}
    {hmake : s_format_items (String.ofList name) = some make} {hfmt : ∀ s ∈ none, '\x7d' ∉ s}
    (h : (Piece.directive name make hmake none hfmt :: ps).IsChain Piece.Follows)
    : ∀ c ∈ (patternOf ps).head?, c.isAlpha = false ∧ c ≠ '\x7b' ∧ c ≠ '\x7d' := by
  cases ps with
  | nil => simp [patternOf]
  | cons q ps =>
    intro c hc
    unfold patternOf at hc
    rw [List.flatMap_cons] at hc
    cases q with
    | literal text hne =>
      rw [List.isChain_cons_cons] at h
      unfold Piece.pattern at hc
      rw [head?_escape hne] at hc
      exact h.1 c hc
    | directive =>
      obtain rfl : c = '%' := by simpa [Piece.pattern, eq_comm] using hc
      decide

theorem scan_piece {name : List Char} {make : String → FormatItem}
    {hmake : s_format_items (String.ofList name) = some make} {fmt : Option (List Char)}
    {hfmt : ∀ s ∈ fmt, '\x7d' ∉ s}
    (h : (Piece.directive name make hmake fmt hfmt :: ps).IsChain Piece.Follows)
    : scan 0 nstr ((Piece.directive name make hmake fmt hfmt).pattern ++ patternOf ps)
        = (literal nstr ++ (Piece.directive name make hmake fmt hfmt).entry
              :: (scan 0 [] (patternOf ps)).1,
            (scan 0 [] (patternOf ps)).2) := by
  have halpha := isAlpha_of_mem_name hmake
  have hread : readDirective [] (name ++ braces fmt ++ patternOf ps)
      = {
          str := name
          fmt := fmt.getD []
          fmt_status := false
          n := (name ++ braces fmt).length
        } := by
    cases fmt with
    | none =>
      rw [List.append_assoc, readDirective_name halpha]
      unfold braces
      rw [List.nil_append, List.nil_append, readDirective_stop (follows_head? h)]
      simp
    | some fmt =>
      rw [List.append_assoc, readDirective_name halpha]
      unfold braces
      rw [List.nil_append, List.append_assoc, List.cons_append, readDirective, if_pos (by rfl),
        List.singleton_append, readFmt_closed (hfmt fmt rfl)]
      simp
      omega
  have hhead : (name ++ braces fmt ++ patternOf ps).head? ≠ some '%' := by
    cases name with
    | nil => cases hmake
    | cons c name =>
      have hc := halpha c List.mem_cons_self
      intro heq
      injection heq with heq
      rw [heq] at hc
      exact absurd hc (by decide)
  unfold Piece.pattern Piece.entry
  dsimp only
  rw [List.cons_append, List.cons_append, scan_directive hhead, hread]
  dsimp only
  rw [if_neg (by decide), scan_skip]

theorem exists_run (c : Char) (s : List Char)
    : ∃ k w, s = List.replicate k c ++ w ∧ w.head? ≠ some c := by
  induction s with
  | nil => exact ⟨0, [], rfl, by simp⟩
  | cons d s ih =>
    by_cases hd : d = c
    . obtain ⟨k, w, hs, hw⟩ := ih
      refine ⟨k + 1, w, ?_, hw⟩
      rw [hs, hd]
      rfl
    . exact ⟨0, d :: s, rfl, by simpa using hd⟩

theorem not_scan_escaped (h : '%' ∈ text) (hs : s = [] ∨ s.head? = some '%') {es : List Entry}
    (hes : ∀ e ∈ es, (item e).2 = false)
    : ¬((scan 0 [] (escape text ++ s)).2 = false
        ∧ (scan 0 [] (escape text ++ s)).1.map item
            = item ⟨String.ofList text, "", 0⟩ :: es.map item) := by
  obtain ⟨u, t, rfl, hu⟩ := List.eq_append_cons_of_mem h
  obtain ⟨k, w, hw, hhead⟩ := exists_run '%' (escape t ++ s)
  have hscan : scan 0 [] (escape (u ++ '%' :: t) ++ s)
      = scan 0 (u ++ List.replicate (k + 1) '%') ('%' :: w) := by
    have hpattern : escape (u ++ '%' :: t) ++ s
        = u ++ (List.replicate (k + 1) '%' ++ '%' :: w) := by
      rw [escape_append, escape_eq_self hu, escape_percent, List.append_assoc, List.cons_append,
        List.cons_append, hw, List.append_cons (List.replicate (k + 1) '%'),
        ← List.replicate_succ', List.replicate_succ, List.replicate_succ, List.cons_append,
        List.cons_append]
    rw [hpattern, scan_text hu, List.nil_append, scan_percents]
  rw [hscan, scan_directive hhead]
  split
  . simp
  . rintro ⟨_, hmap⟩
    have hne : (u ++ List.replicate (k + 1) '%').isEmpty = false := by
      simp
    unfold literal at hmap
    rw [hne, if_neg (by decide), List.map_append, List.map_singleton, List.singleton_append,
      List.cons_eq_cons] at hmap
    obtain ⟨htext, hrest⟩ := hmap
    have ht : List.replicate k '%' = t := by
      simpa [item, List.replicate_succ, String.ofList_inj] using htext
    subst ht
    rw [escape_replicate, List.append_assoc, List.append_cancel_left_eq] at hw
    cases k with
    | succ k =>
      rw [← hw] at hhead
      exact hhead rfl
    | zero =>
      have hw : s = w := hw
      subst hw
      have hnil : s = [] := hs.resolve_right hhead
      subst hnil
      have hunknown : (item ⟨String.ofList (readDirective [] []).str,
          String.ofList (readDirective [] []).fmt, 1⟩).2 = true := rfl
      cases es with
      | nil => simp at hrest
      | cons e es =>
        rw [List.map_cons, List.map_cons, List.cons_eq_cons] at hrest
        rw [hrest.1, hes e List.mem_cons_self] at hunknown
        cases hunknown

theorem head?_ne_literal {hne : text ≠ []}
    (h : (Piece.literal text hne :: ps).IsChain Piece.Follows) (text' : List Char)
    (hne' : text' ≠ []) : ps.head? ≠ some (.literal text' hne') := by
  intro hhead
  obtain ⟨ps', rfl⟩ := List.head?_eq_some_iff.mp hhead
  rw [List.isChain_cons_cons] at h
  exact h.1

theorem patternOf_head? (h : ∀ text hne, ps.head? ≠ some (.literal text hne))
    : patternOf ps = [] ∨ (patternOf ps).head? = some '%' := by
  cases ps with
  | nil => exact .inl rfl
  | cons p ps =>
    cases p with
    | literal text hne => exact absurd rfl (h text hne)
    | directive => exact .inr rfl

theorem scan_pieces_iff (nstr : List Char) (hchain : ps.IsChain Piece.Follows)
    (hnstr : nstr = [] ∨ ∀ text hne, ps.head? ≠ some (.literal text hne))
    : (scan 0 nstr (patternOf ps)).2 = false
        ∧ (scan 0 nstr (patternOf ps)).1.map item = (literal nstr ++ ps.map Piece.entry).map item
      ↔ ∀ text hne, Piece.literal text hne ∈ ps → '%' ∉ text := by
  induction ps generalizing nstr with
  | nil => simp [patternOf, scan]
  | cons p ps ih =>
    have hcons : patternOf (p :: ps) = p.pattern ++ patternOf ps := rfl
    rw [hcons, List.map_cons]
    cases p with
    | directive name make hmake fmt hfmt =>
      have hih := ih [] hchain.tail (.inl rfl)
      rw [scan_piece hchain]
      simpa [literal] using hih
    | literal text hne =>
      have hnil : nstr = [] := hnstr.resolve_right (fun h => h text hne rfl)
      subst hnil
      have hps := head?_ne_literal hchain
      have hliteral : literal text = [(Piece.literal text hne).entry] := by
        simp [literal, hne, Piece.entry]
      by_cases htext : '%' ∈ text
      . have hes : ∀ e ∈ ps.map Piece.entry, (item e).2 = false := by
          simp
        constructor
        . intro h
          exact absurd h (not_scan_escaped htext (patternOf_head? hps) hes)
        . intro h
          exact absurd htext (h text hne List.mem_cons_self)
      . have hih := ih text hchain.tail (.inr hps)
        unfold Piece.pattern
        dsimp only
        rw [escape_eq_self htext, scan_text htext, List.nil_append]
        rw [hliteral, List.singleton_append] at hih
        refine hih.trans ⟨?_, ?_⟩
        . intro hplain text' hne' hmem
          rcases List.mem_cons.mp hmem with heq | hmem
          . injection heq with heq
            rw [heq]
            exact htext
          . exact hplain text' hne' hmem
        . intro hplain text' hne' hmem
          exact hplain text' hne' (List.mem_cons_of_mem _ hmem)

end Pieces

theorem new_eq_iff (pattern : String) (items : List FormatItem)
    : (new pattern).m_item = items ∧ (new pattern).isError = false
      ↔ (scan 0 [] pattern.toList).2 = false
        ∧ (scan 0 [] pattern.toList).1.map item = items.map fun i => (i, false) := by
  have hentries : ∀ es : List Entry,
      es.map item = items.map (fun i => (i, false))
        ↔ es.map (fun e => (item e).1) = items ∧ es.any (fun e => (item e).2) = false := by
    intro es
    induction es generalizing items with
    | nil => cases items <;> simp
    | cons e es ih =>
      cases items with
      | nil => simp
      | cons i items =>
        rw [List.map_cons, List.map_cons, List.map_cons, List.cons_eq_cons, List.cons_eq_cons,
          List.any_cons, Bool.or_eq_false_iff, ih, Prod.ext_iff]
        tauto
  rw [hentries]
  unfold new isError
  dsimp only
  rw [Bool.or_eq_false_iff]
  tauto

theorem new_pieces_iff (ps : List Piece) (h : ps.IsChain Piece.Follows)
    : ((new (String.ofList (patternOf ps))).m_item = ps.map Piece.item
        ∧ (new (String.ofList (patternOf ps))).isError = false
        ∧ ∀ text hne, ps = [.literal text hne] → ∀ strftime level event,
            (new (String.ofList (patternOf ps))).format strftime level event = String.ofList text)
      ↔ ∀ text hne, Piece.literal text hne ∈ ps → '%' ∉ text := by
  have hscan := scan_pieces_iff [] h (.inl rfl)
  have hnew := new_eq_iff (String.ofList (patternOf ps)) (ps.map Piece.item)
  have hitems : (literal [] ++ ps.map Piece.entry).map item
      = (ps.map Piece.item).map fun i => (i, false) := by
    simp [literal]
  rw [String.toList_ofList, ← hitems] at hnew
  rw [← hscan, ← hnew]
  constructor
  . rintro ⟨hitem, herror, _⟩
    exact ⟨hitem, herror⟩
  . rintro ⟨hitem, herror⟩
    refine ⟨hitem, herror, ?_⟩
    intro text hne hps strftime level event
    unfold format
    rw [hitem, hps]
    simp [Piece.item, FormatItem.format]

theorem new_pieces_iff_message
    : (new "a%m%d\x7b%H\x7d").m_item
        = [.StringFormatItem "a", .MessageFormatItem "", .DateTimeFormatItem "%H"]
      ∧ (new "a%m%d\x7b%H\x7d").isError = false := by
  have hpieces := (new_pieces_iff
    [.literal ['a'] (by decide), .directive ['m'] .MessageFormatItem rfl none (by simp),
      .directive ['d'] .DateTimeFormatItem rfl (some ['%', 'H']) (by simp)]
    (by simp [Piece.Follows])).mpr (by
      intro text hne hmem
      simp at hmem
      simp [hmem])
  exact ⟨hpieces.1, hpieces.2.1⟩

theorem percent_begins_directive
    : [Piece.literal ['%'] (by decide)].IsChain Piece.Follows
      ∧ patternOf [.literal ['%'] (by decide)] = "%%".toList
      ∧ (new "%%").m_item = [.StringFormatItem "%", .StringFormatItem "<<ERROR FORMAT %>>"]
      ∧ (new "%%").m_item ≠ [Piece.literal ['%'] (by decide)].map Piece.item
      ∧ (new "%%").isError = true :=
  ⟨by simp, by decide, by decide, by decide, by decide⟩

end LogFormatter
end CXS
