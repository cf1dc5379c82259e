import Mathlib.Data.List.TakeWhile
import CXS.Util.PrefixFree
import CXS.Http.Simulation

namespace CXS
namespace Http

-- `strcmp(lhs, rhs) == 0`. Both strings end at their first `\0`.
def strcmp (lhs rhs : List UInt8) : Bool :=
  lhs.takeWhile (· != 0) == rhs.takeWhile (· != 0)

def stringToHttpMethod (method : List UInt8) : HttpMethod :=
  match httpMethodMap.find? (fun entry => strcmp (bytes entry.2) method) with
  | some entry => entry.1
  | none => .HTTP_INVALID_METHOD

namespace HttpRequestParser

def takeMethod (parser : HttpRequestParser) (m : HttpMethod) : HttpRequestParser :=
  if m = .HTTP_INVALID_METHOD then
    parser.setError 1000
  else
    { parser with m_data := { parser.m_data with m_method := m } }

theorem onRequestMethod_eq_takeMethod (parser : HttpRequestParser) (ptr : List UInt8)
    : parser.onRequestMethod ptr = parser.takeMethod (charsToHttpMethod ptr) := rfl

theorem takeMethod_injective {m m' : HttpMethod}
    (h : (new 0).takeMethod m = (new 0).takeMethod m') : m = m' := by
  unfold takeMethod at h
  split at h
  . next hm =>
    split at h
    . next hm' => rw [hm, hm']
    . cases congrArg m_error h
  . split at h
    . cases congrArg m_error h
    . exact congrArg (fun parser => parser.m_data.m_method) h

theorem onRequestMethod_eq_iff (ptr : List UInt8) (m : HttpMethod)
    : (∀ parser : HttpRequestParser, parser.onRequestMethod ptr = parser.takeMethod m)
      ↔ charsToHttpMethod ptr = m := by
  constructor
  . intro h
    apply takeMethod_injective
    rw [← onRequestMethod_eq_takeMethod]
    exact h (new 0)
  . intro h parser
    rw [onRequestMethod_eq_takeMethod, h]

end HttpRequestParser

section Table

def methodOf (entry : Option (HttpMethod × String)) : HttpMethod :=
  match entry with
  | some entry => entry.1
  | none => .HTTP_INVALID_METHOD

def nameOf (entry : HttpMethod × String) : List UInt8 :=
  bytes entry.2

theorem httpMethodMap_free : PrefixFree.Free httpMethodMap nameOf := by
  unfold PrefixFree.Free
  decide

theorem httpMethodMap_nul : ∀ entry ∈ httpMethodMap, 0 ∉ nameOf entry := by
  decide

theorem httpMethodMap_valid : ∀ entry ∈ httpMethodMap, entry.1 ≠ .HTTP_INVALID_METHOD := by
  decide

theorem httpMethodMap_unique : ∀ entry ∈ httpMethodMap, ∀ other ∈ httpMethodMap,
    entry.1 = other.1 → entry = other := by
  decide

theorem takeWhile_of_nul {text : List UInt8} (h : 0 ∉ text) : text.takeWhile (· != 0) = text := by
  rw [List.takeWhile_eq_self_iff]
  intro c hc
  rw [bne_iff_ne]
  intro hzero
  exact h (hzero ▸ hc)

theorem charsToHttpMethod_eq (ptr : List UInt8)
    : charsToHttpMethod ptr = methodOf (PrefixFree.byStart httpMethodMap nameOf ptr) := rfl

theorem stringToHttpMethod_eq {tok : List UInt8} (htok : 0 ∉ tok)
    : stringToHttpMethod tok = methodOf (PrefixFree.byName httpMethodMap nameOf tok) := by
  have hcmp : ∀ entry ∈ httpMethodMap, strcmp (bytes entry.2) tok = (nameOf entry == tok) := by
    intro entry hentry
    change strcmp (nameOf entry) tok = _
    unfold strcmp
    rw [takeWhile_of_nul (httpMethodMap_nul entry hentry), takeWhile_of_nul htok]
  unfold stringToHttpMethod PrefixFree.byName
  rw [List.find?_congr hcmp]
  rfl

theorem methodOf_inj {x y : Option (HttpMethod × String)} (hx : ∀ entry ∈ x, entry ∈ httpMethodMap)
    (hy : ∀ entry ∈ y, entry ∈ httpMethodMap) (h : methodOf x = methodOf y) : x = y := by
  cases x with
  | none =>
    cases y with
    | none => rfl
    | some other => exact absurd h.symm (httpMethodMap_valid other (hy other rfl))
  | some entry =>
    cases y with
    | none => exact absurd h (httpMethodMap_valid entry (hx entry rfl))
    | some other =>
      rw [httpMethodMap_unique entry (hx entry rfl) other (hy other rfl) h]

theorem charsToHttpMethod_eq_iff {tok : List UInt8} (htok : 0 ∉ tok) (rest : List UInt8)
    : charsToHttpMethod (tok ++ rest) = stringToHttpMethod tok
      ↔ ∀ entry ∈ httpMethodMap, nameOf entry <+: tok ++ rest → nameOf entry = tok := by
  rw [charsToHttpMethod_eq, stringToHttpMethod_eq htok,
    ← httpMethodMap_free.byStart_eq_byName_iff (List.prefix_append tok rest)]
  constructor
  . apply methodOf_inj
    . intro entry hentry
      exact (PrefixFree.byStart_eq_some hentry).1
    . intro entry hentry
      exact (PrefixFree.byName_eq_some hentry).1
  . intro h
    rw [h]

theorem msearch_split {tok tail : List UInt8} (h : bytes "M - SEARCH" = tok ++ 32 :: tail)
    : tok = bytes "M" ∧ tail = bytes "- SEARCH" ∨ tok = bytes "M -" ∧ tail = bytes "SEARCH" := by
  have hbytes : bytes "M - SEARCH" = 77 :: 32 :: 45 :: 32 :: bytes "SEARCH" := by decide
  rw [hbytes] at h
  rcases tok with _ | ⟨a, _ | ⟨b, _ | ⟨c, _ | ⟨d, tok⟩⟩⟩⟩
  . simp at h
  . left
    simp only [List.cons_append, List.nil_append, List.cons.injEq, true_and] at h
    rw [← h.1, ← h.2]
    decide
  . simp at h
  . right
    simp only [List.cons_append, List.nil_append, List.cons.injEq, true_and] at h
    rw [← h.1, ← h.2.1, ← h.2.2.1, ← h.2.2.2]
    decide
  . simp only [List.cons_append, List.cons.injEq] at h
    have hmem : 32 ∈ bytes "SEARCH" := by
      rw [h.2.2.2.2]
      simp
    exact absurd hmem (by decide)

theorem start_token_iff (tok rest : List UInt8)
    : (∀ entry ∈ httpMethodMap, nameOf entry <+: tok ++ 32 :: rest → nameOf entry = tok)
      ↔ (∀ entry ∈ httpMethodMap, nameOf entry <+: tok → nameOf entry = tok)
        ∧ ¬(tok = bytes "M" ∧ bytes "- SEARCH" <+: rest)
        ∧ ¬(tok = bytes "M -" ∧ bytes "SEARCH" <+: rest) := by
  have hmem : (.MSEARCH, "M - SEARCH") ∈ httpMethodMap := by decide
  constructor
  . intro h
    refine ⟨?_, ?_, ?_⟩
    . intro entry hentry hstart
      exact h entry hentry (hstart.trans (List.prefix_append tok (32 :: rest)))
    . rintro ⟨rfl, hrest⟩
      have hname : nameOf (.MSEARCH, "M - SEARCH") = bytes "M" ++ 32 :: bytes "- SEARCH" := by decide
      have hstart := h _ hmem (PrefixFree.start_append_cons.mpr (.inr ⟨_, hname, hrest⟩))
      exact absurd hstart (by decide)
    . rintro ⟨rfl, hrest⟩
      have hname : nameOf (.MSEARCH, "M - SEARCH") = bytes "M -" ++ 32 :: bytes "SEARCH" := by decide
      have hstart := h _ hmem (PrefixFree.start_append_cons.mpr (.inr ⟨_, hname, hrest⟩))
      exact absurd hstart (by decide)
  . rintro ⟨hshort, hM, hMdash⟩ entry hentry hstart
    rcases PrefixFree.start_append_cons.mp hstart with hstart | ⟨tail, hname, htail⟩
    . exact hshort entry hentry hstart
    . rcases httpMethodMap_space entry hentry with hspace | hmsearch
      . exfalso
        apply hspace
        change 32 ∈ nameOf entry
        rw [hname]
        simp
      . rcases msearch_split (hmsearch.symm.trans hname) with ⟨htok, rfl⟩ | ⟨htok, rfl⟩
        . exact absurd ⟨htok, htail⟩ hM
        . exact absurd ⟨htok, htail⟩ hMdash

end Table

/--
The callback takes a token for the method of that name and for nothing else if and only if no name of
the table is a proper part at its start and it is not the start of `M - SEARCH`.
-/
theorem onRequestMethod_eq_stringToHttpMethod_iff (tok rest : List UInt8) (htok : 0 ∉ tok)
    : (charsToHttpMethod (tok ++ 32 :: rest) = stringToHttpMethod tok
        ∧ ∀ parser : HttpRequestParser, parser.onRequestMethod (tok ++ 32 :: rest)
            = parser.takeMethod (stringToHttpMethod tok))
      ↔ (∀ entry ∈ httpMethodMap, bytes entry.2 <+: tok → bytes entry.2 = tok)
        ∧ ¬(tok = bytes "M" ∧ bytes "- SEARCH" <+: rest)
        ∧ ¬(tok = bytes "M -" ∧ bytes "SEARCH" <+: rest) := by
  rw [HttpRequestParser.onRequestMethod_eq_iff, and_self, charsToHttpMethod_eq_iff htok]
  exact start_token_iff tok rest

theorem onRequestMethod_get
    : charsToHttpMethod (bytes "GET" ++ 32 :: bytes "/ HTTP/1.1") = stringToHttpMethod (bytes "GET")
      ∧ ∀ parser : HttpRequestParser, parser.onRequestMethod (bytes "GET" ++ 32 :: bytes "/ HTTP/1.1")
          = parser.takeMethod (stringToHttpMethod (bytes "GET")) :=
  (onRequestMethod_eq_stringToHttpMethod_iff (bytes "GET") (bytes "/ HTTP/1.1") (by decide)).mpr
    (by decide)

-- `GETX` is no method, and the callback stores `GET` for it
theorem onRequestMethod_getx
    : ¬∀ tok rest : List UInt8, 0 ∉ tok
      → charsToHttpMethod (tok ++ 32 :: rest) = stringToHttpMethod tok
        ∧ ∀ parser : HttpRequestParser, parser.onRequestMethod (tok ++ 32 :: rest)
            = parser.takeMethod (stringToHttpMethod tok) := by
  intro h
  have hget := (h (bytes "GETX") (bytes "/ HTTP/1.1") (by decide)).1
  exact absurd hget (by decide)

end Http
end CXS
