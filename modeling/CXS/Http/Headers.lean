import Mathlib.Data.List.Lex
import CXS.Http.Dump
import CXS.Util.Bytes
import CXS.Util.OrderedMap

/-!
This module contains the functions of `HttpRequest` and `HttpResponse` that read and write the header
map, and what a sequence of calls leaves in it. `CaseInsensitiveLess` orders the keys as C strings
without the case of their letters.

A `MapType *` or a `T &` that a function writes is its second result. `boost::lexical_cast` is an
argument that returns `none` where it throws.
-/

namespace CXS
namespace Http

def MapType.find (m : MapType) (key : List UInt8) : Option (List UInt8 × List UInt8) :=
  List.find? (fun entry => sameKey entry.1 key) m

def MapType.erase (m : MapType) (key : List UInt8) : MapType :=
  m.filter (fun entry => !sameKey entry.1 key)

-- `getAs` of `http/http.h`, and `checkGetAs`
def getAs {T : Type} (lexical_cast : List UInt8 → Option T) (m : MapType) (key : List UInt8)
    (default : T) : T :=
  match m.find key with
  | none => default
  | some entry => (lexical_cast entry.2).getD default

def checkGetAs {T : Type} (lexical_cast : List UInt8 → Option T) (m : MapType) (key : List UInt8)
    (default : T) : Bool × T :=
  match m.find key with
  | none => (false, default)
  | some entry =>
    match lexical_cast entry.2 with
    | some n => (true, n)
    | none => (false, default)

namespace HttpRequest

def getHeaders (req : HttpRequest) (key default : List UInt8) : List UInt8 :=
  match req.m_headers.find key with
  | none => default
  | some entry => entry.2

def delHeader (req : HttpRequest) (key : List UInt8) : HttpRequest :=
  { req with m_headers := req.m_headers.erase key }

def hasHeader (req : HttpRequest) (key val : List UInt8) : Bool × List UInt8 :=
  match req.m_headers.find key with
  | none => (false, val)
  | some entry => (true, entry.2)

def setHeaders (req : HttpRequest) (v : MapType) : HttpRequest :=
  { req with m_headers := v }

def checkGetHeaderAs {T : Type} (req : HttpRequest) (lexical_cast : List UInt8 → Option T)
    (key : List UInt8) (default : T) : Bool × T :=
  checkGetAs lexical_cast req.m_headers key default

end HttpRequest

namespace HttpResponse

def getHeader (rsp : HttpResponse) (key default : List UInt8) : List UInt8 :=
  match rsp.m_headers.find key with
  | none => default
  | some entry => entry.2

def delHeader (rsp : HttpResponse) (key : List UInt8) : HttpResponse :=
  { rsp with m_headers := rsp.m_headers.erase key }

def setHeaders (rsp : HttpResponse) (headers : MapType) : HttpResponse :=
  { rsp with m_headers := headers }

def getHeaderAs {T : Type} (rsp : HttpResponse) (lexical_cast : List UInt8 → Option T)
    (key : List UInt8) (default : T) : T :=
  getAs lexical_cast rsp.m_headers key default

end HttpResponse

theorem HttpRequest.getHeaderAs_eq (req : HttpRequest) (lexical_cast : List UInt8 → Option Nat)
    (key : List UInt8) (default : Nat)
    : req.getHeaderAs lexical_cast key default = getAs lexical_cast req.m_headers key default := by
  unfold HttpRequest.getHeaderAs getAs
  change (match req.m_headers.find key with
    | none => default
    | some entry => _) = _
  cases req.m_headers.find key with
  | none => rfl
  | some entry =>
    dsimp only
    cases lexical_cast entry.2 <;> rfl

section Keys

def caseless (key : List UInt8) : List Nat :=
  (key.takeWhile (· != 0)).map (fun c => (tolower c).toNat)

theorem tolower_eq_zero_iff : ∀ c : UInt8, tolower c = 0 ↔ c = 0 := by
  apply forall_byte
  decide +kernel

theorem caseless_nil : caseless [] = [] := rfl

theorem caseless_zero (key : List UInt8) : caseless (0 :: key) = [] := rfl

theorem caseless_cons {c : UInt8} (h : c ≠ 0) (key : List UInt8)
    : caseless (c :: key) = (tolower c).toNat :: caseless key := by
  unfold caseless
  rw [List.takeWhile_cons, if_pos (by rw [bne_iff_ne]; exact h), List.map_cons]

theorem strcaseless_iff (lhs rhs : List UInt8)
    : strcaseless lhs rhs = true ↔ caseless lhs < caseless rhs := by
  fun_induction strcaseless lhs rhs with
  | case1 => simp [caseless_nil]
  | case2 d rhs =>
    rw [caseless_nil, bne_iff_ne]
    by_cases hd : d = 0
    . rw [hd, caseless_zero]
      simp
    . rw [caseless_cons hd]
      simp [hd]
  | case3 c lhs => simp [caseless_nil]
  | case4 c lhs d rhs heq ih =>
    rw [Bool.and_eq_true, bne_iff_ne, ih]
    by_cases hc : c = 0
    . have hd : d = 0 := by
        rw [← tolower_eq_zero_iff, ← heq, tolower_eq_zero_iff]
        exact hc
      rw [hc, hd, caseless_zero, caseless_zero]
      simp
    . have hd : d ≠ 0 := by
        rw [Ne, ← tolower_eq_zero_iff, ← heq, tolower_eq_zero_iff]
        exact hc
      rw [caseless_cons hc, caseless_cons hd, List.cons_lt_cons_iff, heq]
      simp [hc]
  | case5 c lhs d rhs hne =>
    rw [decide_eq_true_eq, UInt8.lt_iff_toNat_lt]
    by_cases hc : c = 0
    . have hd : d ≠ 0 := by
        intro hd
        exact hne (by rw [hc, hd])
      have hpos : (tolower d).toNat ≠ 0 := by
        intro hzero
        exact hd ((tolower_eq_zero_iff d).mp (UInt8.toNat_inj.mp hzero))
      have hzero : tolower 0 = 0 := rfl
      rw [hc, caseless_zero, caseless_cons hd, hzero, UInt8.toNat_zero]
      simp [Nat.pos_of_ne_zero hpos]
    . by_cases hd : d = 0
      . have hzero : tolower 0 = 0 := rfl
        rw [hd, caseless_zero, hzero, UInt8.toNat_zero]
        simp
      . have htoNat : (tolower c).toNat ≠ (tolower d).toNat := by
          intro heq
          exact hne (UInt8.toNat_inj.mp heq)
        rw [caseless_cons hc, caseless_cons hd, List.cons_lt_cons_iff]
        simp [htoNat]

theorem sameKey_iff (lhs rhs : List UInt8) : sameKey lhs rhs = true ↔ caseless lhs = caseless rhs :=
  OrderedMap.same_iff strcaseless_iff lhs rhs

end Keys

namespace MapType

def Sorted (m : MapType) : Prop :=
  OrderedMap.Sorted caseless m

instance (m : MapType) : Decidable m.Sorted :=
  inferInstanceAs (Decidable (List.Pairwise _ m))

theorem set_eq (m : MapType) (key value : List UInt8)
    : m.set key value = OrderedMap.set strcaseless m key value := by
  induction m with
  | nil => rfl
  | cons entry m ih =>
    unfold MapType.set OrderedMap.set
    rw [ih]

theorem find_eq (m : MapType) (key : List UInt8)
    : m.find key = OrderedMap.view caseless m (caseless key) :=
  OrderedMap.find_eq_view strcaseless_iff m key

theorem Sorted.set {m : MapType} (h : m.Sorted) (key value : List UInt8)
    : (m.set key value).Sorted := by
  rw [set_eq]
  exact OrderedMap.Sorted.set strcaseless_iff h key value

theorem Sorted.erase {m : MapType} (h : m.Sorted) (key : List UInt8) : (m.erase key).Sorted :=
  OrderedMap.Sorted.erase h key

theorem find_set {m : MapType} (h : m.Sorted) (key value other : List UInt8)
    : (m.set key value).find other
        = if sameKey other key then some (((m.find key).map Prod.fst).getD key, value)
          else m.find other := by
  rw [set_eq]
  exact OrderedMap.find_set strcaseless_iff h key value other

theorem find_erase (m : MapType) (key other : List UInt8)
    : (m.erase key).find other = if sameKey other key then none else m.find other :=
  OrderedMap.find_erase strcaseless_iff m key other

end MapType

inductive HeaderCall where
  | setHeader (key value : List UInt8)
  | delHeader (key : List UInt8)
  | setHeaders (v : { m : MapType // m.Sorted })

namespace HeaderCall

def onRequest (req : HttpRequest) : HeaderCall → HttpRequest
  | .setHeader key value => req.setHeader key value
  | .delHeader key => req.delHeader key
  | .setHeaders v => req.setHeaders v.val

def onResponse (rsp : HttpResponse) : HeaderCall → HttpResponse
  | .setHeader key value => rsp.setHeader key value
  | .delHeader key => rsp.delHeader key
  | .setHeaders v => rsp.setHeaders v.val

def onMap (m : MapType) : HeaderCall → MapType
  | .setHeader key value => m.set key value
  | .delHeader key => m.erase key
  | .setHeaders v => v.val

/--
The entry that a sequence of calls leaves for a key, where the last call is the first of the list. The
value is that of the last call that set the key and the spelling that of the first one after the key
was gone.
-/
def latest (key : List UInt8) : List HeaderCall → Option (List UInt8 × List UInt8)
  | [] => none
  | .setHeader k v :: calls =>
    if sameKey key k then
      some (((latest key calls).map Prod.fst).getD k, v)
    else
      latest key calls
  | .delHeader k :: calls => if sameKey key k then none else latest key calls
  | .setHeaders v :: _ => v.val.find key

theorem latest_congr {key other : List UInt8} (h : caseless key = caseless other)
    (calls : List HeaderCall) : latest key calls = latest other calls := by
  have hsame : ∀ k, sameKey key k = sameKey other k := by
    intro k
    rw [Bool.eq_iff_iff, sameKey_iff, sameKey_iff, h]
  induction calls with
  | nil => rfl
  | cons call calls ih =>
    cases call with
    | setHeader k v => rw [latest, latest, ih, hsame k]
    | delHeader k => rw [latest, latest, ih, hsame k]
    | setHeaders v => rw [latest, latest, MapType.find_eq, MapType.find_eq, h]

theorem onMap_sorted {m : MapType} (h : m.Sorted) (call : HeaderCall) : (call.onMap m).Sorted := by
  cases call with
  | setHeader key value => exact h.set key value
  | delHeader key => exact h.erase key
  | setHeaders v => exact v.property

theorem run_sorted (calls : List HeaderCall)
    : MapType.Sorted (calls.foldr (fun call m => call.onMap m) []) := by
  induction calls with
  | nil => exact .nil
  | cons call calls ih => exact onMap_sorted ih call

theorem find_run (calls : List HeaderCall) (key : List UInt8)
    : MapType.find (calls.foldr (fun call m => call.onMap m) []) key = latest key calls := by
  induction calls generalizing key with
  | nil => rfl
  | cons call calls ih =>
    rw [List.foldr_cons]
    cases call with
    | setHeader k v =>
      rw [latest, onMap, MapType.find_set (run_sorted calls), ih, ih]
      split
      . next h => rw [latest_congr ((sameKey_iff key k).mp h)]
      . rfl
    | delHeader k => rw [latest, onMap, MapType.find_erase, ih]
    | setHeaders v => rfl

end HeaderCall

section Run

def HttpRequest.run (req : HttpRequest) (calls : List HeaderCall) : HttpRequest :=
  calls.foldl HeaderCall.onRequest req

def HttpResponse.run (rsp : HttpResponse) (calls : List HeaderCall) : HttpResponse :=
  calls.foldl HeaderCall.onResponse rsp

theorem HttpRequest.run_m_headers (req : HttpRequest) (calls : List HeaderCall)
    : (req.run calls).m_headers = calls.foldl HeaderCall.onMap req.m_headers := by
  induction calls generalizing req with
  | nil => rfl
  | cons call calls ih =>
    change ((call.onRequest req).run calls).m_headers = _
    rw [ih, List.foldl_cons]
    cases call <;> rfl

theorem HttpResponse.run_m_headers (rsp : HttpResponse) (calls : List HeaderCall)
    : (rsp.run calls).m_headers = calls.foldl HeaderCall.onMap rsp.m_headers := by
  induction calls generalizing rsp with
  | nil => rfl
  | cons call calls ih =>
    change ((call.onResponse rsp).run calls).m_headers = _
    rw [ih, List.foldl_cons]
    cases call <;> rfl

theorem foldl_onMap_spec (calls : List HeaderCall)
    : MapType.Sorted (calls.foldl HeaderCall.onMap [])
      ∧ ∀ key, MapType.find (calls.foldl HeaderCall.onMap []) key
          = HeaderCall.latest key calls.reverse := by
  have hfold : calls.foldl HeaderCall.onMap []
      = calls.reverse.foldr (fun call m => call.onMap m) [] := by
    rw [List.foldr_reverse]
  rw [hfold]
  exact ⟨HeaderCall.run_sorted calls.reverse, HeaderCall.find_run calls.reverse⟩

theorem MapType.Sorted.mem_iff {m : MapType} (h : m.Sorted) (entry : List UInt8 × List UInt8)
    : entry ∈ m ↔ m.find entry.1 = some entry := by
  rw [OrderedMap.mem_iff_view h, MapType.find_eq]

/--
What the functions of a request say about a key, and the entries that `dump` goes through.
-/
structure HttpRequest.Has (req : HttpRequest) (entries : List UInt8 → Option (List UInt8 × List UInt8))
    : Prop where
  getHeaders : ∀ key default, req.getHeaders key default = ((entries key).map Prod.snd).getD default
  hasHeader : ∀ key val,
    req.hasHeader key val = ((entries key).isSome, ((entries key).map Prod.snd).getD val)
  getHeaderAs : ∀ lexical_cast key default, req.getHeaderAs lexical_cast key default
    = ((entries key).bind fun entry => lexical_cast entry.2).getD default
  checkGetHeaderAs : ∀ {T : Type} (lexical_cast : List UInt8 → Option T) (key : List UInt8)
    (default : T), req.checkGetHeaderAs lexical_cast key default
      = (((entries key).bind fun entry => lexical_cast entry.2).isSome,
        ((entries key).bind fun entry => lexical_cast entry.2).getD default)
  m_headers : ∀ entry, entry ∈ req.m_headers ↔ entries entry.1 = some entry
  sorted : req.m_headers.Sorted

structure HttpResponse.Has (rsp : HttpResponse)
    (entries : List UInt8 → Option (List UInt8 × List UInt8)) : Prop where
  getHeader : ∀ key default, rsp.getHeader key default = ((entries key).map Prod.snd).getD default
  getHeaderAs : ∀ {T : Type} (lexical_cast : List UInt8 → Option T) (key : List UInt8) (default : T),
    rsp.getHeaderAs lexical_cast key default
      = ((entries key).bind fun entry => lexical_cast entry.2).getD default
  m_headers : ∀ entry, entry ∈ rsp.m_headers ↔ entries entry.1 = some entry
  sorted : rsp.m_headers.Sorted

theorem HttpRequest.has_of_find {req : HttpRequest} (h : req.m_headers.Sorted)
    {entries : List UInt8 → Option (List UInt8 × List UInt8)}
    (hfind : ∀ key, req.m_headers.find key = entries key) : req.Has entries := by
  constructor
  . intro key default
    unfold HttpRequest.getHeaders
    rw [hfind]
    cases entries key <;> rfl
  . intro key val
    unfold HttpRequest.hasHeader
    rw [hfind]
    cases entries key <;> rfl
  . intro lexical_cast key default
    rw [HttpRequest.getHeaderAs_eq]
    unfold Http.getAs
    rw [hfind]
    cases entries key <;> rfl
  . intro T lexical_cast key default
    unfold HttpRequest.checkGetHeaderAs Http.checkGetAs
    rw [hfind]
    cases entries key with
    | none => rfl
    | some entry =>
      dsimp only [Option.bind_some]
      cases lexical_cast entry.2 <;> rfl
  . intro entry
    rw [h.mem_iff, hfind]
  . exact h

theorem HttpResponse.has_of_find {rsp : HttpResponse} (h : rsp.m_headers.Sorted)
    {entries : List UInt8 → Option (List UInt8 × List UInt8)}
    (hfind : ∀ key, rsp.m_headers.find key = entries key) : rsp.Has entries := by
  constructor
  . intro key default
    unfold HttpResponse.getHeader
    rw [hfind]
    cases entries key <;> rfl
  . intro T lexical_cast key default
    unfold HttpResponse.getHeaderAs Http.getAs
    rw [hfind]
    cases entries key with
    | none => rfl
    | some entry => rfl
  . intro entry
    rw [h.mem_iff, hfind]
  . exact h

/--
After any calls on a new message, its functions say of a key what the calls say that came last, and
`dump` goes through exactly these entries in the order of their keys.
-/
theorem run_has_latest (calls : List HeaderCall) (version : UInt8) (close : Bool)
    : (HttpRequest.new.run calls).Has (fun key => HeaderCall.latest key calls.reverse)
      ∧ ((HttpResponse.new version close).run calls).Has
          (fun key => HeaderCall.latest key calls.reverse) := by
  obtain ⟨hsorted, hfind⟩ := foldl_onMap_spec calls
  constructor
  . apply HttpRequest.has_of_find
    . rw [HttpRequest.run_m_headers]
      exact hsorted
    . rw [HttpRequest.run_m_headers]
      exact hfind
  . apply HttpResponse.has_of_find
    . rw [HttpResponse.run_m_headers]
      exact hsorted
    . rw [HttpResponse.run_m_headers]
      exact hfind

end Run

end Http
end CXS
