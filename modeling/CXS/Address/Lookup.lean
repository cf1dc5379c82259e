import Mathlib.Data.List.Basic

/-!
This module contains how `Address::Lookup` from `code/address.cc` takes its host apart.

A pointer into `host.c_str()` is the place it points to. `getaddrinfo` gets strings that end with the
first null character.
-/

namespace CXS
namespace Address

-- where the first `c` of the first `n` characters is
def memchr (s : List Char) (c : Char) (n : Nat) : Option Nat :=
  (s.take n).findIdx? (· == c)

def c_str (s : List Char) : List Char :=
  s.takeWhile (· != Char.ofNat 0)

-- the branch for `[address]:service`
def bracketed (host : List Char) : List Char × Option Nat :=
  if host.head? = some '[' then
    match memchr host ']' (host.length - 1) with
    | none => ([], none)
    | some endipv6 =>
      let service := if host[endipv6 + 1]? = some ':' then some (endipv6 + 2) else none
      ((host.drop 1).take (endipv6 - 1), service)
  else
    ([], none)

-- the branch for `address:service`
def colonSeparated (host : List Char) : List Char × Option Nat :=
  match memchr host ':' host.length with
  | none => ([], none)
  | some service =>
    match memchr (host.drop (service + 1)) ':' (host.length - service - 1) with
    | some _ => ([], some service)
    | none => (host.take service, some (service + 1))

def nodeAndService (host : List Char) : List Char × Option Nat :=
  let (node, service) := bracketed host
  let (node, service) := if node.isEmpty then colonSeparated host else (node, service)
  (if node.isEmpty then host else node, service)

-- the first two arguments of `getaddrinfo`
def lookupArgs (host : List Char) : List Char × Option (List Char) :=
  let (node, service) := nodeAndService host
  (c_str node, service.map (fun service => c_str (host.drop service)))

structure Addrinfo where
  ai_family : Int
  ai_socktype : Int
  ai_protocol : Int
  deriving DecidableEq, Repr

def appendResults {A B : Type} (Create : A → B) (result : List B) : Except Int (List A) → List B × Bool
  | .error _ => (result, false)
  | .ok results => (result ++ results.map Create, true)

def Lookup {A B : Type} (getaddrinfo : List Char → Option (List Char) → Addrinfo → Except Int (List A))
    (Create : A → B) (result : List B) (host : List Char) (family type protocol : Int)
    : List B × Bool :=
  let hints : Addrinfo := { ai_family := family, ai_socktype := type, ai_protocol := protocol }
  let (node, service) := lookupArgs host
  appendResults Create result (getaddrinfo node service hints)

section Memchr

variable {s t : List Char} {c : Char} {n : Nat}

theorem memchr_eq_none (h : c ∉ s) : memchr s c n = none := by
  unfold memchr
  rw [List.findIdx?_eq_none_iff]
  intro x hx
  rw [beq_eq_false_iff_ne]
  intro heq
  apply h
  rw [← heq]
  exact List.mem_of_mem_take hx

theorem memchr_eq_some (h : c ∉ s) (hn : s.length < n) : memchr (s ++ c :: t) c n = some s.length := by
  have htake : (s ++ c :: t).take n = s ++ c :: t.take (n - s.length - 1) := by
    rw [List.take_append, List.take_of_length_le (by omega),
      show n - s.length = n - s.length - 1 + 1 by omega, List.take_succ_cons]
    rfl
  unfold memchr
  rw [htake, List.findIdx?_append, List.findIdx?_eq_none_iff.mpr]
  . simp [List.findIdx?_cons]
  . intro x hx
    rw [beq_eq_false_iff_ne]
    intro heq
    rw [heq] at hx
    exact h hx

end Memchr

/--
What a host string stands for: `[address]`, `[address]:service`, `address:service` or an address
alone.
-/
inductive Denotes : List Char → List Char → Option (List Char) → Prop where
  | bracketed {X : List Char} (hne : X ≠ []) (hclose : ']' ∉ X) : Denotes ('[' :: X ++ [']']) X none
  | bracketedService {X S : List Char} (hne : X ≠ []) (hclose : ']' ∉ X)
    : Denotes ('[' :: X ++ ']' :: ':' :: S) X (some S)
  | service {A S : List Char} (hne : A ≠ []) (hopen : A.head? ≠ some '[') (hA : ':' ∉ A)
      (hS : ':' ∉ S) : Denotes (A ++ ':' :: S) A (some S)
  | address {host : List Char} (hopen : host.head? ≠ some '[')
      (hother : ∀ A S, A ≠ [] → ':' ∉ A → ':' ∉ S → host ≠ A ++ ':' :: S) : Denotes host host none

section Host

variable {host A S X : List Char}

theorem bracketed_eq_nil (hopen : host.head? ≠ some '[') : bracketed host = ([], none) := by
  unfold bracketed
  rw [if_neg hopen]

theorem bracketed_closed (hclose : ']' ∉ X) : bracketed ('[' :: X ++ [']']) = ([], none) := by
  have hmemchr : memchr ('[' :: X ++ [']']) ']' (('[' :: X ++ [']']).length - 1) = none := by
    unfold memchr
    rw [List.length_append, List.length_singleton, Nat.add_sub_cancel, List.take_left,
      List.findIdx?_eq_none_iff]
    intro x hx
    rw [beq_eq_false_iff_ne]
    rintro rfl
    simp [hclose] at hx
  unfold bracketed
  rw [if_pos (by simp), hmemchr]

theorem bracketed_service (hclose : ']' ∉ X)
    : bracketed ('[' :: X ++ ']' :: ':' :: S) = (X, some (X.length + 3)) := by
  have hmemchr : memchr ('[' :: X ++ ']' :: ':' :: S) ']'
      (('[' :: X ++ ']' :: ':' :: S).length - 1) = some (X.length + 1) := by
    rw [memchr_eq_some]
    . rfl
    . simp [hclose]
    . simp
  have hcolon : ('[' :: X ++ ']' :: ':' :: S)[X.length + 1 + 1]? = some ':' := by
    rw [List.getElem?_append_right (by simp)]
    simp
  unfold bracketed
  rw [if_pos (by simp), hmemchr]
  simp only [hcolon, if_true]
  simp

theorem colonSeparated_none (h : ':' ∉ host) : colonSeparated host = ([], none) := by
  unfold colonSeparated
  rw [memchr_eq_none h]

theorem colonSeparated_one (hA : ':' ∉ A) (hS : ':' ∉ S)
    : colonSeparated (A ++ ':' :: S) = (A, some (A.length + 1)) := by
  unfold colonSeparated
  rw [memchr_eq_some hA (by simp)]
  dsimp only
  rw [show (A ++ ':' :: S).drop (A.length + 1) = S by simp, memchr_eq_none hS]
  simp

theorem colonSeparated_several (hA : ':' ∉ A) (hS : ':' ∈ S)
    : colonSeparated (A ++ ':' :: S) = ([], some A.length) := by
  obtain ⟨B, T, rfl, hB⟩ := List.eq_append_cons_of_mem hS
  unfold colonSeparated
  rw [memchr_eq_some hA (by simp)]
  dsimp only
  rw [show (A ++ ':' :: (B ++ ':' :: T)).drop (A.length + 1) = B ++ ':' :: T by simp,
    memchr_eq_some hB (by simp)]

theorem lookupArgs_none (hbracketed : bracketed host = ([], none)) (h : ':' ∉ host)
    : lookupArgs host = (c_str host, none) := by
  unfold lookupArgs nodeAndService
  simp [hbracketed, colonSeparated_none h]

theorem lookupArgs_some (hbracketed : bracketed host = ([], none)) (h : ':' ∈ host)
    : ∃ service, (lookupArgs host).2 = some service := by
  obtain ⟨A, S, rfl, hA⟩ := List.eq_append_cons_of_mem h
  unfold lookupArgs nodeAndService
  rw [hbracketed]
  by_cases hS : ':' ∈ S
  . simp [colonSeparated_several hA hS]
  . simp [colonSeparated_one hA hS]

theorem lookupArgs_one (hne : A ≠ []) (hopen : A.head? ≠ some '[') (hA : ':' ∉ A) (hS : ':' ∉ S)
    : lookupArgs (A ++ ':' :: S) = (c_str A, some (c_str S)) := by
  have hhead : (A ++ ':' :: S).head? ≠ some '[' := by
    cases A with
    | nil => exact absurd rfl hne
    | cons a A => exact hopen
  unfold lookupArgs nodeAndService
  rw [bracketed_eq_nil hhead]
  simp [colonSeparated_one hA hS, hne]

theorem lookupArgs_bracketedService (hne : X ≠ []) (hclose : ']' ∉ X)
    : lookupArgs ('[' :: X ++ ']' :: ':' :: S) = (c_str X, some (c_str S)) := by
  unfold lookupArgs nodeAndService
  rw [bracketed_service hclose]
  simp [hne]

theorem c_str_closed_ne (X : List Char) : c_str ('[' :: X ++ [']']) ≠ c_str X := by
  have hcons : c_str ('[' :: X ++ [']']) = '[' :: c_str (X ++ [']']) := rfl
  have hle : (c_str X).length ≤ (c_str (X ++ [']'])).length := by
    unfold c_str
    rw [List.takeWhile_append]
    split
    . rw [List.length_append]
      have := (List.takeWhile_prefix (p := (· != Char.ofNat 0)) (l := X)).length_le
      omega
    . exact Nat.le_refl _
  intro heq
  rw [hcons] at heq
  have hlen := congrArg List.length heq
  rw [List.length_cons] at hlen
  omega

end Host

-- no address in brackets without a service, and outside of brackets no colon but that of a service
structure Parses (host : List Char) : Prop where
  not_closed : ∀ X, X ≠ [] → ']' ∉ X → host ≠ '[' :: X ++ [']']
  colon : host.head? ≠ some '['
    → host.count ':' = 0 ∨ host.count ':' = 1 ∧ host.head? ≠ some ':'

theorem lookupArgs_iff (host : List Char)
    : (∀ node service, Denotes host node service
        → lookupArgs host = (c_str node, service.map c_str))
      ↔ Parses host := by
  constructor
  . intro h
    constructor
    . intro X hne hclose heq
      subst heq
      have hargs := h X none (.bracketed hne hclose)
      by_cases hcolon : ':' ∈ '[' :: X ++ [']']
      . obtain ⟨service, hservice⟩ := lookupArgs_some (bracketed_closed hclose) hcolon
        rw [hargs] at hservice
        cases hservice
      . rw [lookupArgs_none (bracketed_closed hclose) hcolon, Prod.mk.injEq] at hargs
        exact c_str_closed_ne X hargs.1
    . intro hopen
      by_cases hcolon : ':' ∈ host
      . right
        have hnot : ¬Denotes host host none := by
          intro hdenotes
          obtain ⟨service, hservice⟩ := lookupArgs_some (bracketed_eq_nil hopen) hcolon
          rw [h host none hdenotes] at hservice
          cases hservice
        by_contra hcontra
        apply hnot
        apply Denotes.address hopen
        intro A S hne hA hS heq
        apply hcontra
        rw [heq]
        constructor
        . rw [List.count_append, List.count_eq_zero.mpr hA, List.count_cons_self,
            List.count_eq_zero.mpr hS]
        . cases A with
          | nil => exact absurd rfl hne
          | cons a A =>
            rw [List.cons_append, List.head?_cons]
            intro ha
            injection ha with ha
            apply hA
            rw [ha]
            exact List.mem_cons_self
      . exact .inl (List.count_eq_zero.mpr hcolon)
  . intro h node service hdenotes
    cases hdenotes with
    | bracketed hne hclose => exact absurd rfl (h.not_closed node hne hclose)
    | bracketedService hne hclose => exact lookupArgs_bracketedService hne hclose
    | service hne hopen hA hS => exact lookupArgs_one hne hopen hA hS
    | address hopen hother =>
      rcases h.colon hopen with hnone | ⟨hone, hhead⟩
      . exact lookupArgs_none (bracketed_eq_nil hopen) (List.count_eq_zero.mp hnone)
      . have hcolon : ':' ∈ host := List.count_pos_iff.mp (by omega)
        obtain ⟨A, S, rfl, hA⟩ := List.eq_append_cons_of_mem hcolon
        rw [List.count_append, List.count_cons_self] at hone
        have hS : ':' ∉ S := List.count_eq_zero.mp (by omega)
        have hne : A ≠ [] := by
          rintro rfl
          exact hhead rfl
        exact absurd rfl (hother A S hne hA hS)

/--
`Lookup` calls `getaddrinfo` with the two strings, whatever `getaddrinfo` does.
-/
def LooksUp (host node : List Char) (service : Option (List Char)) : Prop :=
  ∀ (A B : Type) (getaddrinfo : List Char → Option (List Char) → Addrinfo → Except Int (List A))
    (Create : A → B) (result : List B) (family type protocol : Int),
    Lookup getaddrinfo Create result host family type protocol
      = appendResults Create result
          (getaddrinfo (c_str node) (service.map c_str) ⟨family, type, protocol⟩)

theorem looksUp_iff {host node : List Char} {service : Option (List Char)}
    : LooksUp host node service ↔ lookupArgs host = (c_str node, service.map c_str) := by
  constructor
  . intro h
    have hrecorded := h _ _ (fun node service _ => .ok [(node, service)]) id [] 0 0 0
    unfold Lookup appendResults at hrecorded
    apply Prod.ext
    . simpa using congrArg (fun r => r.1.map Prod.fst) hrecorded
    . simpa using congrArg (fun r => r.1.map Prod.snd) hrecorded
  . intro h A B getaddrinfo Create result family type protocol
    unfold Lookup
    rw [h]

theorem lookup_iff (host : List Char)
    : (∀ node service, Denotes host node service → LooksUp host node service) ↔ Parses host := by
  rw [← lookupArgs_iff]
  simp only [looksUp_iff]

theorem lookup_bare_ipv6
    : Denotes "::1".toList "::1".toList none ∧ ¬LooksUp "::1".toList "::1".toList none
      ∧ Denotes "[::1]".toList "::1".toList none ∧ ¬LooksUp "[::1]".toList "::1".toList none := by
  simp only [looksUp_iff]
  refine ⟨.address (by decide) ?_, by decide, ?_, by decide⟩
  . intro A S hne hA hS heq
    cases A with
    | nil => exact hne rfl
    | cons a A =>
      rw [List.cons_append] at heq
      injection heq with ha _
      apply hA
      rw [← ha]
      exact List.mem_cons_self
  . exact @Denotes.bracketed "::1".toList (by decide) (by decide)

end Address
end CXS
