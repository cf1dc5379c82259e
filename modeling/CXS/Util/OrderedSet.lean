import Mathlib.Order.Basic
import Mathlib.Data.List.Basic
import Mathlib.Order.Lattice

/-!
This module contains ordered sets in the form of the list of their elements in iteration order.
The operations only use a comparison `lt`, as a search tree does, and an iterator is a place in the
list. Two elements are the same to the set if neither is less than the other. The theorems are about
comparisons that come from a key in a linear order.
-/

universe u v

namespace OrderedSet

variable {α : Type u}

def lowerBound (lt : α → α → Bool) (k : α) (xs : List α) : Nat :=
  (xs.takeWhile (fun x => lt x k)).length

def find (lt : α → α → Bool) (k : α) : List α → Option Nat
  | [] => none
  | x :: xs =>
    if lt x k then
      (find lt k xs).map (· + 1)
    else if lt k x then
      none
    else
      some 0

def insert (lt : α → α → Bool) (k : α) : List α → List α
  | [] => [k]
  | x :: xs =>
    if lt x k then
      x :: insert lt k xs
    else if lt k x then
      k :: x :: xs
    else
      x :: xs

theorem mem_of_mem_insert {lt : α → α → Bool} {k y : α} {xs : List α} (h : y ∈ insert lt k xs)
    : y = k ∨ y ∈ xs := by
  induction xs with
  | nil => simpa [insert] using h
  | cons x xs ih =>
    unfold insert at h
    split at h
    . rw [List.mem_cons] at h
      rcases h with h | h
      . exact .inr (h ▸ List.mem_cons_self)
      . rcases ih h with h | h
        . exact .inl h
        . exact .inr (List.mem_cons_of_mem x h)
    . split at h
      . exact List.mem_cons.mp h
      . exact .inr h

theorem exists_lt_of_lowerBound {lt : α → α → Bool} {k : α} {xs : List α} (h : lowerBound lt k xs ≠ 0)
    : ∃ x ∈ xs, lt x k = true := by
  cases xs with
  | nil => exact absurd rfl h
  | cons x xs =>
    refine ⟨x, List.mem_cons_self, ?_⟩
    unfold lowerBound at h
    rw [List.takeWhile_cons] at h
    split at h
    . next hx => exact hx
    . exact absurd rfl h

theorem mem_takeWhile_iff {p : α → Bool} {xs : List α} {y : α}
    (h : xs.Pairwise (fun a b => p b = true → p a = true))
    : y ∈ xs.takeWhile p ↔ y ∈ xs ∧ p y = true := by
  induction xs with
  | nil => simp
  | cons x xs ih =>
    have hpair := List.pairwise_cons.mp h
    rw [List.takeWhile_cons]
    split
    . next hx =>
      rw [List.mem_cons, List.mem_cons, ih hpair.2]
      constructor
      . intro hy
        rcases hy with rfl | hy
        . exact ⟨.inl rfl, hx⟩
        . exact ⟨.inr hy.1, hy.2⟩
      . intro hy
        exact hy.1.imp_right fun hmem => ⟨hmem, hy.2⟩
    . next hx =>
      constructor
      . intro hy
        cases hy
      . intro hy
        rcases List.mem_cons.mp hy.1 with rfl | hmem
        . exact absurd hy.2 hx
        . exact absurd (hpair.1 y hmem hy.2) hx

theorem not_of_mem_dropWhile {p : α → Bool} {xs : List α} {y : α}
    (h : xs.Pairwise (fun a b => p b = true → p a = true)) (hy : y ∈ xs.dropWhile p)
    : p y ≠ true := by
  induction xs with
  | nil => cases hy
  | cons x xs ih =>
    have hpair := List.pairwise_cons.mp h
    rw [List.dropWhile_cons] at hy
    split at hy
    . exact ih hpair.2 hy
    . next hx =>
      rcases List.mem_cons.mp hy with rfl | hy
      . exact hx
      . intro hcontra
        exact hx (hpair.1 y hy hcontra)

theorem take_length_takeWhile (p : α → Bool) (xs : List α)
    : xs.take (xs.takeWhile p).length = xs.takeWhile p := by
  induction xs with
  | nil => rfl
  | cons x xs ih =>
    rw [List.takeWhile_cons]
    split
    . rw [List.length_cons, List.take_succ_cons, ih]
    . rfl

theorem drop_length_takeWhile (p : α → Bool) (xs : List α)
    : xs.drop (xs.takeWhile p).length = xs.dropWhile p := by
  induction xs with
  | nil => rfl
  | cons x xs ih =>
    rw [List.takeWhile_cons, List.dropWhile_cons]
    split
    . rw [List.length_cons, List.drop_succ_cons, ih]
    . rfl

theorem split_eq_filter {p : α → Bool} {xs : List α} {n : Nat} (htake : ∀ x ∈ xs.take n, p x = true)
    (hdrop : ∀ x ∈ xs.drop n, p x = false)
    : xs.take n = xs.filter p ∧ xs.drop n = xs.filter (fun x => !p x) := by
  have htake' : (xs.take n).filter (fun x => !p x) = [] := by
    rw [List.filter_eq_nil_iff]
    intro x hx
    simp [htake x hx]
  have hdrop' : (xs.drop n).filter (fun x => !p x) = xs.drop n := by
    rw [List.filter_eq_self]
    intro x hx
    simp [hdrop x hx]
  have hnone : (xs.drop n).filter p = [] := by
    rw [List.filter_eq_nil_iff]
    intro x hx
    simp [hdrop x hx]
  have hsplit := List.take_append_drop n xs
  constructor
  . conv => rhs; rw [← hsplit, List.filter_append, hnone, List.append_nil]
    exact (List.filter_eq_self.mpr htake).symm
  . conv => rhs; rw [← hsplit, List.filter_append, htake', hdrop', List.nil_append]

variable {κ : Type v} [LinearOrder κ]

def Sorted (key : α → κ) (xs : List α) : Prop :=
  xs.Pairwise (fun a b => key a < key b)

namespace Sorted

variable {key : α → κ} {xs : List α}

theorem nodup (h : Sorted key xs) : xs.Nodup := by
  apply List.Pairwise.imp _ h
  intro a b hab heq
  rw [heq] at hab
  exact lt_irrefl _ hab

theorem congr {key' : α → κ} (h : Sorted key xs) (heq : ∀ x ∈ xs, key' x = key x)
    : Sorted key' xs := by
  apply List.Pairwise.imp_of_mem _ h
  intro a b ha hb hab
  rw [heq a ha, heq b hb]
  exact hab

theorem sublist {ys : List α} (h : Sorted key xs) (hsub : ys.Sublist xs) : Sorted key ys :=
  List.Pairwise.sublist hsub h

end Sorted

section Lawful

variable {key : α → κ} {lt : α → α → Bool} (hlt : ∀ a b, lt a b = true ↔ key a < key b)

include hlt

theorem find_isSome {xs : List α} {k : α} (h : Sorted key xs) (hk : k ∈ xs)
    : ∃ i, find lt k xs = some i ∧ xs[i]? = some k := by
  induction xs with
  | nil => cases hk
  | cons x xs ih =>
    have hpair := List.pairwise_cons.mp h
    unfold find
    rw [List.mem_cons] at hk
    rcases hk with rfl | hk
    . have : ¬lt k k = true := by
        rw [hlt]
        exact lt_irrefl _
      rw [if_neg this, if_neg this]
      exact ⟨0, rfl, rfl⟩
    . obtain ⟨i, hfind, hi⟩ := ih hpair.2 hk
      rw [if_pos ((hlt x k).mpr (hpair.1 k hk)), hfind]
      exact ⟨i + 1, rfl, hi⟩

omit hlt in
theorem mem_eraseIdx {xs : List α} {k y : α} {i : Nat} (h : Sorted key xs) (hi : xs[i]? = some k)
    : y ∈ xs.eraseIdx i ↔ y ≠ k ∧ y ∈ xs := by
  have hnodup := h.nodup
  induction xs generalizing i with
  | nil => cases hi
  | cons x xs ih =>
    rw [List.nodup_cons] at hnodup
    cases i with
    | zero =>
      injection hi with hi
      subst hi
      simp only [List.eraseIdx_cons_zero, List.mem_cons]
      constructor
      . intro hy
        refine ⟨?_, .inr hy⟩
        intro heq
        rw [heq] at hy
        exact hnodup.1 hy
      . intro hy
        exact hy.2.resolve_left hy.1
    | succ i =>
      have hi' : xs[i]? = some k := by simpa using hi
      have hk : k ∈ xs := List.mem_of_getElem? hi'
      have hrec := ih (List.pairwise_cons.mp h).2 hi' hnodup.2
      rw [List.eraseIdx_cons_succ, List.mem_cons, List.mem_cons]
      constructor
      . intro hy
        rcases hy with rfl | hy
        . refine ⟨?_, .inl rfl⟩
          intro heq
          rw [heq] at hnodup
          exact hnodup.1 hk
        . have hy := hrec.mp hy
          exact ⟨hy.1, .inr hy.2⟩
      . intro hy
        rcases hy.2 with heq | hmem
        . exact .inl heq
        . exact .inr (hrec.mpr ⟨hy.1, hmem⟩)

theorem mem_insert {xs : List α} {k y : α} (hne : ∀ x ∈ xs, key x ≠ key k)
    : y ∈ insert lt k xs ↔ y = k ∨ y ∈ xs := by
  induction xs with
  | nil => simp [insert]
  | cons x xs ih =>
    have hx := hne x List.mem_cons_self
    unfold insert
    split
    . rw [List.mem_cons, List.mem_cons, ih (fun z hz => hne z (List.mem_cons_of_mem x hz))]
      constructor
      . intro h
        rcases h with h | h | h
        . exact .inr (.inl h)
        . exact .inl h
        . exact .inr (.inr h)
      . intro h
        rcases h with h | h | h
        . exact .inr (.inl h)
        . exact .inl h
        . exact .inr (.inr h)
    . next hxk =>
      have hkx : lt k x = true := by
        rw [hlt]
        rw [hlt] at hxk
        exact lt_of_le_of_ne (not_lt.mp hxk) (Ne.symm hx)
      rw [if_pos hkx, List.mem_cons]

theorem Sorted.insert {xs : List α} {k : α} (h : Sorted key xs)
    (hne : ∀ x ∈ xs, key x ≠ key k) : Sorted key (OrderedSet.insert lt k xs) := by
  induction xs with
  | nil => exact List.pairwise_singleton _ k
  | cons x xs ih =>
    have hpair := List.pairwise_cons.mp h
    have hne' : ∀ z ∈ xs, key z ≠ key k := fun z hz => hne z (List.mem_cons_of_mem x hz)
    unfold OrderedSet.insert
    split
    . next hxk =>
      apply List.pairwise_cons.mpr
      constructor
      . intro y hy
        rw [mem_insert hlt hne'] at hy
        rcases hy with rfl | hy
        . exact (hlt x y).mp hxk
        . exact hpair.1 y hy
      . exact ih hpair.2 hne'
    . next hxk =>
      rw [hlt] at hxk
      have hkx : key k < key x :=
        lt_of_le_of_ne (not_lt.mp hxk) (Ne.symm (hne x List.mem_cons_self))
      rw [if_pos ((hlt k x).mpr hkx)]
      apply List.pairwise_cons.mpr
      constructor
      . intro y hy
        rw [List.mem_cons] at hy
        rcases hy with rfl | hy
        . exact hkx
        . exact lt_trans hkx (hpair.1 y hy)
      . exact h

theorem insert_perm {xs : List α} {k : α} (hne : ∀ x ∈ xs, key x ≠ key k)
    : (insert lt k xs).Perm (k :: xs) := by
  induction xs with
  | nil => exact .refl [k]
  | cons x xs ih =>
    have hx := hne x List.mem_cons_self
    unfold insert
    split
    . exact ((ih fun z hz => hne z (List.mem_cons_of_mem x hz)).cons x).trans (.swap k x xs)
    . next hxk =>
      rw [hlt] at hxk
      rw [if_pos ((hlt k x).mpr (lt_of_le_of_ne (not_lt.mp hxk) (Ne.symm hx)))]

theorem insert_of_mem {xs : List α} {k x : α} (h : Sorted key xs) (hx : x ∈ xs)
    (hkey : key x = key k) : insert lt k xs = xs := by
  induction xs with
  | nil => cases hx
  | cons y xs ih =>
    have hpair := List.pairwise_cons.mp h
    unfold insert
    rcases List.mem_cons.mp hx with rfl | hmem
    . rw [if_neg (by rw [hlt, hkey]; exact lt_irrefl _)]
      rw [if_neg (by rw [hlt, hkey]; exact lt_irrefl _)]
    . have hyk : key y < key k := by
        rw [← hkey]
        exact hpair.1 x hmem
      rw [if_pos ((hlt y k).mpr hyk), ih hpair.2 hmem]

theorem Sorted.insert_any {xs : List α} (k : α) (h : Sorted key xs)
    : Sorted key (OrderedSet.insert lt k xs) := by
  by_cases hmem : ∃ x ∈ xs, key x = key k
  . obtain ⟨x, hx, hkey⟩ := hmem
    rw [insert_of_mem hlt h hx hkey]
    exact h
  . apply h.insert hlt
    intro x hx hkey
    exact hmem ⟨x, hx, hkey⟩

theorem foldl_insert_spec {xs ys : List α} (h : Sorted key xs) (hys : (ys.map key).Nodup)
    (hne : ∀ y ∈ ys, ∀ x ∈ xs, key x ≠ key y)
    : Sorted key (ys.foldl (fun xs y => insert lt y xs) xs)
      ∧ (ys.foldl (fun xs y => insert lt y xs) xs).Perm (ys ++ xs) := by
  induction ys generalizing xs with
  | nil => exact ⟨h, .refl xs⟩
  | cons y ys ih =>
    rw [List.map_cons, List.nodup_cons] at hys
    rw [List.forall_mem_cons] at hne
    have hnext : ∀ z ∈ ys, ∀ x ∈ insert lt y xs, key x ≠ key z := by
      intro z hz x hx
      rcases mem_of_mem_insert hx with rfl | hx
      . intro hkey
        apply hys.1
        rw [hkey]
        exact List.mem_map_of_mem hz
      . exact hne.2 z hz x hx
    obtain ⟨hsorted, hperm⟩ := ih (h.insert hlt hne.1) hys.2 hnext
    refine ⟨hsorted, hperm.trans ?_⟩
    exact ((insert_perm hlt hne.1).append_left ys).trans List.perm_middle

theorem foldl_insert_perm {xs ys : List α} (h : Sorted key xs) (hperm : ys.Perm xs)
    : ys.foldl (fun xs y => insert lt y xs) [] = xs := by
  have hnodup : (xs.map key).Nodup := by
    apply List.Pairwise.map _ _ h
    intro a b hab
    exact ne_of_lt hab
  have hys : (ys.map key).Nodup := (hperm.map key).nodup_iff.mpr hnodup
  have hnil : Sorted key ([] : List α) := .nil
  obtain ⟨hsorted, hsame⟩ := foldl_insert_spec hlt hnil hys (by simp)
  rw [List.append_nil] at hsame
  apply (hsame.trans hperm).eq_of_pairwise _ hsorted h
  intro a b _ _ hab hba
  exact absurd hba (lt_asymm hab)

end Lawful

end OrderedSet
