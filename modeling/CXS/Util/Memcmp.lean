import Mathlib.Data.List.Basic

universe u

namespace List

variable {α : Type u} [LT α]

theorem lt_iff_take_min {l₁ l₂ : List α} {n : Nat} (hn : n = min l₁.length l₂.length)
    : l₁ < l₂
      ↔ l₁.take n < l₂.take n ∨ l₁.take n = l₂.take n ∧ l₁.length < l₂.length := by
  induction l₁ generalizing l₂ n with
  | nil =>
    cases l₂ with
    | nil => simp
    | cons b l₂ => simp [hn]
  | cons a l₁ ih =>
    cases l₂ with
    | nil => simp [hn]
    | cons b l₂ =>
      have hsucc : n = min l₁.length l₂.length + 1 := by
        rw [hn, length_cons, length_cons]
        omega
      rw [hsucc, take_succ_cons, take_succ_cons, cons_lt_cons_iff, cons_lt_cons_iff, ih rfl,
        cons.injEq, length_cons, length_cons, Nat.add_lt_add_iff_right, and_or_left, ← or_assoc,
        and_assoc]

end List

def memcmp : List UInt8 → List UInt8 → Nat → Int
  | c :: s, d :: t, n + 1 =>
    if c = d then
      memcmp s t n
    else
      (c.toNat : Int) - d.toNat
  | _, _, _ => 0

section Memcmp

variable {s t : List UInt8} {n : Nat}

theorem memcmp_cases (hs : n ≤ s.length) (ht : n ≤ t.length)
    : memcmp s t n < 0 ∧ s.take n < t.take n
      ∨ memcmp s t n = 0 ∧ s.take n = t.take n
      ∨ 0 < memcmp s t n ∧ t.take n < s.take n := by
  induction n generalizing s t with
  | zero => simp [memcmp]
  | succ n ih =>
    cases s with
    | nil => simp at hs
    | cons c s =>
      cases t with
      | nil => simp at ht
      | cons d t =>
        rw [List.length_cons, Nat.add_le_add_iff_right] at hs ht
        rw [List.take_succ_cons, List.take_succ_cons, List.cons_lt_cons_iff, List.cons_lt_cons_iff]
        unfold memcmp
        by_cases heq : c = d
        . rw [if_pos heq, heq]
          simpa using ih hs ht
        . rw [if_neg heq]
          have hne : c.toNat ≠ d.toNat := by
            intro h
            exact heq (UInt8.toNat_inj.mp h)
          rcases Nat.lt_or_gt_of_ne hne with hlt | hgt
          . exact .inl ⟨by omega, .inl (UInt8.lt_iff_toNat_lt.mpr hlt)⟩
          . exact .inr (.inr ⟨by omega, .inl (UInt8.lt_iff_toNat_lt.mpr hgt)⟩)

theorem memcmp_neg_iff (hs : n ≤ s.length) (ht : n ≤ t.length)
    : memcmp s t n < 0 ↔ s.take n < t.take n := by
  rcases memcmp_cases hs ht with ⟨hneg, hlt⟩ | ⟨hzero, heq⟩ | ⟨hpos, hgt⟩
  . exact iff_of_true hneg hlt
  . rw [heq]
    exact iff_of_false (by omega) (List.lt_irrefl (t.take n))
  . exact iff_of_false (by omega) (List.lt_asymm hgt)

theorem memcmp_eq_zero_iff (hs : n ≤ s.length) (ht : n ≤ t.length)
    : memcmp s t n = 0 ↔ s.take n = t.take n := by
  rcases memcmp_cases hs ht with ⟨hneg, hlt⟩ | ⟨hzero, heq⟩ | ⟨hpos, hgt⟩
  . refine iff_of_false (by omega) ?_
    intro heq
    exact List.lt_irrefl (t.take n) (heq ▸ hlt)
  . exact iff_of_true hzero heq
  . refine iff_of_false (by omega) ?_
    intro heq
    exact List.lt_irrefl (t.take n) (heq ▸ hgt)

end Memcmp
