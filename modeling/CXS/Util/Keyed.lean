import Mathlib.Data.List.Basic

namespace Keyed

universe u v w

theorem filterMap_eq_iff {α : Type u} {β : Type v} {τ : Type w} {f g : α → Option β}
    (tag : α → τ) (tag' : β → τ) (hf : ∀ x y, f x = some y → tag' y = tag x)
    (hg : ∀ x y, g x = some y → tag' y = tag x) {xs : List α} (hnodup : (xs.map tag).Nodup)
    : xs.filterMap f = xs.filterMap g ↔ ∀ x ∈ xs, f x = g x := by
  constructor
  . intro heq
    induction xs with
    | nil =>
      intro x hx
      cases hx
    | cons a xs ih =>
      rw [List.map_cons, List.nodup_cons] at hnodup
      have hrest : ∀ {h : α → Option β}, (∀ x y, h x = some y → tag' y = tag x)
          → ∀ y ∈ xs.filterMap h, tag' y ≠ tag a := by
        intro h hh y hy htag
        obtain ⟨x, hx, hxy⟩ := List.mem_filterMap.mp hy
        apply hnodup.1
        rw [← htag, hh x y hxy]
        exact List.mem_map_of_mem hx
      have hhead : f a = g a := by
        rw [List.filterMap_cons, List.filterMap_cons] at heq
        cases hfa : f a with
        | none =>
          cases hga : g a with
          | none => rfl
          | some y =>
            rw [hfa, hga] at heq
            dsimp only at heq
            have hmem : y ∈ xs.filterMap f := by
              rw [heq]
              exact List.mem_cons_self
            exact absurd (hg a y hga) (hrest hf y hmem)
        | some y =>
          cases hga : g a with
          | none =>
            rw [hfa, hga] at heq
            dsimp only at heq
            have hmem : y ∈ xs.filterMap g := by
              rw [← heq]
              exact List.mem_cons_self
            exact absurd (hf a y hfa) (hrest hg y hmem)
          | some y' =>
            rw [hfa, hga] at heq
            injection heq with heq
            rw [heq]
      rw [List.forall_mem_cons]
      refine ⟨hhead, ih hnodup.2 ?_⟩
      rw [List.filterMap_cons, List.filterMap_cons, hhead] at heq
      split at heq
      . exact heq
      . injection heq
  . apply List.filterMap_congr

theorem filterMap_eq_self_iff {α : Type v} {f : α → Option α} {l : List α}
    : l.filterMap f = l ↔ ∀ a ∈ l, f a = some a := by
  induction l with
  | nil => simp
  | cons a l ih =>
    rw [List.filterMap_cons, List.forall_mem_cons]
    cases ha : f a with
    | none =>
      constructor
      . intro h
        have hle := List.length_filterMap_le f l
        rw [show l.filterMap f = a :: l from h, List.length_cons] at hle
        omega
      . rintro ⟨h, _⟩
        cases h
    | some b => simp [ih]

section Entries

variable {K : Type u} {V : Type v} [BEq K] [LawfulBEq K]

theorem find?_map_self {entries : List (K × V)} {key : K} (value : V)
    (h : (entries.find? fun entry => entry.1 == key).isSome)
    : ((entries.map fun entry => if entry.1 == key then (entry.1, value) else entry).find?
        fun entry => entry.1 == key) = some (key, value) := by
  induction entries with
  | nil => simp at h
  | cons entry entries ih =>
    by_cases hkey : entry.1 = key
    . simp [hkey]
    . simp only [List.find?_cons, beq_eq_false_iff_ne.mpr hkey] at h
      simp only [List.map_cons, List.find?_cons, beq_eq_false_iff_ne.mpr hkey, Bool.false_eq_true,
        if_false]
      exact ih h

theorem find?_map_ne (entries : List (K × V)) {key key' : K} (value : V) (h : key' ≠ key)
    : ((entries.map fun entry => if entry.1 == key then (entry.1, value) else entry).find?
        fun entry => entry.1 == key') = entries.find? fun entry => entry.1 == key' := by
  induction entries with
  | nil => rfl
  | cons entry entries ih =>
    by_cases hkey : entry.1 = key
    . have hother : (key == key') = false := beq_eq_false_iff_ne.mpr (Ne.symm h)
      simp only [List.map_cons, List.find?_cons, hkey, beq_self_eq_true, if_true, hother]
      simpa [hkey] using ih
    . simp only [List.map_cons, List.find?_cons, beq_eq_false_iff_ne.mpr hkey, Bool.false_eq_true,
        if_false, ih]

end Entries

end Keyed
