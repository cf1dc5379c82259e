import Mathlib.Data.List.Find
import Mathlib.Logic.Function.Basic
import CXS.Util.OrderedSet

/-!
This module contains ordered maps in the form of the list of their entries in iteration order. The
operations only use a comparison `lt` of the keys, as a search tree does. Two keys are the same to
the map if neither is less than the other, and an entry keeps the spelling of the key that it was
made with. The theorems are about comparisons that come from a linear order on what `key` makes of a
key, and take a map as a function on these.
-/

universe u v w

namespace OrderedMap

variable {κ : Type u} {β : Type v}

def same (lt : κ → κ → Bool) (k l : κ) : Bool :=
  !lt k l && !lt l k

def find (lt : κ → κ → Bool) (m : List (κ × β)) (k : κ) : Option (κ × β) :=
  m.find? (fun entry => same lt entry.1 k)

def erase (lt : κ → κ → Bool) (m : List (κ × β)) (k : κ) : List (κ × β) :=
  m.filter (fun entry => !same lt entry.1 k)

def set (lt : κ → κ → Bool) (m : List (κ × β)) (k : κ) (v : β) : List (κ × β) :=
  match m with
  | [] => [(k, v)]
  | entry :: m =>
    if lt entry.1 k then
      entry :: set lt m k v
    else if lt k entry.1 then
      (k, v) :: entry :: m
    else
      (entry.1, v) :: m

def setAll (lt : κ → κ → Bool) (m ys : List (κ × β)) : List (κ × β) :=
  ys.foldl (fun m entry => set lt m entry.1 entry.2) m

theorem setAll_append (lt : κ → κ → Bool) (m ys zs : List (κ × β))
    : setAll lt m (ys ++ zs) = setAll lt (setAll lt m ys) zs := by
  unfold setAll
  rw [List.foldl_append]

variable {ο : Type w} [LinearOrder ο] (key : κ → ο)

def Sorted (m : List (κ × β)) : Prop :=
  OrderedSet.Sorted (fun entry : κ × β => key entry.1) m

def view (m : List (κ × β)) (o : ο) : Option (κ × β) :=
  m.find? (fun entry => key entry.1 = o)

variable {key}

section View

variable {m : List (κ × β)}

theorem view_nil : view key ([] : List (κ × β)) = fun _ => none := rfl

theorem view_cons (entry : κ × β) (m : List (κ × β))
    : view key (entry :: m) = Function.update (view key m) (key entry.1) (some entry) := by
  funext o
  unfold view
  by_cases h : key entry.1 = o
  . rw [List.find?_cons_of_pos (by rw [decide_eq_true_eq]; exact h), ← h, Function.update_self]
  . rw [List.find?_cons_of_neg (by rw [decide_eq_true_eq]; exact h),
      Function.update_of_ne (Ne.symm h)]

theorem view_eq_some {o : ο} {entry : κ × β} (h : view key m o = some entry)
    : entry ∈ m ∧ key entry.1 = o := by
  unfold view at h
  refine ⟨List.mem_of_find?_eq_some h, ?_⟩
  have hkey := List.find?_some h
  rw [decide_eq_true_eq] at hkey
  exact hkey

theorem view_eq_none {o : ο} (h : ∀ entry ∈ m, key entry.1 ≠ o) : view key m o = none := by
  unfold view
  rw [List.find?_eq_none]
  intro entry hentry
  rw [decide_eq_true_eq]
  exact h entry hentry

theorem view_of_mem (h : Sorted key m) {entry : κ × β} (hmem : entry ∈ m)
    : view key m (key entry.1) = some entry := by
  induction m with
  | nil => cases hmem
  | cons first m ih =>
    have hpair := List.pairwise_cons.mp h
    rw [view_cons]
    rcases List.mem_cons.mp hmem with rfl | hmem
    . rw [Function.update_self]
    . rw [Function.update_of_ne (ne_of_gt (hpair.1 entry hmem))]
      exact ih hpair.2 hmem

theorem mem_iff_view (h : Sorted key m) (entry : κ × β)
    : entry ∈ m ↔ view key m (key entry.1) = some entry :=
  ⟨view_of_mem h, fun hview => (view_eq_some hview).1⟩

theorem view_injective {m' : List (κ × β)} (h : Sorted key m) (h' : Sorted key m')
    (heq : view key m = view key m') : m = m' := by
  have hmem : ∀ entry, entry ∈ m ↔ entry ∈ m' := by
    intro entry
    rw [mem_iff_view h, mem_iff_view h', heq]
  have hperm : m.Perm m' := (List.perm_ext_iff_of_nodup h.nodup h'.nodup).mpr hmem
  apply hperm.eq_of_pairwise _ h h'
  intro a b _ _ hab hba
  exact absurd hab (lt_asymm hba)

end View

section Lawful

variable {lt : κ → κ → Bool} (hlt : ∀ k l, lt k l = true ↔ key k < key l)

include hlt

theorem same_iff (k l : κ) : same lt k l = true ↔ key k = key l := by
  unfold same
  rw [Bool.and_eq_true, Bool.not_eq_true', Bool.not_eq_true', ← Bool.not_eq_true, ← Bool.not_eq_true,
    hlt, hlt, not_lt, not_lt]
  constructor
  . rintro ⟨hle, hge⟩
    exact le_antisymm hge hle
  . intro heq
    exact ⟨ge_of_eq heq, le_of_eq heq⟩

theorem find_eq_view (m : List (κ × β)) (k : κ) : find lt m k = view key m (key k) := by
  unfold find view
  apply List.find?_congr
  intro entry _
  rw [Bool.eq_iff_iff, same_iff hlt, decide_eq_true_eq]

omit hlt in
theorem Sorted.erase {m : List (κ × β)} (h : Sorted key m) (k : κ)
    : Sorted key (OrderedMap.erase lt m k) :=
  OrderedSet.Sorted.sublist h List.filter_sublist

theorem view_erase (m : List (κ × β)) (k : κ)
    : view key (erase lt m k) = Function.update (view key m) (key k) none := by
  induction m with
  | nil =>
    funext o
    rw [erase, List.filter_nil, view_nil, Function.update_apply, ite_self]
  | cons entry m ih =>
    unfold erase at ih ⊢
    by_cases h : key entry.1 = key k
    . have hsame := (same_iff hlt entry.1 k).mpr h
      rw [List.filter_cons_of_neg (by rw [hsame]; decide), ih, view_cons, h, Function.update_idem]
    . have hsame : same lt entry.1 k = false := by
        rw [← Bool.not_eq_true, same_iff hlt]
        exact h
      rw [List.filter_cons_of_pos (by rw [hsame]; rfl), view_cons, ih, view_cons]
      exact (Function.update_comm h _ _ _).symm

theorem mem_set {m : List (κ × β)} {k : κ} {v : β} {entry : κ × β} (h : entry ∈ set lt m k v)
    : key entry.1 = key k ∨ entry ∈ m := by
  induction m with
  | nil =>
    rw [set, List.mem_singleton] at h
    rw [h]
    exact .inl rfl
  | cons first m ih =>
    unfold set at h
    split at h
    . rw [List.mem_cons] at h
      rcases h with rfl | h
      . exact .inr List.mem_cons_self
      . exact (ih h).imp_right (List.mem_cons_of_mem first)
    . next hfirst =>
      split at h
      . rw [List.mem_cons] at h
        rcases h with rfl | h
        . exact .inl rfl
        . exact .inr h
      . next hk =>
        rw [List.mem_cons] at h
        rcases h with rfl | h
        . left
          rw [← same_iff hlt, same, Bool.eq_false_iff.mpr hfirst, Bool.eq_false_iff.mpr hk]
          rfl
        . exact .inr (List.mem_cons_of_mem first h)

theorem Sorted.set {m : List (κ × β)} (h : Sorted key m) (k : κ) (v : β)
    : Sorted key (OrderedMap.set lt m k v) := by
  induction m with
  | nil => exact List.pairwise_singleton _ _
  | cons first m ih =>
    have hpair := List.pairwise_cons.mp h
    unfold OrderedMap.set
    split
    . next hfirst =>
      apply List.pairwise_cons.mpr
      refine ⟨?_, ih hpair.2⟩
      intro entry hentry
      rcases mem_set hlt hentry with hkey | hmem
      . change key first.1 < key entry.1
        rw [hkey]
        exact (hlt _ _).mp hfirst
      . exact hpair.1 entry hmem
    . split
      . next hk =>
        have hlow := (hlt _ _).mp hk
        apply List.pairwise_cons.mpr
        refine ⟨?_, h⟩
        intro entry hentry
        rcases List.mem_cons.mp hentry with rfl | hmem
        . exact hlow
        . exact lt_trans hlow (hpair.1 entry hmem)
      . exact List.pairwise_cons.mpr hpair

theorem view_set {m : List (κ × β)} (h : Sorted key m) (k : κ) (v : β)
    : view key (set lt m k v)
        = Function.update (view key m) (key k)
            (some ((((view key m (key k)).map Prod.fst).getD k), v)) := by
  induction m with
  | nil =>
    rw [set, view_cons]
    rfl
  | cons first m ih =>
    have hpair := List.pairwise_cons.mp h
    unfold set
    split
    . next hfirst =>
      have hne : key first.1 ≠ key k := ne_of_lt ((hlt _ _).mp hfirst)
      rw [view_cons, ih hpair.2, view_cons, Function.update_of_ne hne.symm]
      exact Function.update_comm hne.symm _ _ _
    . next hfirst =>
      split
      . next hk =>
        have hlow := (hlt _ _).mp hk
        have hnone : view key (first :: m) (key k) = none := by
          apply view_eq_none
          intro entry hentry
          rcases List.mem_cons.mp hentry with rfl | hmem
          . exact ne_of_gt hlow
          . exact ne_of_gt (lt_trans hlow (hpair.1 entry hmem))
        rw [view_cons, hnone]
        rfl
      . next hk =>
        have hkey : key first.1 = key k := by
          rw [← same_iff hlt, same, Bool.eq_false_iff.mpr hfirst, Bool.eq_false_iff.mpr hk]
          rfl
        rw [view_cons, view_cons, hkey, Function.update_self, Function.update_idem]
        rfl

theorem find_set {m : List (κ × β)} (h : Sorted key m) (k : κ) (v : β) (l : κ)
    : find lt (set lt m k v) l
        = if same lt l k then some (((find lt m k).map Prod.fst).getD k, v) else find lt m l := by
  rw [find_eq_view hlt, find_eq_view hlt, find_eq_view hlt, view_set hlt h]
  split
  . next hsame => rw [(same_iff hlt l k).mp hsame, Function.update_self]
  . next hsame =>
    rw [same_iff hlt] at hsame
    rw [Function.update_of_ne hsame]

theorem find_erase (m : List (κ × β)) (k l : κ)
    : find lt (erase lt m k) l = if same lt l k then none else find lt m l := by
  rw [find_eq_view hlt, find_eq_view hlt, view_erase hlt]
  split
  . next hsame => rw [(same_iff hlt l k).mp hsame, Function.update_self]
  . next hsame =>
    rw [same_iff hlt] at hsame
    rw [Function.update_of_ne hsame]

theorem Sorted.setAll {m ys : List (κ × β)} (h : Sorted key m)
    : Sorted key (OrderedMap.setAll lt m ys) := by
  induction ys generalizing m with
  | nil => exact h
  | cons entry ys ih => exact ih (h.set hlt entry.1 entry.2)

theorem view_setAll {m ys : List (κ × β)} (h : Sorted key m) (hys : Sorted key ys)
    (hne : ∀ entry ∈ ys, view key m (key entry.1) = none) (o : ο)
    : view key (setAll lt m ys) o = (view key ys o).or (view key m o) := by
  induction ys generalizing m with
  | nil => rfl
  | cons entry ys ih =>
    have hpair := List.pairwise_cons.mp hys
    rw [List.forall_mem_cons] at hne
    have hset : view key (set lt m entry.1 entry.2)
        = Function.update (view key m) (key entry.1) (some entry) := by
      rw [view_set hlt h, hne.1]
      rfl
    have hnext : ∀ other ∈ ys, view key (set lt m entry.1 entry.2) (key other.1) = none := by
      intro other hother
      rw [hset, Function.update_of_ne (ne_of_gt (hpair.1 other hother))]
      exact hne.2 other hother
    change view key (setAll lt (set lt m entry.1 entry.2) ys) o = _
    rw [ih (h.set hlt entry.1 entry.2) hpair.2 hnext, hset, view_cons]
    by_cases ho : o = key entry.1
    . have hnone : view key ys o = none := by
        apply view_eq_none
        intro other hother
        rw [ho]
        exact ne_of_gt (hpair.1 other hother)
      rw [ho, Function.update_self, Function.update_self, ← ho, hnone]
      rfl
    . rw [Function.update_of_ne ho, Function.update_of_ne ho]

theorem setAll_nil {ys : List (κ × β)} (hys : Sorted key ys) : setAll lt [] ys = ys := by
  have hnil : Sorted key ([] : List (κ × β)) := .nil
  apply view_injective (Sorted.setAll hlt hnil) hys
  funext o
  rw [view_setAll hlt hnil hys (fun _ _ => rfl), view_nil, Option.or_none]

theorem setAll_cons {m : List (κ × β)} (h : Sorted key m) {k : κ} (hnone : find lt m k = none) (v : β)
    : setAll lt [] ((k, v) :: m) = set lt m k v := by
  rw [find_eq_view hlt] at hnone
  have hnil : Sorted key ([] : List (κ × β)) := .nil
  have hone : Sorted key [(k, v)] := List.pairwise_singleton _ _
  apply view_injective (Sorted.setAll hlt hnil) (h.set hlt k v)
  change view key (setAll lt [(k, v)] m) = _
  funext o
  rw [view_set hlt h, hnone, view_setAll hlt hone h]
  . by_cases ho : o = key k
    . rw [ho, hnone, view_cons, Function.update_self, Function.update_self]
      rfl
    . rw [view_cons, Function.update_of_ne ho, Function.update_of_ne ho, view_nil, Option.or_none]
  . intro entry hentry
    rw [view_cons, view_nil, Function.update_of_ne]
    intro heq
    have hview := view_of_mem h hentry
    rw [heq, hnone] at hview
    cases hview

end Lawful

end OrderedMap
