import CXS.Timer.Basic
import Mathlib.Data.Prod.Lex
import Mathlib.Order.WithBot

namespace CXS
namespace TimerManager

variable {Cb : Type}

def key (heap : List (Timer Cb)) (t : Nat) : WithBot (Nat ×ₗ Nat) :=
  match heap[t]? with
  | none => ⊥
  | some timer => ↑(toLex (timer.m_next, timer.addr))

theorem less_iff (heap : List (Timer Cb)) (a b : Nat)
    : less heap a b = true ↔ key heap a < key heap b := by
  unfold less key Timer.Comparator
  cases heap[a]? with
  | none =>
    cases heap[b]? with
    | none => simp
    | some y => simp
  | some x =>
    cases heap[b]? with
    | none => simp
    | some y =>
      simp only [WithBot.coe_lt_coe, Prod.Lex.toLex_lt_toLex]
      split
      . next hlt => simp [hlt]
      . split
        . next hgt =>
          simp only [Bool.false_eq_true, false_iff]
          omega
        . simp only [decide_eq_true_eq]
          omega

theorem key_eq {heap : List (Timer Cb)} {t : Nat} {timer : Timer Cb} (h : heap[t]? = some timer)
    : key heap t = ↑(toLex (timer.m_next, timer.addr)) := by
  unfold key
  rw [h]

theorem key_set_ne (heap : List (Timer Cb)) {a t : Nat} (timer : Timer Cb) (h : t ≠ a)
    : key (heap.set t timer) a = key heap a := by
  unfold key
  rw [List.getElem?_set_ne h]

theorem heap_set_cases {heap : List (Timer Cb)} {a t : Nat} {timer x : Timer Cb}
    (h : (heap.set t timer)[a]? = some x) : t = a ∧ timer = x ∨ t ≠ a ∧ heap[a]? = some x := by
  by_cases hat : t = a
  . left
    subst hat
    have hlt := (List.getElem?_eq_some_iff.mp h).1
    rw [List.length_set] at hlt
    rw [List.getElem?_set_self hlt] at h
    injection h with h
    exact ⟨rfl, h⟩
  . right
    rw [List.getElem?_set_ne hat] at h
    exact ⟨hat, h⟩

/--
`timers` are the pointers in the set, `out` those that an operation has taken out of it and not put
back yet. This is what a `std::set` of pointers to different objects guarantees.
-/
structure Held (heap : List (Timer Cb)) (timers out : List Nat) : Prop where
  sorted : OrderedSet.Sorted (key heap) timers
  out_nodup : out.Nodup
  disjoint : ∀ t ∈ out, t ∉ timers
  lt_length : ∀ t, t ∈ timers ∨ t ∈ out → t < heap.length
  addr_inj : ∀ a b x y, a ∈ timers ∨ a ∈ out → b ∈ timers ∨ b ∈ out
    → heap[a]? = some x → heap[b]? = some y → x.addr = y.addr → a = b

namespace Held

variable {heap : List (Timer Cb)} {timers out : List Nat} {t : Nat} {timer : Timer Cb}

theorem regroup (h : Held heap timers out) {timers' out' : List Nat}
    (hsorted : OrderedSet.Sorted (key heap) timers') (hnodup : out'.Nodup)
    (hdisjoint : ∀ t ∈ out', t ∉ timers')
    (hsplit : ∀ a, (a ∈ timers' ∨ a ∈ out') ↔ (a ∈ timers ∨ a ∈ out))
    : Held heap timers' out' where
  sorted := hsorted
  out_nodup := hnodup
  disjoint := hdisjoint
  lt_length := by
    intro a ha
    apply h.lt_length
    rw [← hsplit]
    exact ha
  addr_inj := by
    intro a b x y ha hb
    rw [hsplit] at ha hb
    exact h.addr_inj a b x y ha hb

theorem pairwise_next (h : Held heap timers out)
    : timers.Pairwise (fun a b => ∃ x y, heap[a]? = some x ∧ heap[b]? = some y
        ∧ (x.m_next < y.m_next ∨ x.m_next = y.m_next ∧ x.addr < y.addr)) := by
  apply List.Pairwise.imp_of_mem _ h.sorted
  intro a b ha hb hlt
  have hx := List.getElem?_eq_getElem (h.lt_length a (.inl ha))
  have hy := List.getElem?_eq_getElem (h.lt_length b (.inl hb))
  rw [key_eq hx, key_eq hy, WithBot.coe_lt_coe, Prod.Lex.toLex_lt_toLex] at hlt
  exact ⟨_, _, hx, hy, hlt⟩

theorem key_ne (h : Held heap timers (t :: out)) : ∀ a ∈ timers, key heap a ≠ key heap t := by
  intro a ha heq
  have halt := h.lt_length a (.inl ha)
  have htlt := h.lt_length t (.inr List.mem_cons_self)
  have hx := List.getElem?_eq_getElem halt
  have hy := List.getElem?_eq_getElem htlt
  rw [key_eq hx, key_eq hy, WithBot.coe_inj, toLex_inj, Prod.mk.injEq] at heq
  have : a = t := h.addr_inj a t _ _ (.inl ha) (.inr List.mem_cons_self) hx hy heq.2
  subst this
  exact h.disjoint a List.mem_cons_self ha

theorem mem_insert (h : Held heap timers (t :: out)) (a : Nat)
    : a ∈ OrderedSet.insert (less heap) t timers ↔ a = t ∨ a ∈ timers :=
  OrderedSet.mem_insert (less_iff heap) h.key_ne

theorem insert (h : Held heap timers (t :: out))
    : Held heap (OrderedSet.insert (less heap) t timers) out := by
  have hnodup := List.nodup_cons.mp h.out_nodup
  apply h.regroup
  . exact OrderedSet.Sorted.insert (less_iff heap) h.sorted h.key_ne
  . exact hnodup.2
  . intro a ha
    rw [h.mem_insert]
    intro hcontra
    rcases hcontra with rfl | hcontra
    . exact hnodup.1 ha
    . exact h.disjoint a (List.mem_cons_of_mem t ha) hcontra
  . intro a
    rw [h.mem_insert, List.mem_cons, or_comm (a := a = t), or_assoc]

theorem takeFront (h : Held heap timers []) (it : Nat)
    : Held heap (timers.drop it) (timers.take it) := by
  have hnodup : (timers.take it ++ timers.drop it).Nodup := by
    rw [List.take_append_drop]
    exact h.sorted.nodup
  rw [List.nodup_append] at hnodup
  apply h.regroup
  . exact h.sorted.sublist (List.drop_sublist _ _)
  . exact hnodup.1
  . intro a ha hcontra
    exact hnodup.2.2 a ha a hcontra rfl
  . intro a
    rw [or_comm, ← List.mem_append, List.take_append_drop]
    simp

theorem update (h : Held heap timers (t :: out)) (ht : heap[t]? = some timer) (timer' : Timer Cb)
    (haddr : timer'.addr = timer.addr) : Held (heap.set t timer') timers (t :: out) := by
  have hnot := h.disjoint t List.mem_cons_self
  have hget : ∀ (a : Nat) (x : Timer Cb), (heap.set t timer')[a]? = some x
      → ∃ y, heap[a]? = some y ∧ x.addr = y.addr := by
    intro a x hx
    rcases heap_set_cases hx with ⟨rfl, rfl⟩ | ⟨-, hx⟩
    . exact ⟨timer, ht, haddr⟩
    . exact ⟨x, hx, rfl⟩
  constructor
  . apply h.sorted.congr
    intro a ha
    apply key_set_ne
    intro heq
    subst heq
    exact hnot ha
  . exact h.out_nodup
  . exact h.disjoint
  . intro a ha
    rw [List.length_set]
    exact h.lt_length a ha
  . intro a b x y ha hb hx hy hxy
    obtain ⟨x', hx', hxaddr⟩ := hget a x hx
    obtain ⟨y', hy', hyaddr⟩ := hget b y hy
    apply h.addr_inj a b x' y' ha hb hx' hy'
    rw [← hxaddr, ← hyaddr, hxy]

theorem ne_of_mem (h : Held heap timers (t :: out)) {a : Nat} (ha : a ∈ timers ∨ a ∈ out)
    : t ≠ a := by
  intro heq
  subst heq
  apply ha.elim
  . apply h.disjoint t List.mem_cons_self
  . exact (List.nodup_cons.mp h.out_nodup).1

theorem drop (h : Held heap timers (t :: out)) : Held (heap.set t timer) timers out := by
  have hsub : ∀ a, a ∈ timers ∨ a ∈ out → a ∈ timers ∨ a ∈ t :: out := by
    intro a ha
    exact ha.imp_right (List.mem_cons_of_mem t)
  constructor
  . apply h.sorted.congr
    intro a ha
    apply key_set_ne
    exact h.ne_of_mem (.inl ha)
  . exact (List.nodup_cons.mp h.out_nodup).2
  . intro a ha
    exact h.disjoint a (List.mem_cons_of_mem t ha)
  . intro a ha
    rw [List.length_set]
    exact h.lt_length a (hsub a ha)
  . intro a b x y ha hb hx hy
    rw [List.getElem?_set_ne (h.ne_of_mem ha)] at hx
    rw [List.getElem?_set_ne (h.ne_of_mem hb)] at hy
    exact h.addr_inj a b x y (hsub a ha) (hsub b hb) hx hy

end Held

structure Inv (heap : List (Timer Cb)) (timers out : List Nat) : Prop where
  sorted : OrderedSet.Sorted (key heap) timers
  out_nodup : out.Nodup
  disjoint : ∀ t ∈ out, t ∉ timers
  lt_length : ∀ t, t ∈ timers ∨ t ∈ out → t < heap.length
  mem_iff : ∀ t timer, heap[t]? = some timer
    → ((t ∈ timers ∨ t ∈ out) ↔ timer.m_cb.isSome = true)
  addr_inj : ∀ a b x y, a ∈ timers ∨ a ∈ out → b ∈ timers ∨ b ∈ out
    → heap[a]? = some x → heap[b]? = some y → x.addr = y.addr → a = b

theorem inv_nil : Inv ([] : List (Timer Cb)) [] [] where
  sorted := List.Pairwise.nil
  out_nodup := List.nodup_nil
  disjoint := by simp
  lt_length := by simp
  mem_iff := by simp
  addr_inj := by simp

namespace Inv

variable {heap : List (Timer Cb)} {timers out : List Nat} {t : Nat} {timer : Timer Cb}

theorem held (h : Inv heap timers out) : Held heap timers out where
  sorted := h.sorted
  out_nodup := h.out_nodup
  disjoint := h.disjoint
  lt_length := h.lt_length
  addr_inj := h.addr_inj

theorem of_held (h : Held heap timers out)
    (hmem : ∀ t timer, heap[t]? = some timer
      → ((t ∈ timers ∨ t ∈ out) ↔ timer.m_cb.isSome = true))
    : Inv heap timers out where
  sorted := h.sorted
  out_nodup := h.out_nodup
  disjoint := h.disjoint
  lt_length := h.lt_length
  mem_iff := hmem
  addr_inj := h.addr_inj

theorem regroup (h : Inv heap timers out) {timers' out' : List Nat} (hheld : Held heap timers' out')
    (hsplit : ∀ a, (a ∈ timers' ∨ a ∈ out') ↔ (a ∈ timers ∨ a ∈ out)) : Inv heap timers' out' := by
  apply of_held hheld
  intro a timer ha
  rw [hsplit]
  exact h.mem_iff a timer ha

theorem find_ok (h : Inv heap timers out) (ht : t ∈ timers)
    : ∃ it, OrderedSet.find (less heap) t timers = some it ∧ timers[it]? = some t :=
  OrderedSet.find_isSome (less_iff heap) h.sorted ht

theorem find_get (h : Inv heap timers []) (ht : heap[t]? = some timer)
    (hcb : timer.m_cb.isSome = true) {it : Nat} (hfind : OrderedSet.find (less heap) t timers = some it)
    : timers[it]? = some t := by
  have hmem : t ∈ timers := by simpa using (h.mem_iff t timer ht).mpr hcb
  obtain ⟨it', hfind', hit⟩ := h.find_ok hmem
  rw [hfind] at hfind'
  injection hfind' with heq
  rw [heq]
  exact hit

theorem erase (h : Inv heap timers out) {it : Nat} (hit : timers[it]? = some t)
    : Inv heap (timers.eraseIdx it) (t :: out) := by
  have hmem : ∀ a, a ∈ timers.eraseIdx it ↔ a ≠ t ∧ a ∈ timers := by
    intro a
    exact OrderedSet.mem_eraseIdx h.sorted hit
  have ht : t ∈ timers := List.mem_of_getElem? hit
  have hsplit : ∀ a, (a ∈ timers.eraseIdx it ∨ a ∈ t :: out) ↔ (a ∈ timers ∨ a ∈ out) := by
    intro a
    rw [hmem, List.mem_cons]
    by_cases hat : a = t
    . subst hat
      simp [ht]
    . simp [hat]
  apply h.regroup _ hsplit
  apply h.held.regroup
  . exact h.sorted.sublist (List.eraseIdx_sublist _ _)
  . rw [List.nodup_cons]
    refine ⟨?_, h.out_nodup⟩
    intro htout
    exact h.disjoint t htout ht
  . intro a ha
    rw [hmem]
    intro hcontra
    rw [List.mem_cons] at ha
    exact h.disjoint a (ha.resolve_left hcontra.1) hcontra.2
  . exact hsplit

theorem insert (h : Inv heap timers (t :: out))
    : Inv heap (OrderedSet.insert (less heap) t timers) out := by
  apply h.regroup h.held.insert
  intro a
  rw [h.held.mem_insert, List.mem_cons, or_comm (a := a = t), or_assoc]

theorem takeFront (h : Inv heap timers []) (it : Nat)
    : Inv heap (timers.drop it) (timers.take it) := by
  apply h.regroup (h.held.takeFront it)
  intro a
  rw [or_comm, ← List.mem_append, List.take_append_drop]
  simp

theorem update (h : Inv heap timers (t :: out)) (ht : heap[t]? = some timer) (timer' : Timer Cb)
    (haddr : timer'.addr = timer.addr) (hcb : timer'.m_cb = timer.m_cb)
    : Inv (heap.set t timer') timers (t :: out) := by
  apply of_held (h.held.update ht timer' haddr)
  intro a x hx
  rcases heap_set_cases hx with ⟨rfl, rfl⟩ | ⟨-, hx⟩
  . rw [hcb]
    exact h.mem_iff t timer ht
  . exact h.mem_iff a x hx

theorem drop (h : Inv heap timers (t :: out))
    : Inv (heap.set t { timer with m_cb := none }) timers out := by
  apply of_held h.held.drop
  intro a x hx
  rcases heap_set_cases hx with ⟨rfl, rfl⟩ | ⟨hat, hx⟩
  . constructor
    . intro ha
      exact absurd rfl (h.held.ne_of_mem ha)
    . intro hcontra
      cases hcontra
  . rw [← h.mem_iff a x hx, List.mem_cons]
    constructor
    . intro ha
      exact ha.imp_right .inr
    . intro ha
      rcases ha with ha | ha | ha
      . exact .inl ha
      . exact absurd ha.symm hat
      . exact .inr ha

theorem push (h : Inv heap timers []) (hcb : timer.m_cb.isSome = true)
    (haddr : ∀ a x, a ∈ timers → heap[a]? = some x → x.addr ≠ timer.addr)
    : Inv (heap ++ [timer]) timers [heap.length] := by
  have hlt : ∀ a ∈ timers, a < heap.length := fun a ha => h.lt_length a (.inl ha)
  have hget : ∀ a, a ∈ timers → (heap ++ [timer])[a]? = heap[a]? := by
    intro a ha
    exact List.getElem?_append_left (hlt a ha)
  have hself : (heap ++ [timer])[heap.length]? = some timer := List.getElem?_concat_length
  constructor
  . apply h.sorted.congr
    intro a ha
    unfold key
    rw [hget a ha]
  . simp
  . intro a ha hcontra
    rw [List.mem_singleton] at ha
    have := hlt a hcontra
    omega
  . intro a ha
    rw [List.length_append, List.length_singleton]
    rcases ha with ha | ha
    . have := hlt a ha
      omega
    . rw [List.mem_singleton] at ha
      omega
  . intro a x hx
    by_cases hnew : a = heap.length
    . subst hnew
      rw [hself] at hx
      injection hx with hx
      subst hx
      simp [hcb]
    . have halt : a < heap.length := by
        have := (List.getElem?_eq_some_iff.mp hx).1
        rw [List.length_append, List.length_singleton] at this
        omega
      rw [List.getElem?_append_left halt] at hx
      rw [← h.mem_iff a x hx]
      simp [hnew]
  . intro a b x y ha hb hx hy hxy
    rw [List.mem_singleton] at ha hb
    rcases ha with ha | rfl
    . rw [hget a ha] at hx
      rcases hb with hb | rfl
      . rw [hget b hb] at hy
        exact h.addr_inj a b x y (.inl ha) (.inl hb) hx hy hxy
      . rw [hself] at hy
        injection hy with hy
        subst hy
        exact absurd hxy (haddr a x ha hx)
    . rw [hself] at hx
      injection hx with hx
      subst hx
      rcases hb with hb | rfl
      . rw [hget b hb] at hy
        exact absurd hxy.symm (haddr b y hb hy)
      . rfl

end Inv

end TimerManager
end CXS
