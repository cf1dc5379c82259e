import Mathlib.Data.List.InsertIdx
import Mathlib.Data.List.Perm.Basic
import Mathlib.Data.List.Range

/-!
This module contains the books of a queue from which entries are taken out at any place. Everything
that was ever put on the queue has a number, in the order in which it was put there, and the books
say which numbers are on the queue and who took out the others.
-/

universe u v

structure Ledger (α : Type u) (ω : Type v) where
  tasks : List α
  queued : List Nat
  removed : List (Nat × ω)

namespace Ledger

variable {α : Type u} {ω : Type v}

def empty : Ledger α ω where
  tasks := []
  queued := []
  removed := []

def put (led : Ledger α ω) (as : List α) : Ledger α ω where
  tasks := led.tasks ++ as
  queued := led.queued ++ List.range' led.tasks.length as.length
  removed := led.removed

def take (led : Ledger α ω) (who : ω) (it : Nat) : Ledger α ω :=
  match led.queued[it]? with
  | none => led
  | some n => { led with
      queued := led.queued.eraseIdx it
      removed := led.removed ++ [(n, who)]
    }

@[simp]
theorem take_tasks (led : Ledger α ω) (who : ω) (it : Nat) : (led.take who it).tasks = led.tasks := by
  unfold take
  split
  . rfl
  . rfl

/--
The books are right for `queue`: what was put there is either on the queue, or was taken out once,
and what is on the queue stands in the order in which it was put there.
-/
structure Balanced (led : Ledger α ω) (queue : List α) : Prop where
  perm : (led.removed.map Prod.fst ++ led.queued).Perm (List.range led.tasks.length)
  ordered : led.queued.Pairwise (· < ·)
  content : queue.map some = led.queued.map (led.tasks[·]?)

theorem balanced_empty : (empty : Ledger α ω).Balanced [] where
  perm := .refl _
  ordered := List.Pairwise.nil
  content := rfl

variable {led : Ledger α ω} {queue : List α}

theorem Balanced.queued_lt (h : led.Balanced queue) {n : Nat} (hn : n ∈ led.queued)
    : n < led.tasks.length := by
  rw [← List.mem_range]
  exact h.perm.subset (List.mem_append_right _ hn)

theorem Balanced.put (h : led.Balanced queue) (as : List α)
    : (led.put as).Balanced (queue ++ as) where
  perm := by
    unfold Ledger.put
    dsimp only
    rw [List.length_append, List.range_add, ← List.append_assoc, ← List.range'_eq_map_range]
    exact h.perm.append_right _
  ordered := by
    unfold Ledger.put
    dsimp only
    rw [List.pairwise_append]
    refine ⟨h.ordered, List.pairwise_lt_range', ?_⟩
    intro a ha b hb
    have := h.queued_lt ha
    rw [List.mem_range'_1] at hb
    omega
  content := by
    unfold Ledger.put
    dsimp only
    rw [List.map_append, List.map_append, h.content]
    congr 1
    . apply List.map_congr_left
      intro n hn
      rw [List.getElem?_append_left (h.queued_lt hn)]
    . apply List.ext_getElem
      . simp
      . intro i hi _
        rw [List.length_map] at hi
        simp [hi]

theorem Balanced.take (h : led.Balanced queue) (who : ω) {it : Nat} (hit : it < queue.length)
    : (led.take who it).Balanced (queue.eraseIdx it) := by
  have hlen : queue.length = led.queued.length := by
    have := congrArg List.length h.content
    simpa using this
  have hget := List.getElem?_eq_getElem (hlen ▸ hit : it < led.queued.length)
  unfold Ledger.take
  rw [hget]
  constructor
  . dsimp only
    rw [List.map_append, List.append_assoc]
    apply List.Perm.trans _ h.perm
    apply List.Perm.append_left
    exact List.getElem_cons_eraseIdx_perm _
  . exact h.ordered.sublist (List.eraseIdx_sublist _ _)
  . dsimp only
    rw [← List.eraseIdx_map, ← List.eraseIdx_map, h.content]

end Ledger
