import CXS.Scheduler.Queue

namespace CXS
namespace Scheduler

variable {C : Type}

/--
The thread that each task was scheduled with, carried along with the task: of the tasks on `m_fibers`
and of the last task that each worker took.
-/
structure Pins where
  queued : List (Option Nat)
  held : Nat → Option Nat

def Pins.empty : Pins where
  queued := []
  held := fun _ => none

def Pins.take (pins : Pins) (w it : Nat) : Pins where
  queued := pins.queued.eraseIdx it
  held := Function.update pins.held w pins.queued[it]?.join

def pushedPins (s : Scheduler C) (pins : Pins) : Event C → List (Option Nat)
  | .act (.work w) =>
    match (s.workers w).pc with
    | .requeue _ _ => [pins.held w]
    | _ => []
  | e => (s.pushed e).map FiberAndThread.thread

def eventPins (s : Scheduler C × Pins) (e : Event C) : Except Fault ((Scheduler C × Pins) × Unit) :=
  (s.1.event e).map fun (s', u) =>
    let pins :=
      match s.1.dequeued e with
      | none => s.2
      | some (w, it) => s.2.take w it
    ((s', { pins with queued := pins.queued ++ s.1.pushedPins s.2 e }), u)

def pinned (C : Type) : LTS (Scheduler C × Pins) (Event C × Unit) :=
  LTS.ofExcept eventPins

def RequeuesUnpinned (s : Scheduler C × Pins) (l : Event C × Unit) : Prop :=
  ∀ w f cb, l.1 = .act (.work w) → (s.1.workers w).pc = .requeue f cb → s.2.held w = none

structure PinsKept (s : Scheduler C × Pins) : Prop where
  queued : s.2.queued = s.1.m_fibers.map FiberAndThread.thread
  held : ∀ w t, s.2.held w = some t → w = t

section Step

variable {s s' : Scheduler C × Pins} {e : Event C} {u : Unit}

theorem pushedPins_eq (h : RequeuesUnpinned s (e, u))
    : s.1.pushedPins s.2 e = (s.1.pushed e).map FiberAndThread.thread := by
  unfold pushedPins
  split
  . next w =>
    cases hpc : (s.1.workers w).pc with
    | requeue f cb => simp [pushed, hpc, h w f cb rfl hpc]
    | _ => simp [pushed, hpc]
  . rfl

theorem PinsKept.take (h : PinsKept s) {w it : Nat}
    (hit : s.1.m_fibers.findIdx? (s.1.eligible w) = some it) (v t : Nat)
    (hv : (s.2.take w it).held v = some t) : v = t := by
  obtain ⟨ft, hft, htakes, -⟩ := findIdx?_eligible hit
  unfold Pins.take at hv
  by_cases hvw : v = w
  . subst hvw
    simp only [Function.update_self, h.queued, List.getElem?_map, hft] at hv
    have hthread : ft.thread = some t := hv
    rcases htakes.1 with hnone | hsome
    . rw [hnone] at hthread
      cases hthread
    . rw [hsome] at hthread
      injection hthread
  . simp only [Function.update_of_ne hvw] at hv
    exact h.held v t hv

theorem eventPins_kept (h : PinsKept s) (hcond : RequeuesUnpinned s (e, u))
    (hstep : eventPins s e = .ok (s', u)) : PinsKept s' := by
  obtain ⟨⟨s1, u1⟩, hret, heq⟩ := Except.map_eq_ok hstep
  cases heq
  have hqueue := event_queue hret
  have hpushed := pushedPins_eq hcond
  unfold remaining at hqueue
  constructor
  . dsimp only
    rw [hqueue, hpushed, List.map_append]
    congr 1
    cases s.1.dequeued e with
    | none => exact h.queued
    | some d =>
      simp only [Pins.take, h.queued]
      rw [List.eraseIdx_map]
  . dsimp only
    cases hdequeued : s.1.dequeued e with
    | none => exact h.held
    | some d => exact h.take (dequeued_eq_some hdequeued).2.2

end Step

theorem run_held_by_pinned {es : List (Event C × Unit)} {s : Scheduler C} {pins : Pins}
    (h : ((pinned C).restrict RequeuesUnpinned).Run (new, .empty) es (s, pins))
    : ∀ w t, pins.held w = some t → w = t := by
  have hkept : PinsKept (s, pins) := by
    apply h.invariant (I := PinsKept)
    . intro s l s' hs hstep
      exact eventPins_kept hs hstep.1 hstep.2
    . exact ⟨rfl, by simp [Pins.empty]⟩
  exact hkept.held

theorem run_held_by_pinned_callback
    : let es : List (Event Unit × Unit) :=
        [
          (.act (.schedule ⟨none, some (), some 1⟩), ()),
          (.act (.work 0), ()), (.act (.work 1), ()), (.act (.work 1), ())
        ]
      ∃ (s : Scheduler Unit) (pins : Pins),
        ((pinned Unit).restrict RequeuesUnpinned).Run (new, .empty) es (s, pins)
          ∧ pins.held 1 = some 1 ∧ ∀ w t, pins.held w = some t → w = t := by
  intro es
  have hrun : ∃ s, ((pinned Unit).restrict RequeuesUnpinned).Run (new, .empty) es s
      ∧ s.2.held 1 = some 1 := by
    refine LTS.Run.exists_and_cons ⟨nofun, rfl⟩ ?_
    refine LTS.Run.exists_and_cons ⟨?_, rfl⟩ ?_
    . intro w f cb heq hpc
      cases heq
      cases hpc
    refine LTS.Run.exists_and_cons ⟨?_, rfl⟩ ?_
    . intro w f cb heq hpc
      cases heq
      cases hpc
    refine LTS.Run.exists_and_cons ⟨?_, rfl⟩ ?_
    . intro w f cb heq hpc
      cases heq
      cases hpc
    exact ⟨_, .nil _, rfl⟩
  obtain ⟨⟨s, pins⟩, hrun, hheld⟩ := hrun
  exact ⟨s, pins, hrun, hheld, run_held_by_pinned hrun⟩

theorem yielded_callback_moves
    : let es : List (Event Unit × Unit) :=
        [
          (.act (.schedule ⟨none, some (), some 1⟩), ()),
          (.act (.work 1), ()), (.act (.work 1), ()), (.act (.work 1), ()), (.act (.work 1), ()),
          (.act (.work 1), ()), (.act (.fiber 1 .yieldToReady), ()), (.act (.work 1), ()),
          (.act (.work 1), ()), (.act (.work 1), ()), (.act (.work 1), ()), (.act (.work 0), ()),
          (.act (.work 0), ()), (.act (.work 0), ()), (.act (.work 0), ()), (.act (.work 0), ())
        ]
      ∃ (s : Scheduler Unit) (pins : Pins), (pinned Unit).Run (new, .empty) es (s, pins)
        ∧ (s.workers 0).pc = .running 0 false ∧ pins.held 0 = some 1 := by
  intro es
  have hrun : (pinned Unit).Run (new, .empty) es (_, _) := LTS.run_of_replay rfl
  exact ⟨_, _, hrun, rfl, rfl⟩

end Scheduler
end CXS
