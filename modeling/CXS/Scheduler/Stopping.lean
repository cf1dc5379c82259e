import CXS.Scheduler.Queue

namespace CXS
namespace Scheduler

variable {C : Type} {s s' : Scheduler C}

-- the worker has a fiber that yielded in state `READY` and is not back on the queue
def HoldsReady (s : Scheduler C) (w : Nat) : Prop :=
  match (s.workers w).pc with
  | .swapOut f _ | .returned f _ | .settle f _ => s.getState f = .READY
  | .requeue _ _ => True
  | _ => False

structure Quiescent (s : Scheduler C) : Prop where
  queue : s.m_fibers = []
  active : ∀ w, w ∉ s.activeWorkers
  ready : ∀ w, ¬s.HoldsReady w

structure ReadyGap (s : Scheduler C) : Prop where
  autoStop : s.m_autoStop = true
  stopping : s.m_stopping = true
  queue : s.m_fibers = []
  active : ∀ w, w ∉ s.activeWorkers
  ready : ∃ w, s.HoldsReady w

theorem Counted.count_eq_zero_iff (h : s.Counted)
    : s.m_activeThreadCount = 0 ↔ ∀ w, w ∉ s.activeWorkers := by
  rw [h.count, Set.ncard_eq_zero h.finite]
  exact Set.eq_empty_iff_forall_notMem

theorem Counted.stopping_iff (h : s.Counted)
    : s.stopping = true
      ↔ s.m_autoStop = true ∧ s.m_stopping = true ∧ s.m_fibers = []
        ∧ ∀ w, w ∉ s.activeWorkers := by
  unfold stopping
  rw [Bool.and_eq_true, Bool.and_eq_true, Bool.and_eq_true, List.isEmpty_iff, beq_iff_eq,
    h.count_eq_zero_iff, and_assoc, and_assoc]

theorem run_counted {ls : List (Action C × Unit)} (h : (lts C).Run new ls s) : s.Counted := by
  apply h.invariant _ counted_new
  intro s l t hs hstep
  exact step_counted hs hstep

theorem Counted.quiescent_iff (h : s.Counted)
    : (s.stopping = true → s.Quiescent) ↔ ¬s.ReadyGap := by
  constructor
  . intro hquiet hgap
    have hstop := h.stopping_iff.mpr ⟨hgap.autoStop, hgap.stopping, hgap.queue, hgap.active⟩
    obtain ⟨w, hw⟩ := hgap.ready
    exact (hquiet hstop).ready w hw
  . intro hgap hstop
    obtain ⟨hauto, hstopping, hqueue, hactive⟩ := h.stopping_iff.mp hstop
    refine ⟨hqueue, hactive, ?_⟩
    intro w hw
    exact hgap ⟨hauto, hstopping, hqueue, hactive, w, hw⟩

theorem idle_term_eq {w : Nat} (hpc : (s.workers w).pc = .idle)
    (hstep : s.step (.work w) = .ok (s', ())) : (s'.workers w).idle_term = s.stopping := by
  obtain ⟨s1, hwork, heq⟩ := Except.map_eq_ok hstep
  cases heq
  unfold work at hwork
  rw [hpc] at hwork
  cases hwork
  simp

theorem run_stopping_quiescent_iff {ls : List (Action C × Unit)} (h : (lts C).Run new ls s)
    : ((s.stopping = true → s.Quiescent) ↔ ¬s.ReadyGap)
      ∧ (¬s.ReadyGap → ∀ w s', (s.workers w).pc = .idle → (lts C).step s (.work w, ()) s'
          → (s'.workers w).idle_term = true → s.Quiescent) := by
  have hcounted := run_counted h
  refine ⟨hcounted.quiescent_iff, ?_⟩
  intro hgap w s' hpc hstep hterm
  rw [idle_term_eq hpc hstep] at hterm
  exact hcounted.quiescent_iff.mpr hgap hterm

theorem run_stopping_quiescent_iff_term
    : let ls : List (Action Unit × Unit) :=
        [
          (.newFiber, ()), (.schedule ⟨some 0, none, none⟩, ()), (.work 0, ()), (.work 0, ()),
          (.work 0, ()), (.work 0, ()), (.work 0, ()), (.fiber 0 .term, ()), (.work 0, ()),
          (.work 0, ()), (.stop, ())
        ]
      ∃ s : Scheduler Unit, (lts Unit).Run new ls s ∧ s.stopping = true ∧ ¬s.ReadyGap
        ∧ s.Quiescent := by
  intro ls
  have hrun : (lts Unit).Run new ls _ := LTS.run_of_replay rfl
  obtain ⟨hiff, -⟩ := run_stopping_quiescent_iff hrun
  refine ⟨_, hrun, rfl, ?gap, hiff.mpr ?gap rfl⟩
  intro hgap
  obtain ⟨w, hw⟩ := hgap.ready
  match w, hw with
  | 0, hw => cases hw
  | n + 1, hw => exact hw

theorem stopping_with_ready_fiber
    : ∃ s s' : Scheduler Unit,
        (lts Unit).Run new
          [
            (.newFiber, ()), (.schedule ⟨some 0, none, none⟩, ()), (.work 0, ()), (.work 1, ()),
            (.stop, ()), (.work 0, ()), (.work 0, ()), (.work 0, ()), (.work 0, ()),
            (.fiber 0 .yieldToReady, ()), (.work 0, ()), (.work 0, ())
          ] s
        ∧ s.stopping = true ∧ s.HoldsReady 0 ∧ ¬s.Quiescent
        ∧ (s.workers 1).pc = .idle ∧ (lts Unit).step s (.work 1, ()) s'
        ∧ (s'.workers 1).idle_term = true := by
  refine ⟨_, _, LTS.run_of_replay rfl, rfl, rfl, ?_, rfl, rfl, rfl⟩
  intro hquiet
  exact hquiet.ready 0 rfl

end Scheduler
end CXS
