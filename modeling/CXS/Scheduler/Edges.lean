import CXS.Scheduler.Stopping

namespace CXS
namespace Scheduler

variable {C : Type} {s s' : Scheduler C}

inductive Edge (s : Scheduler C) : Pc C → Pc C → Option (Nat × FiberState) → Prop where
  | take (ft : FiberAndThread C) : Edge s .loop (.taken ft) none
  | toIdle : Edge s .loop .idle none
  | exit : Edge s .loop .exited none
  | noTask (ft : FiberAndThread C) : Edge s (.taken ft) .loop none
  | fiber (ft : FiberAndThread C) (f : Nat) : Edge s (.taken ft) (.swapIn f false) none
  | cbFiber (ft : FiberAndThread C) (f : Nat) : Edge s (.taken ft) (.swapIn f true) (some (f, .INIT))
  | swapIn (f : Nat) (cb : Bool) : Edge s (.swapIn f cb) (.exec f cb) none
  | exec (f : Nat) (cb : Bool) : Edge s (.exec f cb) (.switch f cb) (some (f, .EXEC))
  | switch (f : Nat) (cb : Bool) : Edge s (.switch f cb) (.running f cb) none
  | swapOut (f : Nat) (cb : Bool) : Edge s (.swapOut f cb) (.returned f cb) none
  | returned (f : Nat) (cb : Bool) : Edge s (.returned f cb) (.settle f cb) none
  | ready (f : Nat) (cb : Bool) (h : s.getState f = .READY)
    : Edge s (.settle f cb) (.requeue f cb) none
  | notReady (f : Nat) (cb : Bool) (h : s.getState f ≠ .READY)
    : Edge s (.settle f cb) (.settled f cb) none
  | requeue (f : Nat) (cb : Bool) : Edge s (.requeue f cb) .loop none
  | done (f : Nat) (cb : Bool) : Edge s (.settled f cb) .loop none
  | toReset (f : Nat) (cb : Bool) : Edge s (.settled f cb) (.reset f) none
  | toHold (f : Nat) (cb : Bool) : Edge s (.settled f cb) (.hold f cb) none
  | hold (f : Nat) (cb : Bool) : Edge s (.hold f cb) .loop (some (f, .HOLD))
  | reset (f : Nat) : Edge s (.reset f) .loop (some (f, .INIT))

def stored (s : Scheduler C) (change : Option (Nat × FiberState)) (f : Nat) : FiberState :=
  match change with
  | none => s.getState f
  | some (g, state) => if f = g then state else s.getState f

-- what a step of the worker `w` does to the workers and to the states of the fibers
inductive Goes (s s' : Scheduler C) (w : Nat) : Prop where
  | mk (worker : Worker C) (change : Option (Nat × FiberState))
    (workers : s'.workers = Function.update s.workers w worker)
    (idle_term : worker.idle_term = (s.workers w).idle_term)
    (stopping : s'.m_stopping = s.m_stopping)
    (edge : Edge s (s.workers w).pc worker.pc change)
    (getState : ∀ f, s'.getState f = s.stored change f)

theorem stored_setState (s : Scheduler C) (g : Nat) (state : FiberState) (f : Nat)
    : (s.setState g state).getState f = s.stored (some (g, state)) f :=
  getState_setState s g f state

section Goes

variable {t : Scheduler C} {w : Nat} {pc : Pc C} {change : Option (Nat × FiberState)}

theorem goes_goto {pc' : Pc C} (hpc : (s.workers w).pc = pc) (hedge : Edge s pc pc' change)
    (hworkers : t.workers = s.workers) (hstopping : t.m_stopping = s.m_stopping)
    (hstate : ∀ f, t.getState f = s.stored change f)
    : Goes s (t.goto w pc') w := by
  rw [← hpc] at hedge
  refine ⟨{ t.workers w with pc := pc' }, change, ?_, ?_, hstopping, hedge, hstate⟩
  . unfold goto
    rw [hworkers]
  . rw [hworkers]

theorem goes_release {cb : Bool} (hpc : (s.workers w).pc = pc) (hedge : Edge s pc .loop change)
    (hworkers : t.workers = s.workers) (hstopping : t.m_stopping = s.m_stopping)
    (hstate : ∀ f, t.getState f = s.stored change f)
    : Goes s ((if cb then t.setCbFiber w none else t).goto w .loop) w := by
  cases cb with
  | false => exact goes_goto hpc hedge hworkers hstopping hstate
  | true =>
    rw [← hpc] at hedge
    refine ⟨{ t.workers w with pc := .loop, cb_fiber := none }, change, ?_, ?_, hstopping, hedge, hstate⟩
    . simp [goto, setCbFiber, hworkers]
    . rw [hworkers]

end Goes

theorem dequeue_goes {w : Nat} (hpc : (s.workers w).pc = .loop) : Goes s (s.dequeue w) w := by
  unfold dequeue
  split
  . next it hit =>
    split
    . next ft hft =>
      apply goes_goto hpc (.take ft)
      . rfl
      . rfl
      . intro f
        rfl
    . next hnone =>
      obtain ⟨ft, hft, -⟩ := findIdx?_eligible hit
      rw [hft] at hnone
      cases hnone
  . split
    . apply goes_goto hpc .exit
      . rfl
      . rfl
      . intro f
        rfl
    . apply goes_goto hpc .toIdle
      . rfl
      . rfl
      . intro f
        rfl

theorem dispatch_goes {w : Nat} {ft : FiberAndThread C} (hpc : (s.workers w).pc = .taken ft)
    (h : s.dispatch w ft = .ok s') : Goes s s' w := by
  unfold dispatch at h
  split at h
  . cases h
    apply goes_goto hpc (.fiber ft _)
    . rfl
    . rfl
    . intro f
      rfl
  . split at h
    . obtain ⟨s1, hreset, heq⟩ := Except.map_eq_ok h
      cases heq
      cases resetFiber_eq_ok hreset
      apply goes_goto hpc (.cbFiber ft _)
      . rfl
      . rfl
      . intro g
        rw [stored_setState]
        simp only [stored, getState_setSaved]
    . cases h
      refine ⟨⟨.swapIn s.fiberCount true, some s.fiberCount, (s.workers w).idle_term⟩,
        some (s.fiberCount, .INIT), newFiber_workers s w, rfl, rfl, ?_, ?_⟩
      . rw [hpc]
        exact .cbFiber ft s.fiberCount
      . intro g
        by_cases hg : g = s.fiberCount
        . simp [hg, getState, goto, setCbFiber, newFiber, stored]
        . simp [hg, getState, goto, setCbFiber, newFiber, stored]
  . cases h
    apply goes_goto hpc (.noTask ft)
    . rfl
    . rfl
    . intro f
      rfl

theorem work_goes {w : Nat} (hidle : (s.workers w).pc ≠ .idle) (h : s.work w = .ok s')
    : Goes s s' w := by
  unfold work at h
  split at h
  . next hpc =>
    cases h
    exact dequeue_goes hpc
  . next hpc => exact dispatch_goes hpc h
  . next f cb hpc =>
    split at h
    . cases h
    . cases h
      apply goes_goto hpc (.swapIn f cb)
      . rfl
      . rfl
      . intro g
        rfl
  . next f cb hpc =>
    cases h
    apply goes_goto hpc (.exec f cb)
    . rfl
    . rfl
    . apply stored_setState
  . next f cb hpc =>
    cases h
    apply goes_goto hpc (.switch f cb)
    . rfl
    . rfl
    . intro g
      apply getState_setSaved
  . cases h
  . next f cb hpc =>
    cases h
    apply goes_goto hpc (.swapOut f cb)
    . rfl
    . rfl
    . intro g
      apply getState_setSaved
  . next f cb hpc =>
    cases h
    apply goes_goto hpc (.returned f cb)
    . rfl
    . rfl
    . intro g
      rfl
  . next f cb hpc =>
    cases h
    split
    . next hready =>
      apply goes_goto hpc (.ready f cb hready)
      . rfl
      . rfl
      . intro g
        rfl
    . next hready =>
      apply goes_goto hpc (.notReady f cb hready)
      . rfl
      . rfl
      . intro g
        rfl
  . next f cb hpc =>
    cases h
    obtain ⟨hworkers, -, hfibers, -⟩ := schedule_workers s ⟨some f, none, none⟩
    apply goes_release hpc (.requeue f cb) hworkers
    . unfold schedule
      split <;> rfl
    . intro g
      unfold getState
      rw [hfibers]
      rfl
  . next f cb hpc =>
    split at h
    . cases h
      cases cb with
      | false =>
        apply goes_goto hpc (.done f false)
        . rfl
        . rfl
        . intro g
          rfl
      | true =>
        apply goes_goto hpc (.toReset f true)
        . rfl
        . rfl
        . intro g
          rfl
    . cases h
      apply goes_goto hpc (.toHold f cb)
      . rfl
      . rfl
      . intro g
        rfl
  . next f cb hpc =>
    cases h
    apply goes_release hpc (.hold f cb)
    . rfl
    . rfl
    . apply stored_setState
  . next f hpc =>
    obtain ⟨s1, hreset, heq⟩ := Except.map_eq_ok h
    cases heq
    cases resetFiber_eq_ok hreset
    apply goes_goto hpc (.reset f)
    . rfl
    . rfl
    . intro g
      rw [stored_setState]
      simp only [stored, getState_setSaved]
  . next hpc => exact absurd hpc hidle
  . cases h

theorem Goes.others {w v : Nat} (h : Goes s s' w) (hv : v ≠ w) : s'.workers v = s.workers v := by
  obtain ⟨worker, change, hworkers, -, -, -, -⟩ := h
  rw [hworkers, Function.update_of_ne hv]

def Pc.leaves : Pc C → Bool
  | .idle | .exited => true
  | _ => false

theorem Edge.not_leaves {pc pc' : Pc C} {change : Option (Nat × FiberState)}
    (h : Edge s pc pc' change) (hloop : pc ≠ .loop) : pc'.leaves = false := by
  cases h with
  | take | toIdle | exit => exact absurd rfl hloop
  | _ => rfl

theorem Goes.not_leaves {w : Nat} (h : Goes s s' w) (hloop : (s.workers w).pc ≠ .loop)
    : (s'.workers w).pc.leaves = false := by
  obtain ⟨worker, change, hworkers, -, -, hedge, -⟩ := h
  rw [hworkers, Function.update_self]
  exact hedge.not_leaves hloop

theorem fiberStep_running {w : Nat} {a : FiberStep} (h : s.fiberStep w a = .ok s')
    : ∃ f cb, (s.workers w).pc = .running f cb := by
  unfold fiberStep at h
  split at h
  . next f cb hpc => exact ⟨f, cb, hpc⟩
  . cases h

theorem fiberStep_not_leaves {w : Nat} {a : FiberStep} (h : s.fiberStep w a = .ok s')
    : (s'.workers w).pc.leaves = false := by
  unfold fiberStep at h
  split at h
  . next f cb hpc =>
    cases a with
    | addEvent =>
      simp only at h
      split at h
      . cases h
        dsimp only
        rw [hpc]
        rfl
      . cases h
    | _ =>
      cases h
      simp [goto, Pc.leaves]
  . cases h

def Pc.entered : Pc C → Option Nat
  | .switch f _ | .running f _ => some f
  | _ => none

def Executed (s : Scheduler C) : Prop :=
  ∀ f, s.getState f = .EXEC → ∃ w, (s.workers w).pc.entered = some f

theorem executed_new : (new : Scheduler C).Executed := by
  intro f hf
  cases hf

theorem Executed.move (h : s.Executed) {w : Nat} {worker : Worker C}
    (hworkers : s'.workers = Function.update s.workers w worker)
    (hstate : ∀ f, s'.getState f = .EXEC → s.getState f = .EXEC ∨ worker.pc.entered = some f)
    (hpc : ∀ f, (s.workers w).pc.entered = some f → s'.getState f = .EXEC
      → worker.pc.entered = some f) : s'.Executed := by
  intro f hf
  by_cases hentered : worker.pc.entered = some f
  . refine ⟨w, ?_⟩
    rw [hworkers, Function.update_self]
    exact hentered
  . obtain ⟨v, hv⟩ := h f ((hstate f hf).resolve_right hentered)
    refine ⟨v, ?_⟩
    rw [hworkers, Function.update_of_ne]
    . exact hv
    . intro hvw
      rw [hvw] at hv
      exact hentered (hpc f hv hf)

theorem Executed.congr (h : s.Executed) (hworkers : s'.workers = s.workers)
    (hfibers : s'.fibers = s.fibers) : s'.Executed := by
  unfold Executed getState at h ⊢
  rw [hworkers, hfibers]
  exact h

theorem Edge.entered {pc pc' : Pc C} {change : Option (Nat × FiberState)} (h : Edge s pc pc' change)
    {f : Nat} (hf : pc.entered = some f) : pc'.entered = some f := by
  cases h with
  | switch g cb => exact hf
  | _ => cases hf

theorem Edge.state_EXEC {pc pc' : Pc C} {change : Option (Nat × FiberState)}
    (h : Edge s pc pc' change) {f : Nat} (hf : s.stored change f = .EXEC)
    : s.getState f = .EXEC ∨ pc'.entered = some f := by
  unfold stored at hf
  cases h with
  | exec g cb =>
    simp only at hf
    split at hf
    . next heq =>
      rw [heq]
      exact .inr rfl
    . exact .inl hf
  | cbFiber ft g =>
    simp only at hf
    split at hf
    . cases hf
    . exact .inl hf
  | hold g cb =>
    simp only at hf
    split at hf
    . cases hf
    . exact .inl hf
  | reset g =>
    simp only at hf
    split at hf
    . cases hf
    . exact .inl hf
  | _ => exact .inl hf

theorem Goes.executed {w : Nat} (hgoes : Goes s s' w) (h : s.Executed) : s'.Executed := by
  obtain ⟨worker, change, hworkers, -, -, hedge, hstate⟩ := hgoes
  apply h.move hworkers
  . intro f hf
    rw [hstate] at hf
    exact hedge.state_EXEC hf
  . intro f hf _
    exact hedge.entered hf

theorem fiberStep_executed {w : Nat} {a : FiberStep} (h : s.Executed)
    (hstep : s.fiberStep w a = .ok s') : s'.Executed := by
  unfold fiberStep at hstep
  split at hstep
  . next f cb hpc =>
    have hyield : ∀ state : FiberState, state ≠ .EXEC
        → ((s.setState f state).goto w (.swapOut f cb)).Executed := by
      intro state hne
      apply h.move
      . rfl
      . intro g hg
        left
        change (s.setState f state).getState g = _ at hg
        rw [stored_setState] at hg
        simp only [stored] at hg
        split at hg
        . exact absurd hg hne
        . exact hg
      . intro g hg hexec
        rw [hpc] at hg
        cases hg
        change (s.setState f state).getState f = _ at hexec
        rw [stored_setState] at hexec
        simp only [stored, if_true] at hexec
        exact absurd hexec hne
    cases a with
    | addEvent =>
      simp only at hstep
      split at hstep
      . cases hstep
        exact h.congr rfl rfl
      . cases hstep
    | _ =>
      cases hstep
      apply hyield
      decide
  . cases hstep

theorem newFiber_executed (h : s.Executed) : s.newFiber.Executed := by
  intro f hf
  apply h
  unfold getState newFiber at hf
  by_cases heq : f = s.fiberCount
  . simp [heq] at hf
  . simpa [heq, getState] using hf

section IdleTerm

theorem Goes.idle_term {w v : Nat} (h : Goes s s' w)
    : (s'.workers v).idle_term = (s.workers v).idle_term := by
  by_cases hv : v = w
  . obtain ⟨worker, change, hworkers, hterm, -, -, -⟩ := h
    rw [hv, hworkers, Function.update_self]
    exact hterm
  . rw [h.others hv]

theorem fiberStep_idle_term {w v : Nat} {a : FiberStep} (h : s.fiberStep w a = .ok s')
    : (s'.workers v).idle_term = (s.workers v).idle_term := by
  have hgoto : ∀ (t : Scheduler C) (pc : Pc C), t.workers = s.workers
      → ((t.goto w pc).workers v).idle_term = (s.workers v).idle_term := by
    intro t pc hworkers
    unfold goto
    by_cases hv : v = w
    . simp [hv, hworkers]
    . simp [hv, hworkers]
  unfold fiberStep at h
  split at h
  . cases a with
    | addEvent =>
      simp only at h
      split at h
      . cases h
        rfl
      . cases h
    | _ =>
      cases h
      apply hgoto
      rfl
  . cases h

theorem dequeue_leaves {w : Nat} (hpc : (s.workers w).pc = .loop)
    (h : ((s.dequeue w).workers w).pc.leaves = true)
    : ((s.dequeue w).workers w).pc = if (s.workers w).idle_term then .exited else .idle := by
  unfold dequeue at h ⊢
  split
  . next it hit =>
    split
    . next ft hft =>
      rw [hit] at h
      simp [hft, goto, Pc.leaves] at h
    . next hft =>
      rw [hit] at h
      simp [hft, hpc, Pc.leaves] at h
  . simp [goto]

theorem dequeue_idle {w : Nat} (hpc : (s.workers w).pc = .loop)
    (h : ((s.dequeue w).workers w).pc = .idle) : (s.workers w).idle_term = false := by
  have hleaves := dequeue_leaves hpc (by rw [h]; rfl)
  rw [h] at hleaves
  split at hleaves
  . cases hleaves
  . next hterm => simpa using hterm

theorem dequeue_exited {w : Nat} (hpc : (s.workers w).pc = .loop)
    (h : ((s.dequeue w).workers w).pc = .exited) : (s.workers w).idle_term = true := by
  have hleaves := dequeue_leaves hpc (by rw [h]; rfl)
  rw [h] at hleaves
  split at hleaves
  . next hterm => exact hterm
  . cases hleaves

theorem fiberStep_m_stopping {w : Nat} {a : FiberStep} (h : s.fiberStep w a = .ok s')
    : s'.m_stopping = s.m_stopping := by
  unfold fiberStep at h
  split at h
  . cases a with
    | addEvent =>
      simp only at h
      split at h
      . cases h
        rfl
      . cases h
    | _ =>
      cases h
      rfl
  . cases h

end IdleTerm

section Quiescent

theorem not_holdsReady_of_loop {w : Nat} (h : (s.workers w).pc = .loop) : ¬s.HoldsReady w := by
  unfold HoldsReady
  rw [h]
  exact id

theorem Edge.quiescent {pc pc' : Pc C} {change : Option (Nat × FiberState)} (h : Edge s pc pc' change)
    (hloop : pc ≠ .loop) (hactive : pc.active = false) (hrequeue : ∀ f cb, pc ≠ .requeue f cb)
    (hsettle : ∀ f cb, pc = .settle f cb → s.getState f ≠ .READY)
    : (pc' = .loop ∨ (∃ f cb, pc' = .settled f cb) ∨ (∃ f cb, pc' = .hold f cb) ∨ ∃ f, pc' = .reset f)
      ∧ ∀ f, s.stored change f = .READY → s.getState f = .READY := by
  cases h with
  | take | toIdle | exit => exact absurd rfl hloop
  | noTask | fiber | cbFiber | swapIn | exec | switch | swapOut | returned => cases hactive
  | ready f cb hready => exact absurd hready (hsettle f cb rfl)
  | notReady f cb hne => exact ⟨.inr (.inl ⟨f, cb, rfl⟩), fun _ h => h⟩
  | requeue f cb => exact absurd rfl (hrequeue f cb)
  | done f cb => exact ⟨.inl rfl, fun _ h => h⟩
  | toReset f cb => exact ⟨.inr (.inr (.inr ⟨f, rfl⟩)), fun _ h => h⟩
  | toHold f cb => exact ⟨.inr (.inr (.inl ⟨f, cb, rfl⟩)), fun _ h => h⟩
  | hold f cb =>
    refine ⟨.inl rfl, ?_⟩
    intro g hg
    simp only [stored] at hg
    split at hg
    . cases hg
    . exact hg
  | reset f =>
    refine ⟨.inl rfl, ?_⟩
    intro g hg
    simp only [stored] at hg
    split at hg
    . cases hg
    . exact hg

theorem HoldsReady.of_state {v : Nat} (h : s'.HoldsReady v) (hworker : s'.workers v = s.workers v)
    (hstate : ∀ f, s'.getState f = .READY → s.getState f = .READY) : s.HoldsReady v := by
  unfold HoldsReady at h ⊢
  rw [hworker] at h
  cases hpc : (s.workers v).pc with
  | swapOut f cb | returned f cb | settle f cb =>
    rw [hpc] at h
    exact hstate f h
  | requeue f cb => trivial
  | _ =>
    rw [hpc] at h
    exact h

theorem Quiescent.move (h : s.Quiescent) {w : Nat} {worker : Worker C}
    (hworkers : s'.workers = Function.update s.workers w worker)
    (hqueue : s'.m_fibers = s.m_fibers)
    (hstate : ∀ f, s'.getState f = .READY → s.getState f = .READY)
    (hactive : worker.pc.active = false) (hready : ¬s'.HoldsReady w) : s'.Quiescent := by
  constructor
  . rw [hqueue]
    exact h.queue
  . intro v
    by_cases hv : v = w
    . unfold activeWorkers
      rw [Set.mem_ofPred_eq, hworkers, hv, Function.update_self, hactive]
      decide
    . have hold := h.active v
      unfold activeWorkers at hold ⊢
      rw [Set.mem_ofPred_eq] at hold ⊢
      rw [hworkers, Function.update_of_ne hv]
      exact hold
  . intro v hv
    by_cases hvw : v = w
    . rw [hvw] at hv
      exact hready hv
    . apply h.ready v
      apply hv.of_state _ hstate
      rw [hworkers, Function.update_of_ne hvw]

theorem Quiescent.work (h : s.Quiescent) {w : Nat} (hloop : (s.workers w).pc ≠ .loop)
    (hidle : (s.workers w).pc ≠ .idle) (hwork : s.work w = .ok s') : s'.Quiescent := by
  have hready := h.ready w
  unfold HoldsReady at hready
  have hrequeue : ∀ f cb, (s.workers w).pc ≠ .requeue f cb := by
    intro f cb hpc
    rw [hpc] at hready
    exact hready trivial
  have hsettle : ∀ f cb, (s.workers w).pc = .settle f cb → s.getState f ≠ .READY := by
    intro f cb hpc
    rw [hpc] at hready
    exact hready
  have hactive : (s.workers w).pc.active = false := by
    have hnot := h.active w
    unfold activeWorkers at hnot
    simpa using hnot
  have hqueue : s'.m_fibers = s.m_fibers := by
    rw [work_queue hwork]
    cases hpc : (s.workers w).pc with
    | loop => exact absurd hpc hloop
    | requeue f cb => exact absurd hpc (hrequeue f cb)
    | _ => simp [remaining, dequeued, pushed, hpc]
  obtain ⟨worker, change, hworkers, -, -, hedge, hstate⟩ := work_goes hidle hwork
  obtain ⟨hpc, hstored⟩ := hedge.quiescent hloop hactive hrequeue hsettle
  have hworker : (s'.workers w).pc = worker.pc := by
    rw [hworkers, Function.update_self]
  apply h.move hworkers hqueue
  . intro f hf
    rw [hstate] at hf
    exact hstored f hf
  . rcases hpc with hpc | ⟨f, cb, hpc⟩ | ⟨f, cb, hpc⟩ | ⟨f, hpc⟩ <;> rw [hpc] <;> rfl
  . unfold HoldsReady
    rw [hworker]
    rcases hpc with hpc | ⟨f, cb, hpc⟩ | ⟨f, cb, hpc⟩ | ⟨f, hpc⟩ <;> rw [hpc] <;> exact id

theorem Quiescent.dequeue (h : s.Quiescent) {w : Nat} (hterm : (s.workers w).idle_term = true)
    : (s.dequeue w).Quiescent := by
  have hexited : s.dequeue w = s.goto w .exited := by
    unfold Scheduler.dequeue
    rw [h.queue, hterm]
    rfl
  rw [hexited]
  apply h.move
  . rfl
  . rfl
  . intro f hf
    exact hf
  . rfl
  . simp [HoldsReady, goto]

theorem Quiescent.newFiber (h : s.Quiescent) : s.newFiber.Quiescent := by
  have hworkers : s.newFiber.workers = Function.update s.workers 0 (s.workers 0) := by
    rw [Function.update_eq_self]
    rfl
  have hstate : ∀ f, s.newFiber.getState f = .READY → s.getState f = .READY := by
    intro f hf
    unfold getState Scheduler.newFiber at hf
    by_cases heq : f = s.fiberCount
    . simp [heq] at hf
    . simpa [heq, getState] using hf
  apply h.move hworkers rfl hstate
  . have hnot := h.active 0
    unfold activeWorkers at hnot
    simpa using hnot
  . intro hready
    exact h.ready 0 (hready.of_state rfl hstate)

end Quiescent

end Scheduler
end CXS
