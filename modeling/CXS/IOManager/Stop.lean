import CXS.IOManager.Tickle

/-!
This module contains when `stop` leaves nothing behind. A worker ends after it has found no timer, no
pending event and an empty queue in `stopping(next_timeout)`. Where there are no worker threads, `stop`
itself decides with `stopping()`, which does not look at the timers.
-/

namespace CXS
def StopPc.decided : StopPc → Bool
  | .calling | .join | .returned => true
  | _ => false

namespace IOWorkers

variable {C : Type} {s s' : IOWorkers C}

def Term (s : IOWorkers C) (w : Nat) : Prop :=
  (s.sched.workers w).idle_term = true

-- no worker is left that would decide once more
structure Over (s : IOWorkers C) : Prop where
  called : s.stopPc ≠ .out
  decided : s.m_threadCount = 0 → s.stopPc.decided = true
  term : ∀ w, s.Started w → s.Term w

structure Quiet (s : IOWorkers C) : Prop where
  sched : s.sched.Quiescent
  pending : s.m_pendingEventCount = 0
  timers : s.timers = 0

/--
What has come since a thread looked: a timer since the worker looked for timers, and an event since
the worker, or the thread in `stop`, looked for pending events.
-/
structure Watch where
  timer : Nat → Bool
  event : Option Nat → Bool

def Watch.next (s : IOWorkers C) (a : Action C) (g : Watch) : Watch :=
  match a with
  | .addTimer _ => { g with timer := fun _ => true }
  | .addEvent _ => { g with event := fun _ => true }
  | .check w =>
    match (s.io w).idle with
    | .entered => { g with timer := Function.update g.timer w false }
    | .noTimer => { g with event := Function.update g.event (some w) false }
    | _ => g
  | .stop =>
    match s.stopPc with
    | .early | .decide => { g with event := Function.update g.event none false }
    | _ => g
  | _ => g

-- no timer, event or task comes between the looks of a `stopping` and its decision that the manager
-- has stopped, nor from outside after the last decision. `stop` itself does not look for timers.
def Undisturbed (p : IOWorkers C × Watch) : Action C → Prop
  | .check w =>
    (p.1.io w).idle = .noEvent → p.1.sched.stopping = true
      → p.2.timer w = false ∧ p.2.event (some w) = false ∧ ∀ v, ¬p.1.sched.HoldsReady v
  | .stop =>
    p.1.m_threadCount = 0 → p.1.stopPc = .earlyEvents ∨ p.1.stopPc = .decideEvents
      → p.1.sched.stopping = true → p.1.timers = 0 ∧ p.2.event none = false
  | .schedule none _ | .scheduleRange none _ | .addTimer none | .addEvent none => ¬p.1.Over
  | _ => True

-- what the threads that look have seen is still so, unless something has come since
structure Seen (s : IOWorkers C) (g : Watch) : Prop where
  timers : ∀ w, (s.io w).idle = .noTimer ∨ (s.io w).idle = .noEvent → g.timer w = false
    → s.timers = 0
  pending : ∀ w, (s.io w).idle = .noEvent → g.event (some w) = false → s.m_pendingEventCount = 0
  stop : s.stopPc = .earlyEvents ∨ s.stopPc = .decideEvents → g.event none = false
    → s.m_pendingEventCount = 0

structure Staged (s : IOWorkers C) : Prop where
  places : s.Places
  counted : s.sched.Counted
  term_out : ∀ w, s.Term w → (s.io w).idle = .out ∧ s.pc w ≠ .idle
  exited_term : ∀ w, s.pc w = .exited → s.Term w
  term_called : ∀ w, s.Term w → s.stopPc ≠ .out
  stopping_called : s.sched.m_stopping = true → s.stopPc ≠ .out
  root : s.m_rootFiber = some .EXEC → s.stopPc = .calling
  init : s.m_rootFiber = some .INIT → ¬s.Term s.m_threadCount
  pool : s.m_threadCount = 0 → s.m_rootFiber ≠ none
  early : s.stopPc = .early ∨ s.stopPc = .earlyEvents → s.m_threadCount = 0
  returned : s.stopPc = .returned → ∀ w, s.Started w → s.Term w

theorem staged_start {threads : Nat} (h : 0 < threads) (use_caller : Bool)
    : (start threads use_caller : IOWorkers C).Staged where
  places := places_start threads use_caller
  counted := Scheduler.counted_new
  term_out := nofun
  exited_term := nofun
  term_called := nofun
  stopping_called := nofun
  root := by
    intro hroot
    cases use_caller <;> cases hroot
  init := nofun
  pool := by
    intro hcount
    cases use_caller with
    | false => exact absurd hcount (Nat.ne_of_gt h)
    | true => nofun
  early := nofun
  returned := nofun

structure Moved (s s' : IOWorkers C) (w : Nat) : Prop where
  count : s'.m_threadCount = s.m_threadCount
  root : s'.m_rootFiber = s.m_rootFiber
  stopPc : s'.stopPc = s.stopPc
  stopping : s'.sched.m_stopping = s.sched.m_stopping
  term : ∀ v, s'.Term v ↔ s.Term v
  pc : ∀ v, v ≠ w → s'.pc v = s.pc v
  io : ∀ v, v ≠ w → s'.io v = s.io v

theorem Moved.started {w : Nat} (h : Moved s s' w) (v : Nat) : s'.Started v ↔ s.Started v := by
  unfold Started
  rw [h.count, h.root]

theorem Staged.moved (h : s.Staged) {w : Nat} (hmoved : Moved s s' w) (hplaces : s'.Places)
    (hcounted : s'.sched.Counted) (hout : s.Term w → (s'.io w).idle = .out ∧ s'.pc w ≠ .idle)
    (hexited : s'.pc w = .exited → s.Term w) : s'.Staged where
  places := hplaces
  counted := hcounted
  term_out := by
    intro v hv
    rw [hmoved.term] at hv
    by_cases hvw : v = w
    . cases hvw
      exact hout hv
    . rw [hmoved.pc v hvw, hmoved.io v hvw]
      exact h.term_out v hv
  exited_term := by
    intro v hv
    rw [hmoved.term]
    by_cases hvw : v = w
    . cases hvw
      exact hexited hv
    . rw [hmoved.pc v hvw] at hv
      exact h.exited_term v hv
  term_called := by
    intro v hv
    rw [hmoved.term] at hv
    rw [hmoved.stopPc]
    exact h.term_called v hv
  stopping_called := by
    rw [hmoved.stopping, hmoved.stopPc]
    exact h.stopping_called
  root := by
    rw [hmoved.root, hmoved.stopPc]
    exact h.root
  init := by
    rw [hmoved.root, hmoved.count, hmoved.term]
    exact h.init
  pool := by
    rw [hmoved.count, hmoved.root]
    exact h.pool
  early := by
    rw [hmoved.stopPc, hmoved.count]
    exact h.early
  returned := by
    intro hret v hv
    rw [hmoved.stopPc] at hret
    rw [hmoved.started] at hv
    rw [hmoved.term]
    exact h.returned hret v hv

theorem Over.of_moved {w : Nat} (hmoved : Moved s s' w) (h : s'.Over) : s.Over := by
  obtain ⟨hcalled, hdecided, hterm⟩ := h
  rw [hmoved.stopPc] at hcalled hdecided
  rw [hmoved.count] at hdecided
  refine ⟨hcalled, hdecided, ?_⟩
  intro v hv
  rw [← hmoved.term]
  exact hterm v ((hmoved.started v).mpr hv)

theorem Staged.not_term (h : s.Staged) {w : Nat} (hidle : (s.io w).idle ≠ .out ∨ s.pc w = .idle)
    : ¬s.Term w := by
  intro hterm
  obtain ⟨hout, hpc⟩ := h.term_out w hterm
  rcases hidle with hidle | hidle
  . exact hidle hout
  . exact hpc hidle

structure Stays (s s' : IOWorkers C) (w : Nat) : Prop extends Moved s s' w where
  out : s.Term w → (s'.io w).idle = .out ∧ s'.pc w ≠ .idle
  exited : s'.pc w = .exited → s.Term w

theorem moved_sched {w : Nat} {t : Scheduler C}
    (hothers : ∀ v, v ≠ w → t.workers v = s.sched.workers v)
    (hterm : ∀ v, (t.workers v).idle_term = (s.sched.workers v).idle_term)
    (hstopping : t.m_stopping = s.sched.m_stopping) (io : Nat → IOWorker)
    (hio : ∀ v, v ≠ w → io v = s.io v) (n : Nat)
    : Moved s { s with sched := t, io, m_idleThreadCount := n } w where
  count := rfl
  root := rfl
  stopPc := rfl
  stopping := hstopping
  term := by
    intro v
    unfold Term
    rw [hterm]
  pc := by
    intro v hv
    unfold IOWorkers.pc
    rw [hothers v hv]
  io := hio

theorem moved_goes {w : Nat} {t : Scheduler C} (hgoes : Scheduler.Goes s.sched t w) (tickling : Bool)
    : Moved s ({ s with sched := t }.setTickling w tickling) w := by
  apply moved_sched
  . intro v hv
    exact hgoes.others hv
  . intro v
    exact hgoes.idle_term
  . obtain ⟨worker, change, -, -, hstopping, -, -⟩ := hgoes
    exact hstopping
  . intro v hv
    simp [hv]

theorem moved_setIdle (s : IOWorkers C) (w : Nat) (idle : IdlePc) (n m : Nat)
    : Moved s ({ s with m_idleThreadCount := n, pipe := m }.setIdle w idle) w where
  count := rfl
  root := rfl
  stopPc := rfl
  stopping := rfl
  term := fun _ => Iff.rfl
  pc := fun _ _ => rfl
  io := by
    intro v hv
    simp [hv]

theorem stays_same (h : s.Staged) {t : Scheduler C} (hworkers : t.workers = s.sched.workers)
    (hstopping : t.m_stopping = s.sched.m_stopping) {w : Nat} {io : Nat → IOWorker}
    (hidle : (io w).idle = (s.io w).idle) (hio : ∀ v, v ≠ w → io v = s.io v)
    (pipe outside timers pending : Nat)
    : Stays s { s with sched := t, io, pipe, outside, timers, m_pendingEventCount := pending } w where
  count := rfl
  root := rfl
  stopPc := rfl
  stopping := hstopping
  term := by
    intro v
    unfold Term
    rw [hworkers]
  pc := by
    intro v _
    unfold IOWorkers.pc
    rw [hworkers]
  io := hio
  out := by
    unfold IOWorkers.pc
    rw [hidle, hworkers]
    exact h.term_out w
  exited := by
    unfold IOWorkers.pc
    rw [hworkers]
    exact h.exited_term w

theorem stays_counts (h : s.Staged) {t : Scheduler C} (hworkers : t.workers = s.sched.workers)
    (hstopping : t.m_stopping = s.sched.m_stopping) (pipe outside timers pending : Nat)
    : ∃ w, Stays s { s with sched := t, pipe, outside, timers, m_pendingEventCount := pending } w :=
  ⟨0, stays_same h hworkers hstopping rfl (fun _ _ => rfl) pipe outside timers pending⟩

theorem tickle_eq (s : IOWorkers C) : ∃ pipe, s.tickle = { s with pipe } := by
  unfold tickle
  split
  . exact ⟨s.pipe, rfl⟩
  . exact ⟨_, rfl⟩

theorem owe_stays (h : s.Staged) {t : Scheduler C} (hworkers : t.workers = s.sched.workers)
    (hstopping : t.m_stopping = s.sched.m_stopping) (caller : Option Nat) (need : Bool)
    : ∃ w, Stays s ({ s with sched := t }.owe caller need) w := by
  cases caller with
  | none => exact stays_counts h hworkers hstopping _ _ _ _
  | some w =>
    refine ⟨w, stays_same h hworkers hstopping ?_ ?_ _ _ _ _⟩
    . simp
    . intro v hv
      simp [hv]

theorem tickle_stays (h : s.Staged) (caller : Option Nat)
    : ∃ w, Stays s (s.paid caller).tickle w := by
  obtain ⟨pipe, hpipe⟩ := tickle_eq (s.paid caller)
  rw [hpipe]
  cases caller with
  | none => exact stays_counts h rfl rfl _ _ _ _
  | some w =>
    refine ⟨w, stays_same h rfl rfl ?_ ?_ _ _ _ _⟩
    . simp [paid]
    . intro v hv
      simp [paid, hv]

theorem dequeue_stays {w : Nat} (hpc : s.pc w = .loop) (hidle : (s.io w).idle = .out)
    (tickling : Bool) : Stays s ({ s with sched := s.sched.dequeue w }.setTickling w tickling) w := by
  refine ⟨moved_goes (Scheduler.dequeue_goes hpc) tickling, ?_, ?_⟩
  . intro hterm
    refine ⟨by simpa using hidle, ?_⟩
    intro hcontra
    have hfalse := Scheduler.dequeue_idle hpc hcontra
    unfold Term at hterm
    rw [hfalse] at hterm
    cases hterm
  . intro hexited
    exact Scheduler.dequeue_exited hpc hexited

theorem stays_of_not_leaves {w : Nat} (hmoved : Moved s s' w) (hidle : (s'.io w).idle = .out)
    (hleaves : (s'.pc w).leaves = false) : Stays s s' w := by
  refine ⟨hmoved, ?_, ?_⟩
  . intro _
    refine ⟨hidle, ?_⟩
    intro hcontra
    rw [hcontra] at hleaves
    cases hleaves
  . intro hcontra
    rw [hcontra] at hleaves
    cases hleaves

theorem stays_of_not_term {w : Nat} (hmoved : Moved s s' w) (hterm : ¬s.Term w)
    (hexited : s'.pc w ≠ .exited) : Stays s s' w :=
  ⟨hmoved, fun h => absurd h hterm, fun h => absurd h hexited⟩

theorem fiber_stays (h : s.Staged) {w : Nat} {a : Scheduler.FiberStep} {t : Scheduler C}
    (hfiber : s.sched.fiberStep w a = .ok t) : Stays s { s with sched := t } w := by
  obtain ⟨worker, hworkers, -⟩ := Scheduler.fiberStep_moves hfiber
  apply stays_of_not_leaves
  . apply moved_sched
    . intro v hv
      rw [hworkers, Function.update_of_ne hv]
    . intro v
      exact Scheduler.fiberStep_idle_term hfiber
    . exact Scheduler.fiberStep_m_stopping hfiber
    . intro v _
      rfl
  . apply h.places.not_idle
    obtain ⟨f, cb, hpc⟩ := Scheduler.fiberStep_running hfiber
    unfold pc
    rw [hpc]
    nofun
  . exact Scheduler.fiberStep_not_leaves hfiber

theorem leave_stays (s : IOWorkers C) (w n : Nat)
    : Stays s ({ s with sched := s.sched.goto w .loop, m_idleThreadCount := n }.setIdle w .out) w := by
  apply stays_of_not_leaves
  . apply moved_sched
    . intro v hv
      simp [Scheduler.goto, hv]
    . intro v
      by_cases hv : v = w
      . simp [Scheduler.goto, hv]
      . simp [Scheduler.goto, hv]
    . rfl
    . intro v hv
      simp [hv]
  . simp
  . simp [pc, Scheduler.goto, Scheduler.Pc.leaves]

theorem schedule_m_stopping (s : Scheduler C) (ft : FiberAndThread C)
    : (s.schedule ft).m_stopping = s.m_stopping := by
  unfold Scheduler.schedule
  split <;> rfl

theorem scheduleRange_m_stopping (s : Scheduler C) (tasks : List (FiberAndThread C))
    : (s.scheduleRange tasks).m_stopping = s.m_stopping := by
  induction tasks generalizing s with
  | nil => rfl
  | cons ft tasks ih =>
    rw [Scheduler.scheduleRange_cons, ih]
    apply schedule_m_stopping

theorem setIdle_stays (h : s.Staged) {w : Nat} (hidle : (s.io w).idle ≠ .out) (idle : IdlePc)
    (n m : Nat) : Stays s ({ s with m_idleThreadCount := n, pipe := m }.setIdle w idle) w := by
  apply stays_of_not_term (moved_setIdle s w idle n m) (h.not_term (.inl hidle))
  change s.pc w ≠ _
  rw [(h.places.placed w).idle hidle]
  nofun

theorem step_stays {a : Action C} (h : s.Staged) (hstep : Step s a s') (hstop : a ≠ .stop)
    : (∃ w, Stays s s' w)
      ∨ ∃ w, a = .check w ∧ s.Started w ∧ (s.io w).idle = .noEvent ∧ s.sched.stopping = true
        ∧ s' = s.endIdle w := by
  cases hstep with
  | @dequeue w hw hidle htickling hpc => exact .inl ⟨w, dequeue_stays hpc hidle _⟩
  | @enterIdle w hw hidle htickling hpc =>
    left
    refine ⟨w, stays_of_not_term (moved_setIdle s w _ _ _) (h.not_term (.inr hpc)) ?_⟩
    change s.pc w ≠ _
    rw [hpc]
    nofun
  | @work w t hw hidle htickling hloop hpc hwork =>
    left
    have hgoes := Scheduler.work_goes hpc hwork
    refine ⟨w, stays_of_not_leaves (moved_goes hgoes _) ?_ (hgoes.not_leaves hloop)⟩
    simpa using hidle
  | fiber hw htickling hfiber => exact .inl ⟨_, fiber_stays h hfiber⟩
  | newFiber =>
    left
    apply stays_counts h
    . rfl
    . rfl
  | @schedule caller ft hcalls hft =>
    left
    apply owe_stays h (Scheduler.schedule_workers s.sched ft).1
    apply schedule_m_stopping
  | @scheduleRange caller tasks hcalls htasks =>
    left
    apply owe_stays h (Scheduler.scheduleRange_spec s.sched tasks).2.1
    apply scheduleRange_m_stopping
  | tickle howes => exact .inl (tickle_stays h _)
  | onTimerInsertedAtFront =>
    left
    obtain ⟨pipe, hpipe⟩ := tickle_eq s
    rw [hpipe]
    exact stays_counts h rfl rfl _ _ _ _
  | addTimer hcalls => exact .inl (stays_counts h rfl rfl _ _ _ _)
  | removeTimer hcalls hpos => exact .inl (stays_counts h rfl rfl _ _ _ _)
  | addEvent hcalls => exact .inl (stays_counts h rfl rfl _ _ _ _)
  | removeEvent hcalls hpos => exact .inl (stays_counts h rfl rfl _ _ _ _)
  | @check _ w hw hcheck =>
    obtain ⟨hchecks, ⟨idle, -, rfl⟩ | ⟨hidle, hstopping, rfl⟩⟩ := check_cases hcheck
    . exact .inl ⟨w, setIdle_stays h hchecks.1 idle _ _⟩
    . exact .inr ⟨w, rfl, hw, hidle, hstopping, rfl⟩
  | @wake w hw hidle tickled hpipe =>
    left
    have hidle : (s.io w).idle ≠ .out := by
      rw [hidle]
      nofun
    exact ⟨w, setIdle_stays h hidle _ _ _⟩
  | @drain w hw hidle htickling =>
    left
    have hidle : (s.io w).idle ≠ .out := by
      rw [hidle]
      nofun
    exact ⟨w, setIdle_stays h hidle _ _ _⟩
  | @leave w hw hidle htickling => exact .inl ⟨w, leave_stays s w _⟩
  | stop hstop' => exact absurd rfl hstop

theorem counted_release {w : Nat} {t : Scheduler C} {worker : Scheduler.Worker C}
    (h : s.sched.Counted) (hpc : s.pc w = .idle)
    (hworkers : t.workers = Function.update s.sched.workers w worker) (hloop : worker.pc = .loop)
    (hcount : t.m_activeThreadCount = s.sched.m_activeThreadCount) : t.Counted := by
  unfold pc at hpc
  apply h.move hworkers
  rw [hpc, hloop, hcount]
  rfl

theorem step_counted {a : Action C} (h : s.Staged) (hstep : Step s a s') : s'.sched.Counted := by
  have hcounted := h.counted
  cases hstep with
  | dequeue hw hidle htickling hpc => exact hcounted.moves (Scheduler.dequeue_moves hpc)
  | work hw hidle htickling hloop hpc hwork =>
    exact hcounted.moves (Scheduler.work_moves hcounted.pos hwork)
  | fiber hw htickling hfiber => exact hcounted.moves (Scheduler.fiberStep_moves hfiber)
  | newFiber => exact hcounted.congr rfl rfl
  | @schedule caller ft hcalls hft =>
    rw [owe_sched]
    exact hcounted.congr (Scheduler.schedule_workers s.sched ft).1 (Scheduler.schedule_count s.sched ft)
  | @scheduleRange caller tasks hcalls htasks =>
    rw [owe_sched]
    obtain ⟨-, hworkers, hcount⟩ := Scheduler.scheduleRange_spec s.sched tasks
    exact hcounted.congr hworkers hcount
  | tickle howes =>
    rw [tickle_sched, paid_sched]
    exact hcounted
  | onTimerInsertedAtFront =>
    rw [tickle_sched]
    exact hcounted
  | @check _ w hw hcheck =>
    obtain ⟨hchecks, ⟨idle, -, rfl⟩ | ⟨hidle, hstopping, rfl⟩⟩ := check_cases hcheck
    . exact hcounted
    . exact counted_release hcounted ((h.places.placed w).idle hchecks.1) rfl rfl rfl
  | @leave w hw hidle htickling =>
    have hpc : s.pc w = .idle := by
      apply (h.places.placed w).idle
      rw [hidle]
      nofun
    exact counted_release hcounted hpc rfl rfl rfl
  | stop hstop => exact hcounted.congr (stop_frame hstop).workers (stop_frame hstop).active
  | _ => exact hcounted

theorem endIdle_term (s : IOWorkers C) (w v : Nat) : (s.endIdle w).Term v ↔ v = w ∨ s.Term v := by
  unfold Term endIdle
  by_cases hv : v = w
  . simp [hv]
  . simp [hv]

theorem endIdle_pc {w v : Nat} (hv : v ≠ w) : (s.endIdle w).pc v = s.pc v := by
  simp [endIdle, pc, hv]

theorem endIdle_staged (h : s.Staged) {w : Nat} (hw : s.Started w) (hstopping : s.sched.stopping = true)
    (hplaces : (s.endIdle w).Places) (hcounted : (s.endIdle w).sched.Counted)
    : (s.endIdle w).Staged where
  places := hplaces
  counted := hcounted
  term_out := by
    intro v hv
    by_cases hvw : v = w
    . rw [hvw]
      simp [endIdle, pc]
    . rw [endIdle_term, or_iff_right hvw] at hv
      obtain ⟨hout, hpc⟩ := h.term_out v hv
      rw [endIdle_pc hvw]
      refine ⟨?_, hpc⟩
      simpa [endIdle, hvw] using hout
  exited_term := by
    intro v hv
    rw [endIdle_term]
    by_cases hvw : v = w
    . exact .inl hvw
    . rw [endIdle_pc hvw] at hv
      exact .inr (h.exited_term v hv)
  term_called := by
    intro v _
    apply h.stopping_called
    simp only [Scheduler.stopping, Bool.and_eq_true] at hstopping
    exact hstopping.1.1.2
  stopping_called := h.stopping_called
  root := h.root
  init := by
    intro hinit hterm
    rw [endIdle_term] at hterm
    rcases hterm with heq | hterm
    . unfold Started at hw
      have hinit : s.m_rootFiber = some .INIT := hinit
      have heq : s.m_threadCount = w := heq
      rw [hinit, heq] at hw
      simp at hw
    . exact h.init hinit hterm
  pool := h.pool
  early := h.early
  returned := by
    intro hret v hv
    rw [endIdle_term]
    exact .inr (h.returned hret v hv)

structure Stage (s : IOWorkers C) (pc : StopPc) (m_rootFiber : Option FiberState) : Prop where
  called : pc ≠ .out
  root : m_rootFiber = some .EXEC → pc = .calling
  init : m_rootFiber = some .INIT → s.m_rootFiber = some .INIT
  pool : m_rootFiber = none → s.m_rootFiber = none
  early : pc = .early ∨ pc = .earlyEvents → s.m_threadCount = 0
  returned : pc = .returned → ∀ w, w < s.m_threadCount → s.Term w

theorem stage_same (h : s.Staged) {pc pc' : StopPc} (hpc : s.stopPc = pc) (hcalling : pc ≠ .calling)
    (hcalled : pc' ≠ .out) (hearly : pc' = .early ∨ pc' = .earlyEvents → s.m_threadCount = 0)
    (hreturned : pc' = .returned → ∀ w, w < s.m_threadCount → s.Term w)
    : Stage s pc' s.m_rootFiber where
  called := hcalled
  root := by
    intro hexec
    rw [← hpc] at hcalling
    exact absurd (h.root hexec) hcalling
  init := id
  pool := id
  early := hearly
  returned := hreturned

theorem stop_stage (h : s.Staged) (hstop : s.stop = some s') : Stage s s'.stopPc s'.m_rootFiber := by
  have hedge := stop_edge hstop
  generalize hpc : s.stopPc = pc at hedge
  generalize s'.stopPc = pc' at hedge ⊢
  generalize s'.m_rootFiber = root at hedge ⊢
  cases hedge with
  | beginEarly hpc' hcount =>
    apply stage_same h hpc
    . rcases hpc' with rfl | rfl <;> nofun
    . nofun
    . intro _
      exact hcount
    . nofun
  | begin hpc' hnot =>
    apply stage_same h hpc
    . rcases hpc' with rfl | rfl <;> nofun
    . nofun
    . nofun
    . nofun
  | earlyNone =>
    apply stage_same h hpc
    . nofun
    . nofun
    . intro _
      exact h.early (.inl hpc)
    . nofun
  | earlyReturn hstopping =>
    apply stage_same h hpc
    . nofun
    . nofun
    . nofun
    . intro _ w hw
      rw [h.early (.inr hpc)] at hw
      omega
  | joined hexited =>
    apply stage_same h hpc
    . nofun
    . nofun
    . nofun
    . intro _ w hw
      exact h.exited_term w (exited_iff.mp (hexited w hw)).2
  | call => exact ⟨nofun, fun _ => rfl, nofun, nofun, nofun, nofun⟩
  | callReturn => exact ⟨nofun, nofun, nofun, nofun, nofun, nofun⟩
  | _ => exact stage_same h hpc nofun nofun nofun nofun

theorem stop_staged (h : s.Staged) (hstop : s.stop = some s') : s'.Staged := by
  have hframe := stop_frame hstop
  have hstage := stop_stage h hstop
  have hpc : ∀ w, s'.pc w = s.pc w := by
    intro w
    unfold pc
    rw [hframe.workers]
  have hterm : ∀ w, s'.Term w ↔ s.Term w := by
    intro w
    unfold Term
    rw [hframe.workers]
  constructor
  . exact stop_places h.places hstop
  . exact h.counted.congr hframe.workers hframe.active
  . intro w hw
    rw [hterm] at hw
    rw [hpc, hframe.io]
    exact h.term_out w hw
  . intro w hw
    rw [hpc] at hw
    rw [hterm]
    exact h.exited_term w hw
  . intro _ _
    exact hstage.called
  . intro _
    exact hstage.called
  . exact hstage.root
  . intro hinit
    rw [hterm, hframe.count]
    exact h.init (hstage.init hinit)
  . intro hcount hroot
    rw [hframe.count] at hcount
    exact h.pool hcount (hstage.pool hroot)
  . rw [hframe.count]
    exact hstage.early
  . rintro hret w (hlt | ⟨-, hexec⟩)
    . rw [hterm]
      rw [hframe.count] at hlt
      exact hstage.returned hret w hlt
    . rw [hstage.root hexec] at hret
      cases hret

theorem step_staged {a : Action C} (h : s.Staged) (hstep : Step s a s') : s'.Staged := by
  have hplaces := step_places h.places hstep
  have hcounted := step_counted h hstep
  by_cases hstop : a = .stop
  . cases hstop
    cases hstep with
    | stop hstop => exact stop_staged h hstop
  . rcases step_stays h hstep hstop with ⟨w, hstays⟩ | ⟨w, -, hw, -, hstopping, rfl⟩
    . exact h.moved hstays.toMoved hplaces hcounted hstays.out hstays.exited
    . exact endIdle_staged h hw hstopping hplaces hcounted

theorem Staged.over_of_returned (h : s.Staged) (hret : s.stopPc = .returned) : s.Over := by
  refine ⟨?_, ?_, h.returned hret⟩
  . rw [hret]
    nofun
  . intro _
    rw [hret]
    rfl

theorem Quiet.not_running (h : s.Quiet) {w f : Nat} {cb : Bool} : s.pc w ≠ .running f cb := by
  intro hpc
  apply h.sched.active w
  unfold pc at hpc
  unfold Scheduler.activeWorkers
  rw [Set.mem_ofPred_eq, hpc]
  rfl

theorem Over.not_calls (h : s.Over) (hstaged : s.Staged) (hquiet : s.Quiet) (w : Nat)
    : ¬s.Calls (some w) := by
  rintro ⟨hw, -, ⟨f, cb, hpc⟩ | ⟨b, hwoken⟩⟩
  . exact hquiet.not_running hpc
  . have hout := (hstaged.term_out w (h.term w hw)).1
    rw [hwoken] at hout
    cases hout

theorem stopping_quiescent (h : s.Staged) (hstopping : s.sched.stopping = true)
    (hready : ∀ v, ¬s.sched.HoldsReady v) : s.sched.Quiescent := by
  obtain ⟨-, -, hqueue, hactive⟩ := h.counted.stopping_iff.mp hstopping
  exact ⟨hqueue, hactive, hready⟩

theorem endIdle_quiet (h : s.Staged) {w : Nat} (hstopping : s.sched.stopping = true)
    (hleft : s.timers = 0 ∧ s.m_pendingEventCount = 0 ∧ ∀ v, ¬s.sched.HoldsReady v)
    : (s.endIdle w).Quiet := by
  refine ⟨?_, hleft.2.1, hleft.1⟩
  apply (stopping_quiescent h hstopping hleft.2.2).move
  . rfl
  . rfl
  . intro f hf
    exact hf
  . rfl
  . apply Scheduler.not_holdsReady_of_loop
    simp [endIdle]

theorem step_quiet {a : Action C} (h : s.Staged) (hover : s.Over) (hquiet : s.Quiet)
    {g : Watch} (hundisturbed : Undisturbed (s, g) a) (hstep : Step s a s') (hstop : a ≠ .stop)
    : s'.Quiet := by
  have hnot : ∀ w, s.Started w → (s.io w).idle = .out ∧ s.pc w ≠ .idle := by
    intro w hw
    exact h.term_out w (hover.term w hw)
  have hcaller : ∀ caller, s.Calls caller → caller = none := by
    intro caller hcalls
    cases caller with
    | none => rfl
    | some w => exact absurd hcalls (hover.not_calls h hquiet w)
  cases hstep with
  | dequeue hw hidle htickling hpc =>
    exact ⟨hquiet.sched.dequeue (hover.term _ hw), hquiet.pending, hquiet.timers⟩
  | enterIdle hw hidle htickling hpc => exact absurd hpc (hnot _ hw).2
  | work hw hidle htickling hloop hpc hwork =>
    exact ⟨hquiet.sched.work hloop hpc hwork, hquiet.pending, hquiet.timers⟩
  | fiber hw htickling hfiber =>
    obtain ⟨f, cb, hpc⟩ := Scheduler.fiberStep_running hfiber
    exact absurd hpc hquiet.not_running
  | newFiber => exact ⟨hquiet.sched.newFiber, hquiet.pending, hquiet.timers⟩
  | schedule hcalls hft =>
    cases hcaller _ hcalls
    exact absurd hover hundisturbed
  | scheduleRange hcalls htasks =>
    cases hcaller _ hcalls
    exact absurd hover hundisturbed
  | @tickle caller howes =>
    obtain ⟨pipe, hpipe⟩ := tickle_eq (s.paid caller)
    rw [hpipe]
    cases caller <;> exact ⟨hquiet.sched, hquiet.pending, hquiet.timers⟩
  | onTimerInsertedAtFront =>
    obtain ⟨pipe, hpipe⟩ := tickle_eq s
    rw [hpipe]
    exact ⟨hquiet.sched, hquiet.pending, hquiet.timers⟩
  | addTimer hcalls =>
    cases hcaller _ hcalls
    exact absurd hover hundisturbed
  | removeTimer hcalls hpos =>
    rw [hquiet.timers] at hpos
    cases hpos
  | addEvent hcalls =>
    cases hcaller _ hcalls
    exact absurd hover hundisturbed
  | removeEvent hcalls hpos =>
    rw [hquiet.pending] at hpos
    cases hpos
  | check hw hcheck => exact absurd (hnot _ hw).1 (check_cases hcheck).1.1
  | wake hw hidle hpipe =>
    rw [(hnot _ hw).1] at hidle
    cases hidle
  | drain hw hidle htickling =>
    rw [(hnot _ hw).1] at hidle
    cases hidle
  | leave hw hidle htickling =>
    rw [(hnot _ hw).1] at hidle
    cases hidle
  | stop hstop' => exact absurd rfl hstop

theorem StopFrame.quiet (hframe : StopFrame s s') (h : s.Quiet) : s'.Quiet := by
  refine ⟨?_, hframe.pending.trans h.pending, hframe.timers.trans h.timers⟩
  have hworkers : s'.sched.workers = Function.update s.sched.workers 0 (s.sched.workers 0) := by
    rw [hframe.workers, Function.update_eq_self]
  have hstate : ∀ f, s'.sched.getState f = .READY → s.sched.getState f = .READY := by
    unfold Scheduler.getState
    rw [hframe.fibers]
    intro f hf
    exact hf
  apply h.sched.move hworkers hframe.queue hstate
  . have hnot := h.sched.active 0
    unfold Scheduler.activeWorkers at hnot
    simpa using hnot
  . intro hready
    apply h.sched.ready 0
    exact hready.of_state (by rw [hframe.workers]) hstate

theorem decide_quiet (h : s.Staged) (hcount : s.m_threadCount = 0) (hcalling : s.stopPc ≠ .calling)
    (hstopping : s.sched.stopping = true)
    (hleft : s.timers = 0 ∧ s.m_pendingEventCount = 0) : s.Quiet := by
  refine ⟨stopping_quiescent h hstopping ?_, hleft.2, hleft.1⟩
  intro v hv
  rcases (h.places.placed v).started with (hlt | ⟨-, hexec⟩) | ⟨-, hpc | hpc⟩
  . omega
  . exact hcalling (h.root hexec)
  . exact Scheduler.not_holdsReady_of_loop hpc hv
  . unfold pc at hpc
    unfold Scheduler.HoldsReady at hv
    rw [hpc] at hv
    exact hv

theorem Over.of_stop (h : s.Staged) (hstop : s.stop = some s') (hover : s'.Over)
    (hcalled : s.stopPc ≠ .out) (hdecided : s.m_threadCount = 0 → s.stopPc.decided = true)
    : s.Over := by
  have hframe := stop_frame hstop
  refine ⟨hcalled, hdecided, ?_⟩
  have hterm : ∀ w, s'.Started w → s.Term w := by
    intro w hw
    have hw' := hover.term w hw
    unfold Term at hw' ⊢
    rw [hframe.workers] at hw'
    exact hw'
  unfold Started at hterm
  rw [hframe.count] at hterm
  rintro w (hlt | ⟨heq, hexec⟩)
  . exact hterm w (.inl hlt)
  . rcases stop_root hstop hexec with hroot | hexited
    . exact hterm w (.inr ⟨heq, hroot⟩)
    . rw [← heq] at hexited
      exact h.exited_term w (exited_iff.mp hexited).2

theorem stop_quiet_threads (h : s.Staged) (hquiet : s.Over → s.Quiet) (hcount : s.m_threadCount ≠ 0)
    (hstop : s.stop = some s') (hover : s'.Over) : s.Quiet := by
  have hframe := stop_frame hstop
  apply hquiet
  apply hover.of_stop h hstop
  . apply h.term_called 0
    have hterm : s'.Term 0 := by
      apply hover.term
      left
      rw [hframe.count]
      exact Nat.pos_of_ne_zero hcount
    unfold Term at hterm ⊢
    rw [hframe.workers] at hterm
    exact hterm
  . intro hcontra
    exact absurd hcontra hcount

theorem stop_quiet_caller (h : s.Staged) (hquiet : s.Over → s.Quiet) {g : Watch}
    (hseen : Seen s g) (hundisturbed : Undisturbed (s, g) .stop) (hcount : s.m_threadCount = 0) (hstop : s.stop = some s')
    (hover : s'.Over) : s.Quiet := by
  have hframe := stop_frame hstop
  have hedge := stop_edge hstop
  have hdecided := hover.decided (hframe.count.trans hcount)
  have hof : s.stopPc ≠ .out → s.stopPc.decided = true → s.Quiet := by
    intro hcalled hdec
    exact hquiet (hover.of_stop h hstop hcalled fun _ => hdec)
  have hinit : s.m_rootFiber = some .INIT → s'.m_rootFiber ≠ some .EXEC := by
    intro hroot hexec
    apply h.init hroot
    have hterm : s'.Term s.m_threadCount := hover.term _ (.inr ⟨hframe.count.symm, hexec⟩)
    unfold Term at hterm ⊢
    rw [hframe.workers] at hterm
    exact hterm
  generalize hpc : s.stopPc = pc at hedge hof
  generalize s'.stopPc = pc' at hedge hdecided
  generalize s'.m_rootFiber = root at hedge hinit
  cases hedge with
  | earlyReturn hstopping =>
    obtain ⟨htimers, hevent⟩ := hundisturbed hcount (.inl hpc) hstopping
    apply decide_quiet h hcount _ hstopping ⟨htimers, hseen.stop (.inl hpc) hevent⟩
    rw [hpc]
    nofun
  | decideStopped hstopping =>
    obtain ⟨htimers, hevent⟩ := hundisturbed hcount (.inr hpc) hstopping
    apply decide_quiet h hcount _ hstopping ⟨htimers, hseen.stop (.inr hpc) hevent⟩
    rw [hpc]
    nofun
  | toJoin hroot => exact absurd hroot (h.pool hcount)
  | call _ hroot => exact absurd rfl (hinit hroot)
  | callReturn hexited => exact hof nofun rfl
  | joined hexited => exact hof nofun rfl
  | _ => cases hdecided

theorem step_over_quiet {a : Action C} (h : s.Staged) (hquiet : s.Over → s.Quiet) {g : Watch}
    (hseen : Seen s g) (hundisturbed : Undisturbed (s, g) a) (hstep : Step s a s') (hover : s'.Over)
    : s'.Quiet := by
  by_cases hstop : a = .stop
  . cases hstop
    cases hstep with
    | stop hstop =>
      apply (stop_frame hstop).quiet
      by_cases hcount : s.m_threadCount = 0
      . exact stop_quiet_caller h hquiet hseen hundisturbed hcount hstop hover
      . exact stop_quiet_threads h hquiet hcount hstop hover
  . rcases step_stays h hstep hstop with ⟨w, hstays⟩ | ⟨w, rfl, -, hidle, hstopping, rfl⟩
    . have hover := hover.of_moved hstays.toMoved
      exact step_quiet h hover (hquiet hover) hundisturbed hstep hstop
    . obtain ⟨htimer, hevent, hready⟩ := hundisturbed hidle hstopping
      have htimers := hseen.timers w (.inr hidle) htimer
      have hpending := hseen.pending w hidle hevent
      exact endIdle_quiet h hstopping ⟨htimers, hpending, hready⟩

theorem Seen.keep {g : Watch} (h : Seen s g)
    (hidle : ∀ w, (s'.io w).idle = .noTimer ∨ (s'.io w).idle = .noEvent
      → (s'.io w).idle = (s.io w).idle)
    (hstop : s'.stopPc = .earlyEvents ∨ s'.stopPc = .decideEvents → s'.stopPc = s.stopPc)
    (htimers : s'.timers ≤ s.timers) (hpending : s'.m_pendingEventCount ≤ s.m_pendingEventCount)
    : Seen s' g := by
  constructor
  . intro w hw hlook
    have hsame := hidle w hw
    rw [hsame] at hw
    have := h.timers w hw hlook
    omega
  . intro w hw hlook
    have hsame := hidle w (.inr hw)
    rw [hsame] at hw
    have := h.pending w hw hlook
    omega
  . intro hpc hlook
    have hsame := hstop hpc
    rw [hsame] at hpc
    have := h.stop hpc hlook
    omega

theorem Seen.same {g : Watch} (h : Seen s g) (hidle : ∀ w, (s'.io w).idle = (s.io w).idle)
    (hstop : s'.stopPc = s.stopPc) (htimers : s'.timers ≤ s.timers)
    (hpending : s'.m_pendingEventCount ≤ s.m_pendingEventCount) : Seen s' g :=
  h.keep (fun w _ => hidle w) (fun _ => hstop) htimers hpending

theorem Seen.setIdle {g : Watch} (h : Seen s g) {w : Nat} {idle : IdlePc}
    (hio : s'.io = Function.update s.io w { s.io w with idle })
    (hidle : idle ≠ .noTimer ∧ idle ≠ .noEvent) (hstop : s'.stopPc = s.stopPc)
    (htimers : s'.timers = s.timers) (hpending : s'.m_pendingEventCount = s.m_pendingEventCount)
    : Seen s' g := by
  apply h.keep _ (fun _ => hstop) (Nat.le_of_eq htimers) (Nat.le_of_eq hpending)
  intro v hv
  rw [hio] at hv ⊢
  by_cases hvw : v = w
  . rw [hvw, Function.update_self] at hv
    rcases hv with hv | hv
    . exact absurd hv hidle.1
    . exact absurd hv hidle.2
  . rw [Function.update_of_ne hvw]

theorem Seen.owe {g : Watch} (h : Seen s g) (t : Scheduler C) (caller : Option Nat) (need : Bool)
    : Seen ({ s with sched := t }.owe caller need) g := by
  cases caller with
  | none => exact h.same (fun _ => rfl) rfl (Nat.le_refl _) (Nat.le_refl _)
  | some w =>
    apply h.same
    . intro v
      by_cases hv : v = w
      . simp [IOWorkers.owe, hv]
      . simp [IOWorkers.owe, hv]
    . rfl
    . exact Nat.le_refl _
    . exact Nat.le_refl _

theorem check_seen {g : Watch} (h : Seen s g) {w : Nat} (hcheck : s.check w = some s')
    : Seen s' (g.next s (.check w)) := by
  unfold check at hcheck
  unfold Watch.next
  dsimp only
  split at hcheck
  . next hentered =>
    cases hcheck
    rw [hentered]
    constructor
    . intro v hv hlook
      by_cases hvw : v = w
      . subst hvw
        simp only [setIdle_io, Function.update_self] at hv
        split at hv
        . next htimers => exact htimers
        . rcases hv with hv | hv
          . cases hv
          . cases hv
      . simp only [setIdle_io, Function.update_of_ne hvw] at hv
        dsimp only at hlook
        rw [Function.update_of_ne hvw] at hlook
        exact h.timers v hv hlook
    . intro v hv hlook
      by_cases hvw : v = w
      . subst hvw
        simp only [setIdle_io, Function.update_self] at hv
        split at hv
        . cases hv
        . cases hv
      . simp only [setIdle_io, Function.update_of_ne hvw] at hv
        exact h.pending v hv hlook
    . exact h.stop
  . next hnoTimer =>
    cases hcheck
    rw [hnoTimer]
    constructor
    . intro v hv hlook
      by_cases hvw : v = w
      . subst hvw
        exact h.timers v (.inl hnoTimer) hlook
      . simp only [setIdle_io, Function.update_of_ne hvw] at hv
        exact h.timers v hv hlook
    . intro v hv hlook
      by_cases hvw : v = w
      . subst hvw
        simp only [setIdle_io, Function.update_self] at hv
        split at hv
        . next hpending => exact hpending
        . cases hv
      . simp only [setIdle_io, Function.update_of_ne hvw] at hv
        dsimp only at hlook
        rw [Function.update_of_ne (by simpa using hvw)] at hlook
        exact h.pending v hv hlook
    . intro hpc hlook
      dsimp only at hlook
      rw [Function.update_of_ne (Option.some_ne_none w).symm] at hlook
      exact h.stop hpc hlook
  . next hnoEvent =>
    rw [hnoEvent]
    split at hcheck
    . cases hcheck
      apply h.setIdle
      . rfl
      . exact ⟨nofun, nofun⟩
      . rfl
      . rfl
      . rfl
    . cases hcheck
      apply h.setIdle
      . rfl
      . exact ⟨nofun, nofun⟩
      . rfl
      . rfl
      . rfl
  . cases hcheck

theorem stop_seen {g : Watch} (h : Seen s g) (hstop : s.stop = some s')
    : Seen s' (g.next s .stop) := by
  have hframe := stop_frame hstop
  have hedge := stop_edge hstop
  have hlooks : ∀ w, (g.next s .stop).timer w = g.timer w
      ∧ (g.next s .stop).event (some w) = g.event (some w) := by
    intro w
    unfold Watch.next
    dsimp only
    split
    . exact ⟨rfl, by simp⟩
    . exact ⟨rfl, by simp⟩
    . exact ⟨rfl, rfl⟩
  constructor
  . intro w hw hlook
    rw [hframe.io] at hw
    rw [(hlooks w).1] at hlook
    rw [hframe.timers]
    exact h.timers w hw hlook
  . intro w hw hlook
    rw [hframe.io] at hw
    rw [(hlooks w).2] at hlook
    rw [hframe.pending]
    exact h.pending w hw hlook
  . intro hpc' _
    rw [hframe.pending]
    generalize s.stopPc = pc at hedge
    generalize s'.stopPc = pc' at hedge hpc'
    generalize s'.m_rootFiber = root at hedge
    cases hedge with
    | earlyNone hpending => exact hpending
    | decideNone hpending => exact hpending
    | _ =>
      rcases hpc' with hpc' | hpc'
      . cases hpc'
      . cases hpc'

theorem step_seen {a : Action C} {g : Watch} (h : Seen s g) (hstep : Step s a s')
    : Seen s' (g.next s a) := by
  cases hstep with
  | @dequeue w hw hidle htickling hpc =>
    apply h.same
    . intro v
      by_cases hv : v = w
      . simp [hv]
      . simp [hv]
    . rfl
    . exact Nat.le_refl _
    . exact Nat.le_refl _
  | @enterIdle w hw hidle htickling hpc =>
    apply h.setIdle
    . rfl
    . decide
    . rfl
    . rfl
    . rfl
  | @work w t hw hidle htickling hloop hpc hwork =>
    apply h.same
    . intro v
      by_cases hv : v = w
      . simp [hv]
      . simp [hv]
    . rfl
    . exact Nat.le_refl _
    . exact Nat.le_refl _
  | fiber hw htickling hfiber => exact h.same (fun _ => rfl) rfl (Nat.le_refl _) (Nat.le_refl _)
  | newFiber => exact h.same (fun _ => rfl) rfl (Nat.le_refl _) (Nat.le_refl _)
  | @schedule caller ft hcalls hft => exact h.owe _ caller _
  | @scheduleRange caller tasks hcalls htasks => exact h.owe _ caller _
  | @tickle caller howes =>
    obtain ⟨pipe, hpipe⟩ := tickle_eq (s.paid caller)
    rw [hpipe]
    cases caller with
    | none => exact h.same (fun _ => rfl) rfl (Nat.le_refl _) (Nat.le_refl _)
    | some w =>
      apply h.same
      . intro v
        by_cases hv : v = w
        . simp [paid, hv]
        . simp [paid, hv]
      . rfl
      . exact Nat.le_refl _
      . exact Nat.le_refl _
  | onTimerInsertedAtFront =>
    obtain ⟨pipe, hpipe⟩ := tickle_eq s
    rw [hpipe]
    exact h.same (fun _ => rfl) rfl (Nat.le_refl _) (Nat.le_refl _)
  | addTimer hcalls => exact ⟨fun _ _ hg => Bool.noConfusion hg, h.pending, h.stop⟩
  | removeTimer hcalls hpos => exact h.same (fun _ => rfl) rfl (Nat.sub_le _ _) (Nat.le_refl _)
  | addEvent hcalls =>
    exact ⟨h.timers, fun _ _ hg => Bool.noConfusion hg, fun _ hg => Bool.noConfusion hg⟩
  | removeEvent hcalls hpos => exact h.same (fun _ => rfl) rfl (Nat.le_refl _) (Nat.sub_le _ _)
  | check hw hcheck => exact check_seen h hcheck
  | @wake w hw hidle tickled hpipe =>
    apply h.setIdle
    . rfl
    . constructor
      . intro h
        cases h
      . intro h
        cases h
    . rfl
    . rfl
    . rfl
  | @drain w hw hidle htickling =>
    apply h.setIdle
    . rfl
    . decide
    . rfl
    . rfl
    . rfl
  | @leave w hw hidle htickling =>
    apply h.setIdle
    . rfl
    . decide
    . rfl
    . rfl
    . rfl
  | stop hstop => exact stop_seen h hstop

theorem seen_start (threads : Nat) (use_caller : Bool) (g : Watch)
    : Seen (start threads use_caller : IOWorkers C) g :=
  ⟨fun _ _ _ => rfl, fun _ _ _ => rfl, fun _ _ => rfl⟩

theorem run_stop_returned {threads : Nat} (hthreads : 0 < threads) {use_caller : Bool}
    {as : List (Action C)} {g g' : Watch}
    (h : (((lts C).observe Watch.next).restrict Undisturbed).Run (start threads use_caller, g) as
      (s, g'))
    (hreturned : s.stopPc = .returned)
    : s.sched.m_fibers = [] ∧ s.m_pendingEventCount = 0 ∧ s.timers = 0 := by
  have hinv : s.Staged ∧ (s.Over → s.Quiet) ∧ Seen s g' := by
    apply h.invariant
      (I := fun p : IOWorkers C × Watch => p.1.Staged ∧ (p.1.Over → p.1.Quiet) ∧ Seen p.1 p.2)
    . rintro ⟨s, g⟩ a ⟨t, g'⟩ ⟨hstaged, hquiet, hseen⟩ ⟨hundisturbed, hstep, hnext⟩
      cases hnext
      refine ⟨step_staged hstaged hstep, ?_, step_seen hseen hstep⟩
      exact step_over_quiet hstaged hquiet hseen hundisturbed hstep
    . refine ⟨staged_start hthreads use_caller, ?_, seen_start threads use_caller g⟩
      intro hover
      exact absurd rfl hover.called
  obtain ⟨hstaged, hquiet, -⟩ := hinv
  have hquiet := hquiet (hstaged.over_of_returned hreturned)
  exact ⟨hquiet.sched.queue, hquiet.pending, hquiet.timers⟩

theorem run_stop_returned_cancelled
    : ∃ (s : IOWorkers Unit) (g : Watch),
        (((lts Unit).observe Watch.next).restrict Undisturbed).Run
          (start 1 true, ⟨fun _ => true, fun _ => true⟩)
          [.addTimer none, .removeTimer none, .stop, .stop, .stop] (s, g)
        ∧ s.stopPc = .returned ∧ s.sched.m_fibers = [] ∧ s.m_pendingEventCount = 0
        ∧ s.timers = 0 := by
  have hstep : ∀ {s t : IOWorkers Unit} {a : Action Unit} {g : Watch}, Undisturbed (s, g) a
      → Step s a t
      → (((lts Unit).observe Watch.next).restrict Undisturbed).step (s, g) a (t, g.next s a) :=
    fun hundisturbed hstep => ⟨hundisturbed, hstep, rfl⟩
  have hrun : ∃ p : IOWorkers Unit × Watch,
      (((lts Unit).observe Watch.next).restrict Undisturbed).Run
        (start 1 true, ⟨fun _ => true, fun _ => true⟩)
        [.addTimer none, .removeTimer none, .stop, .stop, .stop] p
      ∧ p.1.stopPc = .returned := by
    refine LTS.Run.exists_and_cons (hstep (fun h => h.called rfl) (.addTimer trivial)) ?_
    refine LTS.Run.exists_and_cons (hstep trivial (.removeTimer trivial (Nat.succ_pos 0))) ?_
    refine LTS.Run.exists_and_cons (hstep (fun _ h => ?_) (.stop rfl)) ?_
    . rcases h with h | h <;> cases h
    refine LTS.Run.exists_and_cons (hstep (fun _ h => ?_) (.stop rfl)) ?_
    . rcases h with h | h <;> cases h
    refine LTS.Run.exists_and_cons (hstep (fun _ _ _ => ⟨rfl, rfl⟩) (.stop rfl)) ?_
    exact ⟨_, .nil _, rfl⟩
  obtain ⟨⟨s, g⟩, hrun, hreturned⟩ := hrun
  exact ⟨s, g, hrun, hreturned, run_stop_returned (by decide) hrun hreturned⟩

theorem stop_leaves_timer
    : ∃ s : IOWorkers Unit,
        (lts Unit).Run (start 1 true) [.addTimer none, .stop, .stop, .stop] s
        ∧ s.stopPc = .returned ∧ s.timers = 1 := by
  refine LTS.Run.exists_and_cons (Step.addTimer trivial) ?_
  refine LTS.Run.exists_and_cons (Step.stop rfl) ?_
  refine LTS.Run.exists_and_cons (Step.stop rfl) ?_
  refine LTS.Run.exists_and_cons (Step.stop rfl) ?_
  exact ⟨_, .nil _, rfl, rfl⟩

end IOWorkers
end CXS
