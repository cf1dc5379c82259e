import CXS.IOManager.Workers

/-!
This module contains when the wake-up of a blocked worker gets lost. `tickle` returns without a byte
for the pipe if there are idle threads, which is when the byte would be needed. What else the
workers do is right: as long as no byte is missing, a task on the queue never has only blocked workers
and an empty pipe.
-/

namespace CXS
namespace IOWorkers

variable {C : Type} {s s' : IOWorkers C}

def Rescans (s : IOWorkers C) (w : Nat) : Prop :=
  s.Started w
    ∧ ((∃ b, (s.io w).idle = .woken b) ∨ (s.io w).idle = .out ∧ (s.pc w).leaves = false)

def Covered (s : IOWorkers C) : Prop :=
  s.sched.m_fibers ≠ []
    → 0 < s.pipe ∨ 0 < s.outside ∨ ∃ w, (s.io w).tickling = true ∨ s.Rescans w

-- `tickle` does not take its early return, or nobody needs the byte
def Heard (s : IOWorkers C) : Action C → Prop
  | .tickle _ =>
    s.hasIdleThreads = true → s.pipe = 0 → s.sched.m_fibers ≠ [] → ∃ w, s.Rescans w
  | _ => True

theorem Rescans.covered {w : Nat} (h : s.Rescans w) : s.Covered := by
  intro _
  exact .inr (.inr ⟨w, .inr h⟩)

theorem Rescans.congr {w : Nat} (h : s.Rescans w) (hcount : s'.m_threadCount = s.m_threadCount)
    (hroot : s'.m_rootFiber = s.m_rootFiber) (hpc : s'.pc w = s.pc w)
    (hidle : (s'.io w).idle = (s.io w).idle) : s'.Rescans w := by
  unfold Rescans Started at h ⊢
  rw [hcount, hroot, hpc, hidle]
  exact h

theorem Covered.mono (h : s.Covered) (hqueue : s'.sched.m_fibers = s.sched.m_fibers)
    (hpipe : s.pipe ≤ s'.pipe) (houtside : s.outside ≤ s'.outside)
    (hworkers : ∀ w, (s.io w).tickling = true ∨ s.Rescans w
      → (s'.io w).tickling = true ∨ s'.Rescans w) : s'.Covered := by
  intro hne
  rw [hqueue] at hne
  rcases h hne with hpos | hpos | ⟨w, hw⟩
  . exact .inl (Nat.lt_of_lt_of_le hpos hpipe)
  . exact .inr (.inl (Nat.lt_of_lt_of_le hpos houtside))
  . exact .inr (.inr ⟨w, hworkers w hw⟩)

theorem Covered.setIdle (h : s.Covered) (hplaces : s.Places) {w : Nat} {idle : IdlePc}
    (hout : (s.io w).idle = .out → s.pc w = .idle ∧ (s.io w).tickling = false)
    (hwoken : ∀ b, (s.io w).idle ≠ .woken b) : (s.setIdle w idle).Covered := by
  apply h.mono
  . rfl
  . apply Nat.le_refl
  . apply Nat.le_refl
  . intro v hv
    by_cases hvw : v = w
    . rw [hvw] at hv
      exfalso
      rcases hv with htickling | ⟨-, ⟨b, hb⟩ | ⟨hidle, hpc⟩⟩
      . rcases (hplaces.placed w).tickling htickling with hidle | ⟨b, hb⟩
        . rw [(hout hidle).2] at htickling
          cases htickling
        . exact hwoken b hb
      . exact hwoken b hb
      . rw [(hout hidle).1] at hpc
        cases hpc
    . have hio : (s.setIdle w idle).io v = s.io v := by simp [hvw]
      rw [hio]
      apply hv.imp_right
      intro hrescans
      apply hrescans.congr
      . rfl
      . rfl
      . rfl
      . rw [hio]

theorem Places.rescans (h : s.Places) {w : Nat} (hloop : s.pc w ≠ .loop)
    (hpc : (s.pc w).leaves = false) : s.Rescans w := by
  have hidle : (s.io w).idle = .out := by
    apply h.not_idle
    intro hcontra
    rw [hcontra] at hpc
    cases hpc
  refine ⟨?_, .inr ⟨hidle, hpc⟩⟩
  rcases (h.placed w).started with hstarted | ⟨-, hcontra | hcontra⟩
  . exact hstarted
  . exact absurd hcontra hloop
  . rw [hcontra] at hpc
    cases hpc

theorem exists_entered (h : s.Places) {w : Nat} (hne : s.sched.m_fibers ≠ [])
    (htickle : s.sched.tickleMe w = false) : ∃ v f, (s.pc v).entered = some f := by
  unfold Scheduler.tickleMe at htickle
  split at htickle
  . cases htickle
  . next hnone =>
    obtain ⟨ft, hft⟩ := List.exists_mem_of_ne_nil _ hne
    have hnot := List.findIdx?_eq_none_iff.mp hnone ft hft
    have hpin := List.any_eq_false.mp htickle ft hft
    have htakes : ¬s.sched.Takes w ft := by
      rw [← Scheduler.eligible_iff, hnot]
      decide
    have hthread : ft.thread = none ∨ ft.thread = some w := by
      cases hcase : ft.thread with
      | none => exact .inl rfl
      | some v =>
        right
        by_contra hne
        rw [hcase] at hpin
        simp [hne] at hpin
    unfold Scheduler.Takes at htakes
    simp only [hthread, true_and, not_forall, not_not] at htakes
    obtain ⟨f, -, hexec⟩ := htakes
    obtain ⟨v, hv⟩ := h.executed f hexec
    exact ⟨v, f, hv⟩

theorem dequeue_covered (h : s.Places) {w : Nat} (hpc : s.pc w = .loop)
    : ({ s with sched := s.sched.dequeue w }.setTickling w (s.sched.tickleMe w)).Covered := by
  intro hne
  right
  right
  cases htickle : s.sched.tickleMe w with
  | true =>
    refine ⟨w, .inl ?_⟩
    simp
  | false =>
    have hnone : s.sched.m_fibers.findIdx? (s.sched.eligible w) = none := by
      unfold Scheduler.tickleMe at htickle
      split at htickle
      . cases htickle
      . next hnone => exact hnone
    have hqueue : (s.sched.dequeue w).m_fibers = s.sched.m_fibers := by
      rw [Scheduler.dequeue_queue, hnone]
    rw [setTickling_sched, hqueue] at hne
    obtain ⟨v, f, hv⟩ := exists_entered h hne htickle
    have hvw : v ≠ w := by
      intro heq
      rw [heq, hpc] at hv
      cases hv
    have hleaves : s.pc v ≠ .loop ∧ (s.pc v).leaves = false := by
      cases hcase : s.pc v with
      | switch g cb => exact ⟨nofun, rfl⟩
      | running g cb => exact ⟨nofun, rfl⟩
      | _ =>
        rw [hcase] at hv
        cases hv
    refine ⟨v, .inr ?_⟩
    apply (h.rescans hleaves.1 hleaves.2).congr
    . rfl
    . rfl
    . rw [setTickling_pc]
      unfold pc
      rw [(Scheduler.dequeue_goes hpc).others hvw]
    . simp [hvw]

theorem Calls.rescans {w : Nat} (h : s.Calls (some w)) (hplaces : s.Places) : s.Rescans w := by
  obtain ⟨hw, -, ⟨f, cb, hpc⟩ | hwoken⟩ := h
  . apply hplaces.rescans
    . rw [hpc]
      nofun
    . rw [hpc]
      rfl
  . exact ⟨hw, .inl hwoken⟩

theorem owe_covered {caller : Option Nat} {t : Scheduler C} {need : Bool} (h : s.Covered)
    (hplaces : s.Places) (hcalls : s.Calls caller) (hworkers : t.workers = s.sched.workers)
    (hneed : need = true ∨ t.m_fibers = [] ∨ s.sched.m_fibers ≠ [])
    : ({ s with sched := t }.owe caller need).Covered := by
  cases caller with
  | some w =>
    apply Rescans.covered
    apply (hcalls.rescans hplaces).congr
    . rfl
    . rfl
    . change (t.workers w).pc = _
      rw [hworkers]
      rfl
    . simp [owe]
  | none =>
    intro hne
    rcases hneed with rfl | hempty | hqueue
    . exact .inr (.inl (Nat.succ_pos s.outside))
    . exact absurd hempty hne
    . rcases h hqueue with hpos | hpos | ⟨w, hw⟩
      . exact .inl hpos
      . exact .inr (.inl (Nat.lt_of_lt_of_le hpos (Nat.le_add_right _ _)))
      . refine .inr (.inr ⟨w, hw.imp_right ?_⟩)
        intro hrescans
        apply hrescans.congr
        . rfl
        . rfl
        . change (t.workers w).pc = _
          rw [hworkers]
          rfl
        . rfl

theorem rangeTickle_false {s : Scheduler C} {tasks : List (FiberAndThread C)}
    (h : s.rangeTickle tasks = false) : s.scheduleRange tasks = s ∨ s.m_fibers ≠ [] := by
  cases tasks with
  | nil => exact .inl rfl
  | cons ft tasks =>
    right
    unfold Scheduler.rangeTickle at h
    rw [Bool.or_eq_false_iff] at h
    intro hempty
    rw [hempty] at h
    cases h.2

theorem tickle_covered {caller : Option Nat} (hheard : s.Heard (.tickle caller))
    : (s.paid caller).tickle.Covered := by
  intro hne
  rw [tickle_sched, paid_sched] at hne
  have hpaid : (s.paid caller).m_idleThreadCount = s.m_idleThreadCount
      ∧ (s.paid caller).pipe = s.pipe := by
    cases caller <;> exact ⟨rfl, rfl⟩
  unfold tickle hasIdleThreads
  split
  . next hidle =>
    rw [hpaid.1] at hidle
    by_cases hpipe : s.pipe = 0
    . obtain ⟨w, hw⟩ := hheard hidle hpipe hne
      refine .inr (.inr ⟨w, .inr ?_⟩)
      cases caller with
      | none => exact hw.congr rfl rfl rfl rfl
      | some v =>
        apply hw.congr
        . rfl
        . rfl
        . rfl
        . by_cases hvw : w = v
          . simp [paid, hvw]
          . simp [paid, hvw]
    . left
      rw [hpaid.2]
      exact Nat.pos_of_ne_zero hpipe
  . exact .inl (Nat.succ_pos _)

theorem check_covered (h : s.Covered) (hplaces : s.Places) {w : Nat} (hw : s.Started w)
    (hcheck : s.check w = some s') : s'.Covered := by
  obtain ⟨hchecks, ⟨idle, -, rfl⟩ | ⟨-, -, rfl⟩⟩ := check_cases hcheck
  . apply h.setIdle hplaces
    . intro hout
      exact absurd hout hchecks.1
    . exact hchecks.2
  . apply Rescans.covered (w := w)
    refine ⟨hw, .inr ⟨?_, ?_⟩⟩
    . simp [endIdle]
    . simp [endIdle, pc, Scheduler.Pc.leaves]

theorem stop_covered (h : s.Covered) (hplaces : s.Places) (hstop : s.stop = some s') : s'.Covered := by
  have hframe := stop_frame hstop
  apply h.mono hframe.queue hframe.pipe (Nat.le_of_eq hframe.outside.symm)
  intro w hw
  have hpc : s'.pc w = s.pc w := by
    unfold pc
    rw [hframe.workers]
  rw [hframe.io]
  apply hw.imp_right
  rintro ⟨hstarted, hplace⟩
  unfold Rescans
  rw [hpc, hframe.io]
  refine ⟨?_, hplace⟩
  unfold Started at hstarted ⊢
  rw [hframe.count]
  rcases hstarted with hlt | ⟨heq, hexec⟩
  . exact .inl hlt
  . rcases stop_root hstop hexec with hroot | hexited
    . exact .inr ⟨heq, hroot⟩
    . exfalso
      rw [← heq, exited_iff] at hexited
      rcases hplace with ⟨b, hb⟩ | ⟨-, hleaves⟩
      . have hidle := (hplaces.placed w).idle (by rw [hb]; nofun)
        rw [hexited.2] at hidle
        cases hidle
      . rw [hexited.2] at hleaves
        cases hleaves

theorem step_covered {a : Action C} (h : s.Covered) (hplaces : s.Places) (hheard : s.Heard a)
    (hstep : Step s a s') : s'.Covered := by
  have hsame : ∀ t : IOWorkers C, t.sched.workers = s.sched.workers
      → t.sched.m_fibers = s.sched.m_fibers → t.m_threadCount = s.m_threadCount
      → t.m_rootFiber = s.m_rootFiber → t.io = s.io → s.pipe ≤ t.pipe → t.outside = s.outside
      → t.Covered := by
    intro t hworkers hqueue hcount hroot hio hpipe houtside
    apply h.mono hqueue hpipe (Nat.le_of_eq houtside.symm)
    intro w hw
    rw [hio]
    apply hw.imp_right
    intro hrescans
    apply hrescans.congr hcount hroot
    . unfold pc
      rw [hworkers]
    . rw [hio]
  cases hstep with
  | dequeue hw hidle htickling hpc => exact dequeue_covered hplaces hpc
  | enterIdle hw hidle htickling hpc =>
    have hcovered : { s with m_idleThreadCount := s.m_idleThreadCount + 1 }.Covered :=
      hsame _ rfl rfl rfl rfl rfl (Nat.le_refl _) rfl
    have hplaces' : { s with m_idleThreadCount := s.m_idleThreadCount + 1 }.Places :=
      hplaces.congr rfl rfl rfl rfl hplaces.executed
    apply hcovered.setIdle hplaces'
    . intro _
      exact ⟨hpc, htickling⟩
    . rw [hidle]
      nofun
  | @work w t hw hidle htickling hloop hpc hwork =>
    apply Rescans.covered (w := w)
    refine ⟨hw, .inr ⟨?_, ?_⟩⟩
    . simpa using hidle
    . exact (Scheduler.work_goes hpc hwork).not_leaves hloop
  | @fiber w a t hw htickling hfiber =>
    apply Rescans.covered (w := w)
    refine ⟨hw, .inr ⟨?_, Scheduler.fiberStep_not_leaves hfiber⟩⟩
    apply hplaces.not_idle
    obtain ⟨f, cb, hpc⟩ := Scheduler.fiberStep_running hfiber
    unfold pc
    rw [hpc]
    nofun
  | newFiber => exact hsame _ rfl rfl rfl rfl rfl (Nat.le_refl _) rfl
  | @schedule caller ft hcalls hft =>
    apply owe_covered h hplaces hcalls (Scheduler.schedule_workers s.sched ft).1
    cases hempty : s.sched.m_fibers with
    | nil => exact .inl rfl
    | cons ft' fts => exact .inr (.inr nofun)
  | @scheduleRange caller tasks hcalls htasks =>
    apply owe_covered h hplaces hcalls (Scheduler.scheduleRange_spec s.sched tasks).2.1
    cases hneed : s.sched.rangeTickle tasks with
    | true => exact .inl rfl
    | false =>
      right
      rcases rangeTickle_false hneed with heq | hne
      . rw [heq]
        exact Decidable.em _
      . exact .inr hne
  | tickle howes => exact tickle_covered hheard
  | onTimerInsertedAtFront =>
    have hframe := StopFrame.tickle s s.stopPc
    apply hsame _ hframe.workers hframe.queue hframe.count _ hframe.io hframe.pipe hframe.outside
    unfold tickle
    split <;> rfl
  | addTimer hcalls => exact hsame _ rfl rfl rfl rfl rfl (Nat.le_refl _) rfl
  | removeTimer hcalls hpos => exact hsame _ rfl rfl rfl rfl rfl (Nat.le_refl _) rfl
  | addEvent hcalls => exact hsame _ rfl rfl rfl rfl rfl (Nat.le_refl _) rfl
  | removeEvent hcalls hpos => exact hsame _ rfl rfl rfl rfl rfl (Nat.le_refl _) rfl
  | check hw hcheck => exact check_covered h hplaces hw hcheck
  | @wake w hw hidle tickled hpipe =>
    apply Rescans.covered (w := w)
    refine ⟨hw, .inl ⟨tickled, ?_⟩⟩
    simp
  | @drain w hw hidle htickling =>
    apply Rescans.covered (w := w)
    refine ⟨hw, .inl ⟨false, ?_⟩⟩
    simp
  | @leave w hw hidle htickling =>
    apply Rescans.covered (w := w)
    refine ⟨hw, .inr ⟨?_, ?_⟩⟩
    . simp
    . simp [pc, Scheduler.goto, Scheduler.Pc.leaves]
  | stop hstop => exact stop_covered h hplaces hstop

def AllBlocked (s : IOWorkers C) : Prop :=
  ∀ w, s.Started w → (s.io w).idle = .blocked

theorem allBlocked_pool (hroot : s.m_rootFiber = none)
    (h : ∀ w, w < s.m_threadCount → (s.io w).idle = .blocked) : s.AllBlocked := by
  rintro w (hlt | ⟨-, hexec⟩)
  . exact h w hlt
  . rw [hroot] at hexec
    cases hexec

theorem run_pipe_pos {threads : Nat} {use_caller : Bool} {as : List (Action C)}
    (h : ((lts C).restrict Heard).Run (start threads use_caller) as s) (hblocked : s.AllBlocked)
    (hcalls : s.outside = 0) (htask : s.sched.m_fibers ≠ []) : 0 < s.pipe := by
  have hinv : s.Places ∧ s.Covered := by
    apply h.invariant (I := fun s => s.Places ∧ s.Covered)
    . rintro s a t ⟨hplaces, hcovered⟩ ⟨hheard, hstep⟩
      exact ⟨step_places hplaces hstep, step_covered hcovered hplaces hheard hstep⟩
    . refine ⟨places_start threads use_caller, ?_⟩
      intro hne
      exact absurd rfl hne
  obtain ⟨hplaces, hcovered⟩ := hinv
  rcases hcovered htask with hpos | hpos | ⟨w, hw⟩
  . exact hpos
  . omega
  . have hstarted : s.Started w := by
      rcases hw with htickling | hrescans
      . apply (hplaces.placed w).started.resolve_right
        rintro ⟨hfalse, -⟩
        rw [hfalse] at htickling
        cases htickling
      . exact hrescans.1
    have hidle := hblocked w hstarted
    exfalso
    rcases hw with htickling | ⟨-, ⟨b, hb⟩ | ⟨hout, -⟩⟩
    . rcases (hplaces.placed w).tickling htickling with hout | ⟨b, hb⟩
      . rw [hidle] at hout
        cases hout
      . rw [hidle] at hb
        cases hb
    . rw [hidle] at hb
      cases hb
    . rw [hidle] at hout
      cases hout

theorem run_pipe_pos_awake
    : let ft : FiberAndThread Unit := ⟨none, some (), none⟩
      ∃ s : IOWorkers Unit,
        ((lts Unit).restrict Heard).Run (start 1 false)
          [.work 0, .schedule none ft, .tickle none, .work 0, .check 0, .check 0, .check 0] s
        ∧ s.AllBlocked ∧ s.outside = 0 ∧ s.sched.m_fibers = [ft] ∧ 0 < s.pipe := by
  intro ft
  have hzero : (0 : Nat) < 1 := by decide
  have hrun : ∃ s : IOWorkers Unit,
      ((lts Unit).restrict Heard).Run (start 1 false)
        [.work 0, .schedule none ft, .tickle none, .work 0, .check 0, .check 0, .check 0] s
      ∧ s.AllBlocked ∧ s.outside = 0 ∧ s.sched.m_fibers = [ft] := by
    refine LTS.Run.exists_and_cons ⟨trivial, Step.dequeue (.inl hzero) rfl rfl rfl⟩ ?_
    refine LTS.Run.exists_and_cons ⟨trivial, Step.schedule trivial nofun⟩ ?_
    refine LTS.Run.exists_and_cons ⟨nofun, Step.tickle (Nat.succ_pos 0)⟩ ?_
    refine LTS.Run.exists_and_cons ⟨trivial, Step.enterIdle (.inl hzero) rfl rfl rfl⟩ ?_
    refine LTS.Run.exists_and_cons ⟨trivial, Step.check (.inl hzero) rfl⟩ ?_
    refine LTS.Run.exists_and_cons ⟨trivial, Step.check (.inl hzero) rfl⟩ ?_
    refine LTS.Run.exists_and_cons ⟨trivial, Step.check (.inl hzero) rfl⟩ ?_
    refine ⟨_, .nil _, ?_, rfl, rfl⟩
    apply allBlocked_pool rfl
    intro w hw
    match w, hw with
    | 0, _ => rfl
  obtain ⟨s, hrun, hblocked, hcalls, htask⟩ := hrun
  refine ⟨s, hrun, hblocked, hcalls, htask, run_pipe_pos hrun hblocked hcalls ?_⟩
  rw [htask]
  nofun

theorem schedule_while_blocked
    : let ft : FiberAndThread Unit := ⟨none, some (), none⟩
      ∃ s : IOWorkers Unit,
        (lts Unit).Run (start 1 false) [.work 0, .work 0, .check 0, .check 0, .check 0] s
        ∧ s.AllBlocked ∧ s.sched.m_fibers = []
        ∧ ∃ s', (lts Unit).Run s [.schedule none ft, .tickle none] s'
          ∧ s'.AllBlocked ∧ s'.outside = 0 ∧ s'.sched.m_fibers = [ft] ∧ s'.pipe = 0 := by
  intro ft
  have hzero : (0 : Nat) < 1 := by decide
  refine LTS.Run.exists_and_cons (Step.dequeue (.inl hzero) rfl rfl rfl) ?_
  refine LTS.Run.exists_and_cons (Step.enterIdle (.inl hzero) rfl rfl rfl) ?_
  refine LTS.Run.exists_and_cons (Step.check (.inl hzero) rfl) ?_
  refine LTS.Run.exists_and_cons (Step.check (.inl hzero) rfl) ?_
  refine LTS.Run.exists_and_cons (Step.check (.inl hzero) rfl) ?_
  refine ⟨_, .nil _, ?_, rfl, ?_⟩
  . apply allBlocked_pool rfl
    intro w hw
    match w, hw with
    | 0, _ => rfl
  . refine LTS.Run.exists_and_cons (Step.schedule trivial nofun) ?_
    refine LTS.Run.exists_and_cons (Step.tickle (Nat.succ_pos 0)) ?_
    refine ⟨_, .nil _, ?_, rfl, rfl, rfl⟩
    apply allBlocked_pool rfl
    intro w hw
    match w, hw with
    | 0, _ => rfl

end IOWorkers
end CXS
