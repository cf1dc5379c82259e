import CXS.Scheduler.Edges

/-!
This module contains the threads of an `IOManager`: the workers that run `Scheduler::run` with
`IOManager::idle` as their idle fiber, the tickle pipe, and the thread that calls `stop`. The events
and the timers are counted here; what they are is the matter of other modules.

The worker with the number `m_threadCount` is the thread that has made the manager with `use_caller`.
It runs `Scheduler::run` only while it is in `m_rootFiber->call()`.
-/

namespace CXS

inductive IdlePc where
  | out
  | entered
  | noTimer
  | noEvent
  | blocked
  | woken (tickled : Bool)
  deriving DecidableEq, Repr

def IdlePc.Checks (idle : IdlePc) : Prop :=
  idle ≠ .out ∧ ∀ b, idle ≠ .woken b

structure IOWorker where
  idle : IdlePc
  tickling : Bool
  deriving DecidableEq, Repr

inductive StopPc where
  | out
  | early
  | earlyEvents
  | tickles (k : Nat)
  | decide
  | decideEvents
  | calling
  | join
  | returned
  deriving DecidableEq, Repr

structure IOWorkers (C : Type) where
  sched : Scheduler C
  m_threadCount : Nat
  m_rootFiber : Option FiberState
  io : Nat → IOWorker
  m_idleThreadCount : Nat
  pipe : Nat
  outside : Nat
  timers : Nat
  m_pendingEventCount : Nat
  stopPc : StopPc

namespace Scheduler

variable {C : Type}

-- `tickle_me` after the loop over the queue
def tickleMe (s : Scheduler C) (w : Nat) : Bool :=
  match s.m_fibers.findIdx? (s.eligible w) with
  | some _ => true
  | none => s.m_fibers.any fun ft => ft.thread.isSome && ft.thread != some w

-- `need_tickle` of the `schedule` that takes a range
def rangeTickle (s : Scheduler C) : List (FiberAndThread C) → Bool
  | [] => false
  | ft :: tasks => (s.schedule { ft with thread := none }).rangeTickle tasks || s.m_fibers.isEmpty

-- `need_tickle` of the `schedule` that a worker makes for a fiber that is ready again
def requeueTickle (s : Scheduler C) (w : Nat) : Bool :=
  match (s.workers w).pc with
  | .requeue _ _ => s.m_fibers.isEmpty
  | _ => false

end Scheduler

namespace IOWorkers

variable {C : Type}

-- `IOManager::IOManager(threads, use_caller)`
def start (threads : Nat) (use_caller : Bool) : IOWorkers C where
  sched := .new
  m_threadCount := if use_caller then threads - 1 else threads
  m_rootFiber := if use_caller then some .INIT else none
  io _ := ⟨.out, false⟩
  m_idleThreadCount := 0
  pipe := 0
  outside := 0
  timers := 0
  m_pendingEventCount := 0
  stopPc := .out

def Started (s : IOWorkers C) (w : Nat) : Prop :=
  w < s.m_threadCount ∨ w = s.m_threadCount ∧ s.m_rootFiber = some .EXEC

def pc (s : IOWorkers C) (w : Nat) : Scheduler.Pc C :=
  (s.sched.workers w).pc

def exited (s : IOWorkers C) (w : Nat) : Bool :=
  match s.pc w with
  | .exited => !(s.io w).tickling
  | _ => false

def setIdle (s : IOWorkers C) (w : Nat) (idle : IdlePc) : IOWorkers C :=
  { s with io := Function.update s.io w { s.io w with idle } }

def setTickling (s : IOWorkers C) (w : Nat) (tickling : Bool) : IOWorkers C :=
  { s with io := Function.update s.io w { s.io w with tickling } }

def hasIdleThreads (s : IOWorkers C) : Bool :=
  0 < s.m_idleThreadCount

def tickle (s : IOWorkers C) : IOWorkers C :=
  if s.hasIdleThreads then s else { s with pipe := s.pipe + 1 }

def Calls (s : IOWorkers C) : Option Nat → Prop
  | none => True
  | some w =>
    s.Started w ∧ (s.io w).tickling = false
      ∧ ((∃ f cb, s.pc w = .running f cb) ∨ ∃ tickled, (s.io w).idle = .woken tickled)

def owe (s : IOWorkers C) (caller : Option Nat) (need_tickle : Bool) : IOWorkers C :=
  match caller with
  | none => { s with outside := s.outside + need_tickle.toNat }
  | some w => s.setTickling w need_tickle

def Owes (s : IOWorkers C) : Option Nat → Prop
  | none => 0 < s.outside
  | some w => (s.io w).tickling = true

def paid (s : IOWorkers C) : Option Nat → IOWorkers C
  | none => { s with outside := s.outside - 1 }
  | some w => s.setTickling w false

def endIdle (s : IOWorkers C) (w : Nat) : IOWorkers C :=
  let worker := { s.sched.workers w with pc := .loop, idle_term := true }
  { s with
    sched := { s.sched with workers := Function.update s.sched.workers w worker }
    m_idleThreadCount := s.m_idleThreadCount - 1
  }.setIdle w .out

-- `stopping(next_timeout)` in `idle`, up to `epoll_wait` or to the end of the idle fiber
def check (s : IOWorkers C) (w : Nat) : Option (IOWorkers C) :=
  match (s.io w).idle with
  | .entered => some (s.setIdle w (if s.timers = 0 then .noTimer else .blocked))
  | .noTimer => some (s.setIdle w (if s.m_pendingEventCount = 0 then .noEvent else .blocked))
  | .noEvent =>
    if s.sched.stopping then some (s.endIdle w) else some (s.setIdle w .blocked)
  | _ => none

def call (s : IOWorkers C) : Option (IOWorkers C) :=
  if s.m_rootFiber = some .INIT then
    some { s with m_rootFiber := some .EXEC, stopPc := .calling }
  else
    none

def setStopping (s : IOWorkers C) : IOWorkers C :=
  { s with sched := { s.sched with m_autoStop := true, m_stopping := true } }

def stop (s : IOWorkers C) : Option (IOWorkers C) :=
  match s.stopPc with
  | .out | .returned =>
    if (s.m_rootFiber = some .TERM ∨ s.m_rootFiber = some .INIT) ∧ s.m_threadCount = 0 then
      some { s.setStopping with stopPc := .early }
    else
      some { s.setStopping with stopPc := .tickles s.m_threadCount }
  | .early =>
    if s.m_pendingEventCount = 0 then
      some { s with stopPc := .earlyEvents }
    else
      some { s with stopPc := .tickles s.m_threadCount }
  | .earlyEvents =>
    if s.sched.stopping then
      some { s with stopPc := .returned }
    else
      some { s with stopPc := .tickles s.m_threadCount }
  | .tickles (k + 1) => some { s.tickle with stopPc := .tickles k }
  | .tickles 0 => some { s with stopPc := if s.m_rootFiber.isSome then .decide else .join }
  | .decide => if s.m_pendingEventCount = 0 then some { s with stopPc := .decideEvents } else s.call
  | .decideEvents => if s.sched.stopping then some { s with stopPc := .join } else s.call
  | .calling =>
    if s.exited s.m_threadCount then
      some { s with m_rootFiber := some .TERM, stopPc := .join }
    else
      none
  | .join =>
    if (List.range s.m_threadCount).all s.exited then some { s with stopPc := .returned } else none

inductive Action (C : Type) where
  | work (w : Nat)
  | fiber (w : Nat) (a : Scheduler.FiberStep)
  | newFiber
  | schedule (caller : Option Nat) (ft : FiberAndThread C)
  | scheduleRange (caller : Option Nat) (tasks : List (FiberAndThread C))
  | tickle (caller : Option Nat)
  | onTimerInsertedAtFront
  | addTimer (caller : Option Nat)
  | removeTimer (caller : Option Nat)
  | addEvent (caller : Option Nat)
  | removeEvent (caller : Option Nat)
  | check (w : Nat)
  | wake (w : Nat) (tickled : Bool)
  | drain (w : Nat)
  | leave (w : Nat)
  | stop
  deriving DecidableEq, Repr

inductive Step : IOWorkers C → Action C → IOWorkers C → Prop where
  | dequeue {s : IOWorkers C} {w : Nat} (hw : s.Started w) (hidle : (s.io w).idle = .out)
    (htickling : (s.io w).tickling = false) (hpc : s.pc w = .loop)
    : Step s (.work w) ({ s with sched := s.sched.dequeue w }.setTickling w (s.sched.tickleMe w))
  | enterIdle {s : IOWorkers C} {w : Nat} (hw : s.Started w) (hidle : (s.io w).idle = .out)
    (htickling : (s.io w).tickling = false) (hpc : s.pc w = .idle)
    : Step s (.work w) ({ s with m_idleThreadCount := s.m_idleThreadCount + 1 }.setIdle w .entered)
  | work {s : IOWorkers C} {w : Nat} {t : Scheduler C} (hw : s.Started w)
    (hidle : (s.io w).idle = .out) (htickling : (s.io w).tickling = false) (hloop : s.pc w ≠ .loop)
    (hpc : s.pc w ≠ .idle) (hwork : s.sched.work w = .ok t)
    : Step s (.work w) ({ s with sched := t }.setTickling w (s.sched.requeueTickle w))
  | fiber {s : IOWorkers C} {w : Nat} {a : Scheduler.FiberStep} {t : Scheduler C} (hw : s.Started w)
    (htickling : (s.io w).tickling = false) (hfiber : s.sched.fiberStep w a = .ok t)
    : Step s (.fiber w a) { s with sched := t }
  | newFiber {s : IOWorkers C} : Step s .newFiber { s with sched := s.sched.newFiber }
  | schedule {s : IOWorkers C} {caller : Option Nat} {ft : FiberAndThread C} (hcalls : s.Calls caller)
    (hft : ∀ f, ft.fiber = some f → f < s.sched.fiberCount)
    : Step s (.schedule caller ft)
        ({ s with sched := s.sched.schedule ft }.owe caller s.sched.m_fibers.isEmpty)
  | scheduleRange {s : IOWorkers C} {caller : Option Nat} {tasks : List (FiberAndThread C)}
    (hcalls : s.Calls caller)
    (htasks : ∀ ft ∈ tasks, ∀ f, ft.fiber = some f → f < s.sched.fiberCount)
    : Step s (.scheduleRange caller tasks)
        ({ s with sched := s.sched.scheduleRange tasks }.owe caller (s.sched.rangeTickle tasks))
  | tickle {s : IOWorkers C} {caller : Option Nat} (howes : s.Owes caller)
    : Step s (.tickle caller) (s.paid caller).tickle
  | onTimerInsertedAtFront {s : IOWorkers C} : Step s .onTimerInsertedAtFront s.tickle
  | addTimer {s : IOWorkers C} {caller : Option Nat} (hcalls : s.Calls caller)
    : Step s (.addTimer caller) { s with timers := s.timers + 1 }
  | removeTimer {s : IOWorkers C} {caller : Option Nat} (hcalls : s.Calls caller)
    (hpos : 0 < s.timers) : Step s (.removeTimer caller) { s with timers := s.timers - 1 }
  | addEvent {s : IOWorkers C} {caller : Option Nat} (hcalls : s.Calls caller)
    : Step s (.addEvent caller) { s with m_pendingEventCount := s.m_pendingEventCount + 1 }
  | removeEvent {s : IOWorkers C} {caller : Option Nat} (hcalls : s.Calls caller)
    (hpos : 0 < s.m_pendingEventCount)
    : Step s (.removeEvent caller) { s with m_pendingEventCount := s.m_pendingEventCount - 1 }
  | check {s s' : IOWorkers C} {w : Nat} (hw : s.Started w) (hcheck : s.check w = some s')
    : Step s (.check w) s'
  | wake {s : IOWorkers C} {w : Nat} (hw : s.Started w) (hidle : (s.io w).idle = .blocked)
    {tickled : Bool} (hpipe : tickled = true → 0 < s.pipe)
    : Step s (.wake w tickled) (s.setIdle w (.woken tickled))
  | drain {s : IOWorkers C} {w : Nat} (hw : s.Started w) (hidle : (s.io w).idle = .woken true)
    (htickling : (s.io w).tickling = false)
    : Step s (.drain w) ({ s with pipe := 0 }.setIdle w (.woken false))
  | leave {s : IOWorkers C} {w : Nat} (hw : s.Started w) (hidle : (s.io w).idle = .woken false)
    (htickling : (s.io w).tickling = false)
    : Step s (.leave w)
        ({ s with
          sched := s.sched.goto w .loop
          m_idleThreadCount := s.m_idleThreadCount - 1
        }.setIdle w .out)
  | stop {s s' : IOWorkers C} (hstop : s.stop = some s') : Step s .stop s'

def lts (C : Type) : LTS (IOWorkers C) (Action C) where
  step := Step

variable {s s' : IOWorkers C}

section Fields

variable (s : IOWorkers C) (w v : Nat) (idle : IdlePc) (tickling : Bool) (caller : Option Nat)

@[simp]
theorem setIdle_sched : (s.setIdle w idle).sched = s.sched := rfl

@[simp]
theorem setIdle_io : (s.setIdle w idle).io = Function.update s.io w { s.io w with idle } := rfl

@[simp]
theorem setIdle_pc : (s.setIdle w idle).pc v = s.pc v := rfl

@[simp]
theorem setTickling_pc : (s.setTickling w tickling).pc v = s.pc v := rfl

@[simp]
theorem setTickling_sched : (s.setTickling w tickling).sched = s.sched := rfl

@[simp]
theorem setTickling_io
    : (s.setTickling w tickling).io = Function.update s.io w { s.io w with tickling } := rfl

@[simp]
theorem tickle_sched : s.tickle.sched = s.sched := by
  unfold tickle
  split <;> rfl

@[simp]
theorem tickle_io : s.tickle.io = s.io := by
  unfold tickle
  split <;> rfl

@[simp]
theorem owe_sched : (s.owe caller tickling).sched = s.sched := by
  cases caller <;> rfl

@[simp]
theorem paid_sched : (s.paid caller).sched = s.sched := by
  cases caller <;> rfl

end Fields

structure StopFrame (s s' : IOWorkers C) : Prop where
  workers : s'.sched.workers = s.sched.workers
  fibers : s'.sched.fibers = s.sched.fibers
  queue : s'.sched.m_fibers = s.sched.m_fibers
  active : s'.sched.m_activeThreadCount = s.sched.m_activeThreadCount
  count : s'.m_threadCount = s.m_threadCount
  io : s'.io = s.io
  outside : s'.outside = s.outside
  timers : s'.timers = s.timers
  pending : s'.m_pendingEventCount = s.m_pendingEventCount
  pipe : s.pipe ≤ s'.pipe

theorem StopFrame.refl (s : IOWorkers C) (stopPc : StopPc) (root : Option FiberState)
    : StopFrame s { s with stopPc, m_rootFiber := root } :=
  ⟨rfl, rfl, rfl, rfl, rfl, rfl, rfl, rfl, rfl, Nat.le_refl _⟩

theorem StopFrame.tickle (s : IOWorkers C) (stopPc : StopPc)
    : StopFrame s { s.tickle with stopPc } := by
  unfold IOWorkers.tickle
  split
  . exact ⟨rfl, rfl, rfl, rfl, rfl, rfl, rfl, rfl, rfl, Nat.le_refl _⟩
  . exact ⟨rfl, rfl, rfl, rfl, rfl, rfl, rfl, rfl, rfl, Nat.le_succ _⟩

theorem StopFrame.setStopping (s : IOWorkers C) (stopPc : StopPc)
    : StopFrame s { s.setStopping with stopPc } :=
  ⟨rfl, rfl, rfl, rfl, rfl, rfl, rfl, rfl, rfl, Nat.le_refl _⟩

theorem call_eq_some (h : s.call = some s')
    : s.m_rootFiber = some .INIT ∧ s' = { s with m_rootFiber := some .EXEC, stopPc := .calling } := by
  unfold call at h
  split at h
  . next hroot =>
    cases h
    exact ⟨hroot, rfl⟩
  . cases h

theorem stop_frame (h : s.stop = some s') : StopFrame s s' := by
  unfold stop at h
  split at h
  . split at h
    . cases h
      apply StopFrame.setStopping
    . cases h
      apply StopFrame.setStopping
  . split at h
    . cases h
      apply StopFrame.setStopping
    . cases h
      apply StopFrame.setStopping
  . split at h
    . cases h
      apply StopFrame.refl s _ s.m_rootFiber
    . cases h
      apply StopFrame.refl s _ s.m_rootFiber
  . split at h
    . cases h
      apply StopFrame.refl s _ s.m_rootFiber
    . cases h
      apply StopFrame.refl s _ s.m_rootFiber
  . cases h
    apply StopFrame.tickle
  . cases h
    apply StopFrame.refl s _ s.m_rootFiber
  . split at h
    . cases h
      apply StopFrame.refl s _ s.m_rootFiber
    . obtain ⟨-, rfl⟩ := call_eq_some h
      apply StopFrame.refl
  . split at h
    . cases h
      apply StopFrame.refl s _ s.m_rootFiber
    . obtain ⟨-, rfl⟩ := call_eq_some h
      apply StopFrame.refl
  . split at h
    . cases h
      apply StopFrame.refl
    . cases h
  . split at h
    . cases h
      apply StopFrame.refl s _ s.m_rootFiber
    . cases h

theorem exited_iff {w : Nat}
    : s.exited w = true ↔ (s.io w).tickling = false ∧ s.pc w = .exited := by
  unfold exited
  split
  . next h => simp [h]
  . next h => simpa using fun _ => h

inductive StopEdge (s : IOWorkers C) : StopPc → StopPc → Option FiberState → Prop where
  | beginEarly {pc : StopPc} (hpc : pc = .out ∨ pc = .returned) (hcount : s.m_threadCount = 0)
    : StopEdge s pc .early s.m_rootFiber
  | begin {pc : StopPc} (hpc : pc = .out ∨ pc = .returned)
    (hnot : ¬((s.m_rootFiber = some .TERM ∨ s.m_rootFiber = some .INIT) ∧ s.m_threadCount = 0))
    : StopEdge s pc (.tickles s.m_threadCount) s.m_rootFiber
  | earlyPending : StopEdge s .early (.tickles s.m_threadCount) s.m_rootFiber
  | earlyNone (hpending : s.m_pendingEventCount = 0)
    : StopEdge s .early .earlyEvents s.m_rootFiber
  | earlyReturn (hstopping : s.sched.stopping = true)
    : StopEdge s .earlyEvents .returned s.m_rootFiber
  | earlyGoOn : StopEdge s .earlyEvents (.tickles s.m_threadCount) s.m_rootFiber
  | tickle (k : Nat) : StopEdge s (.tickles (k + 1)) (.tickles k) s.m_rootFiber
  | toDecide : StopEdge s (.tickles 0) .decide s.m_rootFiber
  | toJoin (hroot : s.m_rootFiber = none) : StopEdge s (.tickles 0) .join s.m_rootFiber
  | decideNone (hpending : s.m_pendingEventCount = 0)
    : StopEdge s .decide .decideEvents s.m_rootFiber
  | decideStopped (hstopping : s.sched.stopping = true)
    : StopEdge s .decideEvents .join s.m_rootFiber
  | call {pc : StopPc} (hpc : pc = .decide ∨ pc = .decideEvents) (hroot : s.m_rootFiber = some .INIT)
    : StopEdge s pc .calling (some .EXEC)
  | callReturn (hexited : s.exited s.m_threadCount = true) : StopEdge s .calling .join (some .TERM)
  | joined (hexited : ∀ w, w < s.m_threadCount → s.exited w = true)
    : StopEdge s .join .returned s.m_rootFiber

theorem stop_edge (h : s.stop = some s') : StopEdge s s.stopPc s'.stopPc s'.m_rootFiber := by
  have hcall : ∀ pc, pc = .decide ∨ pc = .decideEvents → s.call = some s'
      → StopEdge s pc s'.stopPc s'.m_rootFiber := by
    intro pc hpc hcall
    obtain ⟨hroot, rfl⟩ := call_eq_some hcall
    exact .call hpc hroot
  unfold stop at h
  split at h
  . next hpc =>
    rw [hpc]
    split at h
    . next hearly =>
      cases h
      exact .beginEarly (.inl rfl) hearly.2
    . next hearly =>
      cases h
      exact .begin (.inl rfl) hearly
  . next hpc =>
    rw [hpc]
    split at h
    . next hearly =>
      cases h
      exact .beginEarly (.inr rfl) hearly.2
    . next hearly =>
      cases h
      exact .begin (.inr rfl) hearly
  . next hpc =>
    rw [hpc]
    split at h
    . next hpending =>
      cases h
      exact .earlyNone hpending
    . cases h
      exact .earlyPending
  . next hpc =>
    rw [hpc]
    split at h
    . next hstopping =>
      cases h
      exact .earlyReturn hstopping
    . cases h
      exact .earlyGoOn
  . next k hpc =>
    rw [hpc]
    cases h
    have hroot : s.tickle.m_rootFiber = s.m_rootFiber := by
      unfold tickle
      split <;> rfl
    dsimp only
    rw [hroot]
    exact .tickle k
  . next hpc =>
    rw [hpc]
    cases h
    dsimp only
    split
    . exact .toDecide
    . next hroot => exact .toJoin (by simpa using hroot)
  . next hpc =>
    rw [hpc]
    split at h
    . next hpending =>
      cases h
      exact .decideNone hpending
    . exact hcall _ (.inl rfl) h
  . next hpc =>
    rw [hpc]
    split at h
    . next hstopping =>
      cases h
      exact .decideStopped hstopping
    . exact hcall _ (.inr rfl) h
  . next hpc =>
    rw [hpc]
    split at h
    . next hexited =>
      cases h
      exact .callReturn hexited
    . cases h
  . next hpc =>
    rw [hpc]
    split at h
    . next hexited =>
      cases h
      rw [List.all_eq_true] at hexited
      apply StopEdge.joined
      intro w hw
      exact hexited w (List.mem_range.mpr hw)
    . cases h

theorem stop_root (h : s.stop = some s')
    : s.m_rootFiber = some .EXEC → s'.m_rootFiber = some .EXEC ∨ s.exited s.m_threadCount = true := by
  intro hexec
  have hedge := stop_edge h
  generalize s.stopPc = pc at hedge
  generalize s'.stopPc = pc' at hedge
  generalize s'.m_rootFiber = root at hedge ⊢
  cases hedge with
  | callReturn hexited => exact .inr hexited
  | call => exact .inl rfl
  | _ => exact .inl hexec

structure Placed (s : IOWorkers C) (w : Nat) : Prop where
  idle : (s.io w).idle ≠ .out → s.pc w = .idle
  tickling : (s.io w).tickling = true → (s.io w).idle = .out ∨ ∃ b, (s.io w).idle = .woken b
  started : s.Started w ∨ (s.io w).tickling = false ∧ (s.pc w = .loop ∨ s.pc w = .exited)

structure Places (s : IOWorkers C) : Prop where
  executed : s.sched.Executed
  placed : ∀ w, s.Placed w

theorem places_start (threads : Nat) (use_caller : Bool) : (start threads use_caller : IOWorkers C).Places where
  executed := Scheduler.executed_new
  placed := by
    intro w
    exact ⟨fun h => absurd rfl h, nofun, .inr ⟨rfl, .inl rfl⟩⟩

theorem Placed.congr {w : Nat} (h : s.Placed w) (hcount : s'.m_threadCount = s.m_threadCount)
    (hroot : s'.m_rootFiber = s.m_rootFiber) (hpc : s'.pc w = s.pc w) (hio : s'.io w = s.io w)
    : s'.Placed w := by
  obtain ⟨hidle, htickling, hstarted⟩ := h
  unfold Started at hstarted
  constructor
  . rw [hio, hpc]
    exact hidle
  . rw [hio]
    exact htickling
  . unfold Started
    rw [hcount, hroot, hpc, hio]
    exact hstarted

theorem Places.move (h : s.Places) {w : Nat} (hw : s.Started w)
    (hcount : s'.m_threadCount = s.m_threadCount) (hroot : s'.m_rootFiber = s.m_rootFiber)
    (hothers : ∀ v, v ≠ w → s'.pc v = s.pc v ∧ s'.io v = s.io v) (hexecuted : s'.sched.Executed)
    (hidle : (s'.io w).idle ≠ .out → s'.pc w = .idle)
    (htickling : (s'.io w).tickling = true → (s'.io w).idle = .out ∨ ∃ b, (s'.io w).idle = .woken b)
    : s'.Places := by
  refine ⟨hexecuted, ?_⟩
  intro v
  by_cases hv : v = w
  . rw [hv]
    refine ⟨hidle, htickling, .inl ?_⟩
    unfold Started
    rw [hcount, hroot]
    exact hw
  . obtain ⟨hpc, hio⟩ := hothers v hv
    exact (h.placed v).congr hcount hroot hpc hio

theorem Places.congr (h : s.Places) (hcount : s'.m_threadCount = s.m_threadCount)
    (hroot : s'.m_rootFiber = s.m_rootFiber) (hworkers : s'.sched.workers = s.sched.workers)
    (hio : s'.io = s.io) (hexecuted : s'.sched.Executed) : s'.Places := by
  refine ⟨hexecuted, ?_⟩
  intro w
  apply (h.placed w).congr hcount hroot
  . unfold pc
    rw [hworkers]
  . rw [hio]

theorem Places.not_idle (h : s.Places) {w : Nat} (hpc : s.pc w ≠ .idle) : (s.io w).idle = .out := by
  by_contra hidle
  exact hpc ((h.placed w).idle hidle)

theorem Places.setIdle (h : s.Places) {w : Nat} (hw : s.Started w) {idle : IdlePc}
    (hidle : idle ≠ .out → s.pc w = .idle)
    (htickling : (s.io w).tickling = true → idle = .out ∨ ∃ b, idle = .woken b)
    : (s.setIdle w idle).Places := by
  apply h.move hw
  . rfl
  . rfl
  . intro v hv
    exact ⟨rfl, by simp [hv]⟩
  . exact h.executed
  . simpa using hidle
  . simpa using htickling

theorem Places.setTickling (h : s.Places) {w : Nat} (hw : s.Started w) {tickling : Bool}
    (htickling : tickling = true → (s.io w).idle = .out ∨ ∃ b, (s.io w).idle = .woken b)
    : (s.setTickling w tickling).Places := by
  apply h.move hw
  . rfl
  . rfl
  . intro v hv
    exact ⟨rfl, by simp [hv]⟩
  . exact h.executed
  . simpa using (h.placed w).idle
  . simpa using htickling

theorem Places.owe (h : s.Places) {caller : Option Nat} (hcalls : s.Calls caller) (need : Bool)
    : (s.owe caller need).Places := by
  cases caller with
  | none => exact h.congr rfl rfl rfl rfl h.executed
  | some w =>
    obtain ⟨hw, -, hplace⟩ := hcalls
    apply h.setTickling hw
    intro _
    rcases hplace with ⟨f, cb, hpc⟩ | hwoken
    . left
      apply h.not_idle
      rw [hpc]
      nofun
    . exact .inr hwoken

theorem Places.paid (h : s.Places) (caller : Option Nat) : (s.paid caller).Places := by
  cases caller with
  | none => exact h.congr rfl rfl rfl rfl h.executed
  | some w =>
    refine ⟨h.executed, ?_⟩
    intro v
    obtain ⟨hidle, htickling, hstarted⟩ := h.placed v
    by_cases hv : v = w
    . cases hv
      refine ⟨?_, ?_, ?_⟩
      . simpa [IOWorkers.paid] using hidle
      . simp [IOWorkers.paid]
      . apply hstarted.imp_right
        rintro ⟨-, hpc⟩
        exact ⟨by simp [IOWorkers.paid], hpc⟩
    . refine ⟨?_, ?_, ?_⟩
      . simpa [IOWorkers.paid, hv] using hidle
      . simpa [IOWorkers.paid, hv] using htickling
      . apply hstarted.imp_right
        rintro ⟨hfalse, hpc⟩
        exact ⟨by simpa [IOWorkers.paid, hv] using hfalse, hpc⟩

theorem Places.goes (h : s.Places) {w : Nat} {t : Scheduler C} (hw : s.Started w)
    (hidle : (s.io w).idle = .out) (hgoes : Scheduler.Goes s.sched t w)
    : { s with sched := t }.Places := by
  apply h.move hw
  . rfl
  . rfl
  . intro v hv
    unfold pc
    rw [hgoes.others hv]
    exact ⟨rfl, rfl⟩
  . exact hgoes.executed h.executed
  . intro hcontra
    exact absurd hidle hcontra
  . intro _
    exact .inl hidle

theorem fiber_places (h : s.Places) {w : Nat} {a : Scheduler.FiberStep} {t : Scheduler C}
    (hw : s.Started w) (hfiber : s.sched.fiberStep w a = .ok t) : { s with sched := t }.Places := by
  obtain ⟨worker, hworkers, -⟩ := Scheduler.fiberStep_moves hfiber
  have hidle : (s.io w).idle = .out := by
    apply h.not_idle
    obtain ⟨f, cb, hpc⟩ := Scheduler.fiberStep_running hfiber
    unfold pc
    rw [hpc]
    nofun
  apply h.move hw
  . rfl
  . rfl
  . intro v hv
    unfold pc
    rw [hworkers, Function.update_of_ne hv]
    exact ⟨rfl, rfl⟩
  . exact Scheduler.fiberStep_executed h.executed hfiber
  . intro hcontra
    exact absurd hidle hcontra
  . intro _
    exact .inl hidle

theorem schedule_executed {s : Scheduler C} (h : s.Executed) (ft : FiberAndThread C)
    : (s.schedule ft).Executed := by
  obtain ⟨hworkers, -, hfibers, -⟩ := Scheduler.schedule_workers s ft
  exact h.congr hworkers hfibers

theorem scheduleRange_fibers (s : Scheduler C) (tasks : List (FiberAndThread C))
    : (s.scheduleRange tasks).fibers = s.fibers := by
  induction tasks generalizing s with
  | nil => rfl
  | cons ft tasks ih =>
    rw [Scheduler.scheduleRange_cons, ih]
    exact (Scheduler.schedule_workers s _).2.2.1

theorem Places.release (h : s.Places) {w : Nat} {t : Scheduler C} {worker : Scheduler.Worker C}
    (hw : s.Started w) (hpc : s.pc w = .idle)
    (hworkers : t.workers = Function.update s.sched.workers w worker)
    (hfibers : t.fibers = s.sched.fibers) (n : Nat)
    : ({ s with sched := t, m_idleThreadCount := n }.setIdle w .out).Places := by
  apply h.move hw
  . rfl
  . rfl
  . intro v hv
    refine ⟨?_, by simp [hv]⟩
    unfold pc
    rw [setIdle_sched, hworkers, Function.update_of_ne hv]
  . apply h.executed.move hworkers
    . intro f hf
      left
      unfold Scheduler.getState at hf ⊢
      rw [← hfibers]
      exact hf
    . intro f hf
      unfold pc at hpc
      rw [hpc] at hf
      cases hf
  . intro hcontra
    simp at hcontra
  . intro _
    simp

theorem check_cases {w : Nat} (h : s.check w = some s')
    : (s.io w).idle.Checks
      ∧ ((∃ idle, idle ≠ .out ∧ s' = s.setIdle w idle)
        ∨ (s.io w).idle = .noEvent ∧ s.sched.stopping = true ∧ s' = s.endIdle w) := by
  unfold check at h
  split at h
  . next hidle =>
    cases h
    refine ⟨by rw [hidle]; exact ⟨nofun, nofun⟩, .inl ⟨_, ?_, rfl⟩⟩
    split <;> nofun
  . next hidle =>
    cases h
    refine ⟨by rw [hidle]; exact ⟨nofun, nofun⟩, .inl ⟨_, ?_, rfl⟩⟩
    split <;> nofun
  . next hidle =>
    refine ⟨by rw [hidle]; exact ⟨nofun, nofun⟩, ?_⟩
    split at h
    . next hstopping =>
      cases h
      exact .inr ⟨hidle, hstopping, rfl⟩
    . cases h
      exact .inl ⟨.blocked, nofun, rfl⟩
  . cases h

theorem Placed.not_tickling {w : Nat} (h : s.Placed w) (hchecks : (s.io w).idle.Checks)
    : (s.io w).tickling = false := by
  by_contra hcontra
  rcases h.tickling (by simpa using hcontra) with hidle | ⟨b, hidle⟩
  . exact hchecks.1 hidle
  . exact hchecks.2 b hidle

theorem check_places (h : s.Places) {w : Nat} (hw : s.Started w) (hcheck : s.check w = some s')
    : s'.Places := by
  obtain ⟨hchecks, ⟨idle, -, rfl⟩ | ⟨-, -, rfl⟩⟩ := check_cases hcheck
  . apply h.setIdle hw
    . intro _
      exact (h.placed w).idle hchecks.1
    . rw [(h.placed w).not_tickling hchecks]
      nofun
  . apply h.release hw
    . exact (h.placed w).idle hchecks.1
    . rfl
    . rfl

theorem tickle_places (h : s.Places) : s.tickle.Places := by
  unfold tickle
  split
  . exact h
  . apply h.congr
    . rfl
    . rfl
    . rfl
    . rfl
    . exact h.executed

theorem stop_places (h : s.Places) (hstop : s.stop = some s') : s'.Places := by
  have hframe := stop_frame hstop
  refine ⟨h.executed.congr hframe.workers hframe.fibers, ?_⟩
  intro w
  have hpc : s'.pc w = s.pc w := by
    unfold pc
    rw [hframe.workers]
  obtain ⟨hidle, htickling, hstarted⟩ := h.placed w
  refine ⟨?_, ?_, ?_⟩
  . rw [hframe.io, hpc]
    exact hidle
  . rw [hframe.io]
    exact htickling
  . unfold Started at hstarted ⊢
    rw [hpc, hframe.count, hframe.io]
    rcases hstarted with (hlt | ⟨heq, hexec⟩) | hout
    . exact .inl (.inl hlt)
    . rcases stop_root hstop hexec with hroot | hexited
      . exact .inl (.inr ⟨heq, hroot⟩)
      . rw [← heq, exited_iff] at hexited
        exact .inr ⟨hexited.1, .inr hexited.2⟩
    . exact .inr hout

theorem step_places {a : Action C} (h : s.Places) (hstep : Step s a s') : s'.Places := by
  cases hstep with
  | dequeue hw hidle htickling hpc =>
    have hplaces := h.goes hw hidle (Scheduler.dequeue_goes hpc)
    apply hplaces.setTickling hw
    intro _
    exact .inl hidle
  | enterIdle hw hidle htickling hpc =>
    have hplaces : { s with m_idleThreadCount := s.m_idleThreadCount + 1 }.Places :=
      h.congr rfl rfl rfl rfl h.executed
    apply hplaces.setIdle hw
    . intro _
      exact hpc
    . intro hcontra
      simp [htickling] at hcontra
  | work hw hidle htickling hloop hpc hwork =>
    have hplaces := h.goes hw hidle (Scheduler.work_goes hpc hwork)
    apply hplaces.setTickling hw
    intro _
    exact .inl hidle
  | fiber hw htickling hfiber => exact fiber_places h hw hfiber
  | newFiber => exact h.congr rfl rfl rfl rfl (Scheduler.newFiber_executed h.executed)
  | @schedule caller ft hcalls hft =>
    have hworkers := (Scheduler.schedule_workers s.sched ft).1
    have hplaces : { s with sched := s.sched.schedule ft }.Places :=
      h.congr rfl rfl hworkers rfl (schedule_executed h.executed ft)
    apply hplaces.owe
    unfold Calls pc at hcalls ⊢
    rw [hworkers]
    exact hcalls
  | @scheduleRange caller tasks hcalls htasks =>
    have hworkers := (Scheduler.scheduleRange_spec s.sched tasks).2.1
    have hplaces : { s with sched := s.sched.scheduleRange tasks }.Places :=
      h.congr rfl rfl hworkers rfl (h.executed.congr hworkers (scheduleRange_fibers s.sched tasks))
    apply hplaces.owe
    unfold Calls pc at hcalls ⊢
    rw [hworkers]
    exact hcalls
  | @tickle caller howes =>
    apply tickle_places
    exact h.paid caller
  | onTimerInsertedAtFront => exact tickle_places h
  | addTimer hcalls => exact h.congr rfl rfl rfl rfl h.executed
  | removeTimer hcalls hpos => exact h.congr rfl rfl rfl rfl h.executed
  | addEvent hcalls => exact h.congr rfl rfl rfl rfl h.executed
  | removeEvent hcalls hpos => exact h.congr rfl rfl rfl rfl h.executed
  | check hw hcheck => exact check_places h hw hcheck
  | @wake w hw hidle tickled hpipe =>
    apply h.setIdle hw
    . intro _
      apply (h.placed w).idle
      rw [hidle]
      nofun
    . intro _
      exact .inr ⟨tickled, rfl⟩
  | @drain w hw hidle htickling =>
    have hplaces : { s with pipe := 0 }.Places := h.congr rfl rfl rfl rfl h.executed
    apply hplaces.setIdle hw
    . intro _
      apply (h.placed w).idle
      rw [hidle]
      nofun
    . intro _
      exact .inr ⟨false, rfl⟩
  | @leave w hw hidle htickling =>
    apply h.release hw
    . apply (h.placed w).idle
      rw [hidle]
      nofun
    . rfl
    . rfl
  | stop hstop => exact stop_places h hstop

end IOWorkers
end CXS
