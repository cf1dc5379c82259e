import CXS.Fiber.Refinement

/-!
This module contains the calls that the only thread of a scheduler makes on its fibers: the
constructor, `run` and `stop` of `code/scheduler.cc`, and the code of the tasks between them. It is
proved that they are calls of coroutines, so no assertion of `code/fiber.cc` fails on such a thread.

A task may create fibers, yield, return and throw, `idle` may yield and return. Which task the loop
takes from the queue next is open; it is never the `idle` fiber, which nobody else has a pointer to.
The pointers that tasks, the queue and other threads have to a fiber may go at any time, and with the
last pointer the fiber goes.
-/

namespace CXS

open FiberThread (Entry Context Call)

inductive SchedulerPc where
  | start
  | haveThis
  | haveRoot (r : Nat)
  | rootMain (r : Nat)
  | run
  | loop (idle : Nat) (cb : Option Nat)
  | cbReady (idle g : Nat)
  | inFiber (idle : Nat) (cb : Option Nat) (f : Nat)
  | inCb (idle g : Nat)
  | inIdle (idle : Nat) (cb : Option Nat)
  | returned
  deriving DecidableEq, Repr

-- the fibers that the thread has a pointer to
def SchedulerPc.held : SchedulerPc → List Nat
  | .haveRoot r => [r]
  | .rootMain r => [r]
  | .loop idle cb => idle :: cb.toList
  | .cbReady idle g => [idle, g]
  | .inFiber idle cb f => idle :: f :: cb.toList
  | .inCb idle g => [idle, g]
  | .inIdle idle cb => idle :: cb.toList
  | _ => []

structure SchedulerThread where
  t : FiberThread
  pc : SchedulerPc

namespace SchedulerThread

-- the stack of the fiber has `cur` on it, from the first line of its function to `cur.reset()`
def HasCur (t : FiberThread) (f : Nat) (x : FiberThread.Fiber) : Prop :=
  t.cpu.stack = .own f ∨ x.m_ctx.point ≠ .start ∧ x.m_ctx.point ≠ .ended

/-- The pointers to a fiber that do not go while the thread is at `pc`. -/
inductive Pointer (t : FiberThread) (pc : SchedulerPc) (f : Nat) (x : FiberThread.Fiber) : Prop where
  | held (h : f ∈ pc.held)
  | threadFiber (h : t.t_threadFiber = some f)
  | mainFiber (h : t.mainFiber = some f)
  | cur (h : HasCur t f x)

def mainEntry (use_caller : Bool) : Entry :=
  if use_caller then .CallerMainFunc else .thread

/--
The next call of the thread, or none where the loop goes on without one. The code that runs is that of
the scheduler's main fiber, or that of a fiber it has swapped in.
-/
inductive Next (use_caller : Bool) (t : FiberThread) : SchedulerPc → Option Call → SchedulerPc → Prop
    where
  | getThis : Next use_caller t .start (some .GetThis) .haveThis
  | mainFiber {m : Nat} (hworker : use_caller = false) (hm : t.t_fiber = some m)
    : Next use_caller t .haveThis (some (.setMainFiber m)) .run
  | createRoot (hcaller : use_caller = true)
    : Next use_caller t .haveThis (some (.create true true)) (.haveRoot t.count)
  | rootMain {r : Nat} : Next use_caller t (.haveRoot r) (some (.setMainFiber r)) (.rootMain r)
  | callRoot {r : Nat} : Next use_caller t (.rootMain r) (some (.call r)) .run
  | createIdle : Next use_caller t .run (some (.create true false)) (.loop t.count none)
  | swapInFiber {idle f : Nat} {cb : Option Nat} {x : FiberThread.Fiber} (hf : t.fibers f = some x)
    (hexec : x.m_state ≠ .EXEC) (hterm : x.m_state ≠ .TERM) (hexcep : x.m_state ≠ .EXECEP)
    (hidle : f ≠ idle)
    : Next use_caller t (.loop idle cb) (some (.swapIn f)) (.inFiber idle cb f)
  | createCb {idle : Nat}
    : Next use_caller t (.loop idle none) (some (.create true false)) (.cbReady idle t.count)
  | resetCb {idle g : Nat}
    : Next use_caller t (.loop idle (some g)) (some (.reset g true)) (.cbReady idle g)
  | swapInCb {idle g : Nat} : Next use_caller t (.cbReady idle g) (some (.swapIn g)) (.inCb idle g)
  | swapInIdle {idle : Nat} {cb : Option Nat} {x : FiberThread.Fiber} (hidle : t.fibers idle = some x)
    (hterm : x.m_state ≠ .TERM)
    : Next use_caller t (.loop idle cb) (some (.swapIn idle)) (.inIdle idle cb)
  | return {idle : Nat} {cb : Option Nat} {x : FiberThread.Fiber} (hidle : t.fibers idle = some x)
    (hterm : x.m_state = .TERM)
    : Next use_caller t (.loop idle cb) (if use_caller then some (.finish true) else none) .returned
  | settled {idle f : Nat} {cb : Option Nat} {x : FiberThread.Fiber}
    (hback : t.cpu.entry = mainEntry use_caller) (hf : t.fibers f = some x)
    (hstate : x.m_state = .READY ∨ x.m_state = .TERM ∨ x.m_state = .EXECEP)
    : Next use_caller t (.inFiber idle cb f) none (.loop idle cb)
  | hold {idle f : Nat} {cb : Option Nat} {x : FiberThread.Fiber}
    (hback : t.cpu.entry = mainEntry use_caller) (hf : t.fibers f = some x)
    (hready : x.m_state ≠ .READY) (hterm : x.m_state ≠ .TERM) (hexcep : x.m_state ≠ .EXECEP)
    : Next use_caller t (.inFiber idle cb f) (some (.setState f .HOLD)) (.loop idle cb)
  | readyCb {idle g : Nat} {x : FiberThread.Fiber} (hback : t.cpu.entry = mainEntry use_caller)
    (hg : t.fibers g = some x) (hstate : x.m_state = .READY)
    : Next use_caller t (.inCb idle g) none (.loop idle none)
  | endCb {idle g : Nat} {x : FiberThread.Fiber} (hback : t.cpu.entry = mainEntry use_caller)
    (hg : t.fibers g = some x) (hstate : x.m_state = .EXECEP ∨ x.m_state = .TERM)
    : Next use_caller t (.inCb idle g) (some (.reset g false)) (.loop idle (some g))
  | holdCb {idle g : Nat} {x : FiberThread.Fiber} (hback : t.cpu.entry = mainEntry use_caller)
    (hg : t.fibers g = some x) (hready : x.m_state ≠ .READY) (hexcep : x.m_state ≠ .EXECEP)
    (hterm : x.m_state ≠ .TERM)
    : Next use_caller t (.inCb idle g) (some (.setState g .HOLD)) (.loop idle none)
  | holdIdle {idle : Nat} {cb : Option Nat} {x : FiberThread.Fiber}
    (hback : t.cpu.entry = mainEntry use_caller) (hidle : t.fibers idle = some x)
    (hterm : x.m_state ≠ .TERM) (hexcep : x.m_state ≠ .EXECEP)
    : Next use_caller t (.inIdle idle cb) (some (.setState idle .HOLD)) (.loop idle cb)
  | termIdle {idle : Nat} {cb : Option Nat} {x : FiberThread.Fiber}
    (hback : t.cpu.entry = mainEntry use_caller) (hidle : t.fibers idle = some x)
    (hstate : x.m_state = .TERM ∨ x.m_state = .EXECEP)
    : Next use_caller t (.inIdle idle cb) none (.loop idle cb)
  | taskThis {pc : SchedulerPc} (hruns : t.cpu.entry = .MainFunc)
    : Next use_caller t pc (some .GetThis) pc
  | taskYield {pc : SchedulerPc} {call : Call} {m_state : FiberState} {f : Nat}
    {x : FiberThread.Fiber} (hruns : t.cpu.entry = .MainFunc) (hthis : t.t_fiber = some f)
    (hf : t.fibers f = some x) (hcb : x.m_cb) (hcall : Coroutines.yields call = some m_state)
    : Next use_caller t pc (some call) pc
  | taskFinish {pc : SchedulerPc} (hruns : t.cpu.entry = .MainFunc) (returns : Bool)
    (hidle : ∀ idle cb, pc = .inIdle idle cb → returns = true)
    : Next use_caller t pc (some (.finish returns)) pc
  | create (pc : SchedulerPc) (cb : Bool) : Next use_caller t pc (some (.create cb false)) pc
  | delete {pc : SchedulerPc} {f : Nat} {x : FiberThread.Fiber} (hf : t.fibers f = some x)
    (hlast : ¬ Pointer t pc f x) : Next use_caller t pc (some (.delete f)) pc

def start : SchedulerThread where
  t := FiberThread.new
  pc := .start

def lts (use_caller : Bool) : LTS SchedulerThread (Option (Call × Option Context)) where
  step s l s' :=
    match l with
    | none => Next use_caller s.t s.pc none s'.pc ∧ s'.t = s.t
    | some (call, ctx) =>
      Next use_caller s.t s.pc (some call) s'.pc ∧ s.t.step call = .ok (s'.t, ctx)

end SchedulerThread

namespace Coroutines

open SchedulerThread (mainEntry Next Pointer)

def Task (a : Coroutines) (f : Nat) (p : Coroutine → Prop) : Prop :=
  ∃ c, a.fibers f = some c ∧ c.entry = .MainFunc ∧ p c

def Callers (a : Coroutines) (root : Option Nat) : Prop :=
  ∀ g c, a.fibers g = some c → c.entry = .CallerMainFunc → root = some g

structure Main (use_caller : Bool) (a : Coroutines) : Prop where
  main : ∃ m c, a.main = some m ∧ a.fibers m = some c ∧ c.entry = mainEntry use_caller
  callers : a.Callers a.main

def Alone (a : Coroutines) : Prop :=
  a.current = a.thread ∧ a.current ≠ none

def Root (a : Coroutines) (r : Nat) : Prop :=
  ∃ c, a.fibers r = some c ∧ c.entry = .CallerMainFunc ∧ c.status = .fresh

def Loop (use_caller : Bool) (a : Coroutines) : Prop :=
  a.Main use_caller ∧ a.current = a.main

def Behind (use_caller : Bool) (a : Coroutines) (f : Nat) : Prop :=
  a.Main use_caller ∧ a.Task f (fun c => c.status ≠ .fresh)
    ∧ (a.current = some f ∨ a.current = a.main)

def Idle (a : Coroutines) (idle : Nat) : Prop :=
  a.Task idle fun c => c.status = .done true ∨ c.cb = true ∧ c.Resumable

def Idling (a : Coroutines) (idle : Nat) : Prop :=
  a.Task idle fun c => c.status = .done true ∨ c.cb = true ∧ ∀ returned, c.status ≠ .done returned

def Spare (a : Coroutines) (idle : Nat) (cb : Option Nat) : Prop :=
  ∀ g, cb = some g → g ≠ idle
    ∧ a.Task g fun c => c.cb = false ∧ (c.Unused ∨ a.current = some g)

/-- What the coroutines of the thread are at each of its places. -/
def At (use_caller : Bool) (a : Coroutines) : SchedulerPc → Prop
  | .start => a.current = none ∧ a.Callers none
  | .haveThis => a.Alone ∧ a.Callers none
  | .haveRoot r => use_caller = true ∧ a.Alone ∧ a.Callers (some r) ∧ a.Root r
  | .rootMain r => use_caller = true ∧ a.Alone ∧ a.Callers (some r) ∧ a.Root r ∧ a.main = some r
  | .run => a.Loop use_caller
  | .loop idle cb => a.Loop use_caller ∧ a.Idle idle ∧ a.Spare idle cb
  | .cbReady idle g =>
    a.Loop use_caller ∧ a.Idle idle ∧ g ≠ idle ∧ a.Task g fun c => c.status = .fresh
  | .inFiber idle cb f =>
    a.Behind use_caller f ∧ f ≠ idle ∧ a.Idle idle ∧ a.Spare idle cb
  | .inCb idle g => a.Behind use_caller g ∧ g ≠ idle ∧ a.Idle idle
  | .inIdle idle cb => a.Behind use_caller idle ∧ a.Idling idle ∧ a.Spare idle cb
  | .returned => a.current = a.thread

section Status

variable {a : Coroutines} {t : FiberThread} {f m : Nat} {c : Coroutine} {x : FiberThread.Fiber}

theorem Represents.of_fibers (h : Represents a t) (hx : t.fibers f = some x)
    : ∃ c, a.fibers f = some c ∧ FiberShows t f c x := by
  have hshows := h.fibers f
  cases hf : a.fibers f with
  | none =>
    rw [hf] at hshows
    rw [hshows] at hx
    cases hx
  | some c =>
    rw [hf] at hshows
    obtain ⟨y, hy, hshow⟩ := hshows
    rw [hx, Option.some.injEq] at hy
    rw [← hy] at hshow
    exact ⟨c, rfl, hshow⟩

theorem Represents.cpu_entry (h : Represents a t) (hinv : Inv a) (hcurrent : a.current = some f)
    (hf : a.fibers f = some c) : t.cpu.entry = c.entry := by
  obtain ⟨x, -, hshow⟩ := h.get hf
  obtain ⟨d, hd, hrun⟩ := hinv.shape.current_running hcurrent
  rw [hf, Option.some.injEq] at hd
  rw [← hd] at hrun
  rw [hshow.cpu hrun, Coroutine.code]

theorem Inv.yielded (h : Inv a) (hf : a.fibers f = some c) {m_state : FiberState}
    (hsusp : c.status = .suspended m_state) : Coroutine.Yielded m_state := by
  have hrests := h.shape.rests_of_status hf (by rw [hsusp]; exact nofun) (by rw [hsusp]; exact nofun)
  exact hrests.2.2.2 m_state hsusp

theorem Inv.ended (h : Inv a) (hf : a.fibers f = some c)
    (hstate : c.status.m_state = .TERM ∨ c.status.m_state = .EXECEP)
    : ∃ returned, c.status = .done returned := by
  have hyield : ∀ m_state, c.status = .suspended m_state → Coroutine.Yielded m_state :=
    fun _ => h.yielded hf
  obtain ⟨entry, cb, status⟩ := c
  dsimp only at *
  cases status with
  | fresh => rcases hstate with hstate | hstate <;> cases hstate
  | suspended m_state =>
    rcases hyield m_state rfl with rfl | rfl | rfl
    . rcases hstate with hstate | hstate <;> cases hstate
    . rcases hstate with hstate | hstate <;> cases hstate
    . rcases hstate with hstate | hstate <;> cases hstate
  | waiting point => rcases hstate with hstate | hstate <;> cases hstate
  | running => rcases hstate with hstate | hstate <;> cases hstate
  | done returned => exact ⟨returned, rfl⟩

theorem Shape.rests_of_other (h : a.Shape) (hf : a.fibers f = some c) (hcurrent : a.current ≠ some f)
    (hthread : a.thread ≠ some f) (hmain : a.main ≠ some f) : c.Rests := by
  have hne : ∀ {o : Option Nat} {g}, o = some g → o ≠ some f → f ≠ g := by
    rintro o g ho hnot rfl
    exact hnot ho
  cases h with
  | none _ _ hrest => exact hrest f c hf
  | thread t _ hthr _ _ hrest => exact hrest f c (hne hthr hthread) hf
  | fiber g t hcur hthr _ _ _ _ _ hrest =>
    exact hrest f c (hne hthr hthread) (hne hcur hcurrent) hf
  | root r t hcur hthr _ _ _ _ hrest =>
    exact hrest f c (hne hthr hthread) (hne hcur hcurrent) hf
  | task g r t hcur hthr hmn _ _ _ _ _ _ hrest =>
    exact hrest f c (hne hthr hthread) (hne hmn hmain) (hne hcur hcurrent) hf

/-- A fiber without a pointer to it has not started or has ended, so it can be deleted. -/
theorem Represents.unused {pc : SchedulerPc} (h : Represents a t) (hinv : Inv a)
    (hf : a.fibers f = some c) (hshow : FiberShows t f c x) (hlast : ¬ Pointer t pc f x)
    : c.Unused := by
  have hthread : a.thread ≠ some f := fun heq => hlast (.threadFiber (h.t_threadFiber.trans heq))
  have hmain : a.main ≠ some f := fun heq => hlast (.mainFiber (h.mainFiber.trans heq))
  have hcurrent : a.current ≠ some f := by
    intro heq
    obtain ⟨d, hd, hrun⟩ := hinv.shape.current_running heq
    rw [hf, Option.some.injEq] at hd
    rw [← hd] at hrun
    refine hlast (.cur (.inl ?_))
    rw [hshow.cpu hrun]
    exact if_neg fun hentry => hthread (hinv.shape.thread_of_entry hf hentry)
  have hrests := hinv.shape.rests_of_other hf hcurrent hthread hmain
  obtain ⟨entry, cb, status⟩ := c
  cases status with
  | fresh => exact .inl rfl
  | suspended m_state =>
    obtain ⟨hctx, -⟩ := hshow.m_ctx _ rfl
    refine absurd (.cur (.inr ?_)) hlast
    rw [hctx]
    exact ⟨nofun, nofun⟩
  | waiting point => exact absurd rfl (hrests.2.2.1 point)
  | running => exact absurd rfl hrests.2.1
  | done returned => exact .inr ⟨returned, rfl⟩

theorem resumable_of_m_state (hexec : c.status.m_state ≠ .EXEC) (hterm : c.status.m_state ≠ .TERM)
    (hexcep : c.status.m_state ≠ .EXECEP) : c.Resumable := by
  obtain ⟨entry, cb, status⟩ := c
  cases status with
  | fresh => exact .inl rfl
  | suspended m_state => exact .inr ⟨m_state, hexec, rfl⟩
  | waiting point => exact absurd rfl hexec
  | running => exact absurd rfl hexec
  | done returned =>
    cases returned with
    | true => exact absurd rfl hterm
    | false => exact absurd rfl hexcep

theorem suspended_of_m_state (hrests : c.Rests) (hfresh : c.status ≠ .fresh)
    (hterm : c.status.m_state ≠ .TERM) (hexcep : c.status.m_state ≠ .EXECEP)
    : ∃ m_state, c.status = .suspended m_state := by
  obtain ⟨entry, cb, status⟩ := c
  cases status with
  | fresh => exact absurd rfl hfresh
  | suspended m_state => exact ⟨m_state, rfl⟩
  | waiting point => exact absurd rfl (hrests.2.2.1 point)
  | running => exact absurd rfl hrests.2.1
  | done returned =>
    cases returned with
    | true => exact absurd rfl hterm
    | false => exact absurd rfl hexcep

end Status

section Frame

variable {a a' : Coroutines} {use_caller : Bool} {f g m : Nat} {c d : Coroutine}
  {p : Coroutine → Prop}

theorem mainEntry_ne (use_caller : Bool) : mainEntry use_caller ≠ .MainFunc := by
  cases use_caller <;> decide

theorem Task.congr (h : a.Task g p) (hkeep : a'.fibers g = a.fibers g) : a'.Task g p := by
  obtain ⟨c, hc, hentry, hp⟩ := h
  exact ⟨c, hkeep.trans hc, hentry, hp⟩

theorem Task.mono {q : Coroutine → Prop} (h : a.Task g p) (hpq : ∀ c, p c → q c) : a.Task g q := by
  obtain ⟨c, hc, hentry, hp⟩ := h
  exact ⟨c, hc, hentry, hpq c hp⟩

theorem Main.ne_task (h : a.Main use_caller) (hmain : a.main = some m) (htask : a.Task g p)
    : g ≠ m := by
  obtain ⟨m', c, hm', hc, hentry⟩ := h.main
  obtain ⟨d, hd, hentry', -⟩ := htask
  rw [hmain, Option.some.injEq] at hm'
  rw [← hm'] at hc
  apply ne_of_fibers hd hc
  intro heq
  rw [← heq, hentry'] at hentry
  exact mainEntry_ne use_caller hentry.symm

theorem add_other (hne : f ≠ a.count) : (a.add c).fibers f = a.fibers f :=
  Function.update_of_ne hne _ _

theorem set_other (hne : g ≠ f) : (a.set f c).fibers g = a.fibers g :=
  Function.update_of_ne hne _ _

theorem Callers.of_entry {root : Option Nat} (h : a.Callers root)
    (hold : ∀ g c', a'.fibers g = some c' → c'.entry = .CallerMainFunc
      → ∃ c, a.fibers g = some c ∧ c.entry = .CallerMainFunc) : a'.Callers root := by
  intro g c' hg hentry
  obtain ⟨c, hc, hentry'⟩ := hold g c' hg hentry
  exact h g c hc hentry'

theorem Main.set (h : a.Main use_caller) (hf : a.fibers f = some c) {c' : Coroutine}
    (hentry : c'.entry = c.entry) : (a.set f c').Main use_caller where
  main := by
    obtain ⟨m, d, hm, hd, hentry'⟩ := h.main
    by_cases hmf : m = f
    . refine ⟨m, c', hm, ?_, ?_⟩
      . rw [hmf]
        exact Function.update_self f _ _
      . rw [hmf, hf, Option.some.injEq] at hd
        rw [hentry, hd, hentry']
    . exact ⟨m, d, hm, (set_other hmf).trans hd, hentry'⟩
  callers := by
    apply h.callers.of_entry
    intro g e hg he
    by_cases hgf : g = f
    . rw [hgf] at hg ⊢
      have heq : e = c' := by
        change Function.update a.fibers f _ f = some e at hg
        rw [Function.update_self, Option.some.injEq] at hg
        exact hg.symm
      exact ⟨c, hf, by rw [← hentry, ← heq, he]⟩
    . rw [set_other hgf] at hg
      exact ⟨e, hg, he⟩

theorem Main.switch (h : a.Main use_caller) (hf : a.fibers f = some c) (hm : a.fibers m = some d)
    (hne : m ≠ f) {c' : Coroutine} (hentry : c'.entry = c.entry)
    : (a.switch f c' m d).Main use_caller := by
  have hother : (a.set f c').fibers m = some d := (set_other hne).trans hm
  have hrun : ({ d with status := .running } : Coroutine).entry = d.entry := rfl
  have hset := (h.set hf hentry).set hother hrun
  exact ⟨hset.main, hset.callers⟩

end Frame

section At

variable {a a' : Coroutines} {use_caller : Bool} {pc : SchedulerPc} {f g m idle : Nat}
  {cb : Option Nat} {c c' d : Coroutine}

theorem At.of_held (h : a.At use_caller pc) (hcurrent : a'.current = a.current)
    (hthread : a'.thread = a.thread) (hmain : a'.main = a.main)
    (hkeep : ∀ g c, g ∈ pc.held ∨ a.main = some g → a.fibers g = some c → a'.fibers g = some c)
    (hold : ∀ g c', a'.fibers g = some c' → c'.entry = .CallerMainFunc
      → ∃ c, a.fibers g = some c ∧ c.entry = .CallerMainFunc) : a'.At use_caller pc := by
  have hAlone : a.Alone → a'.Alone := by
    rintro ⟨halone, hsome⟩
    exact ⟨by rw [hcurrent, hthread, halone], by rw [hcurrent]; exact hsome⟩
  have hCallers : ∀ root, a.Callers root → a'.Callers root := fun root hc => hc.of_entry hold
  have hRoot : ∀ r, r ∈ pc.held → a.Root r → a'.Root r := by
    rintro r hr ⟨c, hc, hentry, hfresh⟩
    exact ⟨c, hkeep r c (.inl hr) hc, hentry, hfresh⟩
  have hMain : a.Main use_caller → a'.Main use_caller := by
    rintro ⟨⟨m, c, hm, hc, hentry⟩, hc'⟩
    refine ⟨⟨m, c, hmain.trans hm, hkeep m c (.inr hm) hc, hentry⟩, ?_⟩
    rw [hmain]
    exact hCallers _ hc'
  have hLoop : a.Loop use_caller → a'.Loop use_caller := by
    rintro ⟨hm, hcur⟩
    exact ⟨hMain hm, by rw [hcurrent, hmain, hcur]⟩
  have hTask : ∀ {g p}, g ∈ pc.held → a.Task g p → a'.Task g p := by
    rintro g p hg ⟨c, hc, hentry, hp⟩
    exact ⟨c, hkeep g c (.inl hg) hc, hentry, hp⟩
  have hBehind : ∀ {f}, f ∈ pc.held → a.Behind use_caller f → a'.Behind use_caller f := by
    rintro f hf ⟨hm, htask, hcur⟩
    refine ⟨hMain hm, hTask hf htask, ?_⟩
    rw [hcurrent, hmain]
    exact hcur
  have hSpare : ∀ {idle cb}, (∀ g, cb = some g → g ∈ pc.held) → a.Spare idle cb
      → a'.Spare idle cb := by
    intro idle cb hheld hspare g hg
    refine ⟨(hspare g hg).1, ?_⟩
    rw [hcurrent]
    exact hTask (hheld g hg) (hspare g hg).2
  cases pc with
  | start => exact ⟨hcurrent.trans h.1, hCallers _ h.2⟩
  | haveThis => exact ⟨hAlone h.1, hCallers _ h.2⟩
  | haveRoot r =>
    obtain ⟨hcaller, halone, hcallers, hroot⟩ := h
    exact ⟨hcaller, hAlone halone, hCallers _ hcallers, hRoot r (by simp [SchedulerPc.held]) hroot⟩
  | rootMain r =>
    obtain ⟨hcaller, halone, hcallers, hroot, hm⟩ := h
    exact ⟨hcaller, hAlone halone, hCallers _ hcallers, hRoot r (by simp [SchedulerPc.held]) hroot,
      hmain.trans hm⟩
  | run => exact hLoop h
  | loop idle cb =>
    obtain ⟨hloop, hidle, hspare⟩ := h
    refine ⟨hLoop hloop, hTask (by simp [SchedulerPc.held]) hidle, hSpare ?_ hspare⟩
    intro g hg
    simp [SchedulerPc.held, hg]
  | cbReady idle g =>
    obtain ⟨hloop, hidle, hne, hfresh⟩ := h
    exact ⟨hLoop hloop, hTask (by simp [SchedulerPc.held]) hidle, hne,
      hTask (by simp [SchedulerPc.held]) hfresh⟩
  | inFiber idle cb f =>
    obtain ⟨hbehind, hne, hidle, hspare⟩ := h
    refine ⟨hBehind (by simp [SchedulerPc.held]) hbehind, hne,
      hTask (by simp [SchedulerPc.held]) hidle, hSpare ?_ hspare⟩
    intro g hg
    simp [SchedulerPc.held, hg]
  | inCb idle g =>
    obtain ⟨hbehind, hne, hidle⟩ := h
    exact ⟨hBehind (by simp [SchedulerPc.held]) hbehind, hne, hTask (by simp [SchedulerPc.held]) hidle⟩
  | inIdle idle cb =>
    obtain ⟨hbehind, hidle, hspare⟩ := h
    refine ⟨hBehind (by simp [SchedulerPc.held]) hbehind,
      hTask (by simp [SchedulerPc.held]) hidle, hSpare ?_ hspare⟩
    intro g hg
    simp [SchedulerPc.held, hg]
  | returned =>
    change a'.current = a'.thread
    rw [hcurrent, hthread]
    exact h

theorem Inv.alone (h : Inv a) (hcurrent : a.current = some m) (hthread : a.thread = some m)
    : ∃ cb, a.fibers m = some ⟨.thread, cb, .running⟩ := by
  cases h.shape with
  | none hcur => rw [hcur] at hcurrent; cases hcurrent
  | thread t hcur _ cb ht =>
    rw [hcur, Option.some.injEq] at hcurrent
    rw [hcurrent] at ht
    exact ⟨cb, ht⟩
  | fiber g t hcur hthr _ cb cb' ht hg =>
    rw [hcur, Option.some.injEq] at hcurrent
    rw [hthr, Option.some.injEq] at hthread
    rw [hcurrent, ← hthread, ht] at hg
    cases hg
  | root r t hcur hthr cb cb' ht hr =>
    rw [hcur, Option.some.injEq] at hcurrent
    rw [hthr, Option.some.injEq] at hthread
    rw [hcurrent, ← hthread, ht] at hr
    cases hr
  | task g r t hcur hthr _ cb cb' cb'' ht _ hg =>
    rw [hcur, Option.some.injEq] at hcurrent
    rw [hthr, Option.some.injEq] at hthread
    rw [hcurrent, ← hthread, ht] at hg
    cases hg

theorem Inv.main_of_running (h : Inv a) (hcurrent : a.current = some f) (hf : a.fibers f = some c)
    (hentry : c.entry = .MainFunc) : ∃ m d, a.main = some m ∧ a.fibers m = some d := by
  cases h.shape with
  | none hcur => rw [hcur] at hcurrent; cases hcurrent
  | thread t hcur hthr cb ht =>
    rw [hcur, Option.some.injEq] at hcurrent
    rw [hcurrent, hf, Option.some.injEq] at ht
    rw [ht] at hentry
    cases hentry
  | fiber g t hcur hthr hmn cb cb' ht => exact ⟨t, _, hmn, ht⟩
  | root r t hcur hthr cb cb' ht hr =>
    rw [hcur, Option.some.injEq] at hcurrent
    rw [hcurrent, hf, Option.some.injEq] at hr
    rw [hr] at hentry
    cases hentry
  | task g r t hcur hthr hmn cb cb' cb'' ht hr => exact ⟨r, _, hmn, hr⟩

theorem Alone.not_task (h : a.current = a.thread) (hinv : Inv a) (hcurrent : a.current = some f)
    (hf : a.fibers f = some c) : c.entry ≠ .MainFunc := by
  obtain ⟨cb, ht⟩ := hinv.alone hcurrent (h ▸ hcurrent)
  rw [hf, Option.some.injEq] at ht
  rw [ht]
  exact nofun

theorem Loop.not_task (h : a.Loop use_caller) (hcurrent : a.current = some f)
    (hf : a.fibers f = some c) : c.entry ≠ .MainFunc := by
  obtain ⟨⟨⟨m, d, hm, hd, hentry⟩, -⟩, hcur⟩ := h
  rw [hcurrent, hm, Option.some.injEq] at hcur
  rw [← hcur, hf, Option.some.injEq] at hd
  rw [hd, hentry]
  exact mainEntry_ne use_caller

theorem Behind.giveBack (h : a.Behind use_caller f) (hf : a.fibers f = some c)
    (hmain : a.main = some m) (hm : a.fibers m = some d) (hentry : c'.entry = c.entry)
    (hfresh : c'.status ≠ .fresh) : (a.switch f c' m d).Behind use_caller f := by
  obtain ⟨hMain, htask, -⟩ := h
  have hne := (hMain.ne_task hmain htask).symm
  refine ⟨hMain.switch hf hm hne hentry, ?_, .inr hmain.symm⟩
  obtain ⟨e, he, hentry', -⟩ := htask
  rw [hf, Option.some.injEq] at he
  exact ⟨c', switch_source hne.symm, by rw [hentry, he, hentry'], hfresh⟩

theorem Spare.giveBack (h : a.Spare idle cb) (hMain : a.Main use_caller) (hf : a.fibers f = some c)
    (hmain : a.main = some m) (hne : m ≠ f) (hentry : c'.entry = c.entry)
    (hcb : c.cb = false → c'.cb = false ∧ c'.Unused) (hcurrent : a.current = some f)
    : (a.switch f c' m d).Spare idle cb := by
  intro g hg
  obtain ⟨hgi, htask⟩ := h g hg
  refine ⟨hgi, ?_⟩
  have hgm := hMain.ne_task hmain htask
  by_cases hgf : g = f
  . obtain ⟨e, he, hentry', hnone, -⟩ := htask
    rw [hgf, hf, Option.some.injEq] at he
    rw [← he] at hnone hentry'
    obtain ⟨hnone', hunused⟩ := hcb hnone
    refine ⟨c', ?_, hentry.trans hentry', hnone', .inl hunused⟩
    rw [hgf]
    exact switch_source hne.symm
  . apply (htask.congr (switch_other hgf hgm)).mono
    rintro e ⟨hnone, hunused | hcur⟩
    . exact ⟨hnone, .inl hunused⟩
    . rw [hcurrent, Option.some.injEq] at hcur
      exact absurd hcur.symm hgf

theorem At.giveBack (h : a.At use_caller pc) (hinv : Inv a) (hcurrent : a.current = some f)
    (hf : a.fibers f = some c) (htask : c.entry = .MainFunc) (hmain : a.main = some m)
    (hm : a.fibers m = some d) (hentry : c'.entry = c.entry) (hfresh : c'.status ≠ .fresh)
    (hcb : c.cb = false → c'.cb = false ∧ c'.Unused)
    (hidle : ∀ idle cb, pc = .inIdle idle cb → c.cb = true
      → c'.status = .done true ∨ c'.cb = true ∧ ∀ returned, c'.status ≠ .done returned)
    : (a.switch f c' m d).At use_caller pc := by
  have hnotAlone : a.current ≠ a.thread := fun h => Alone.not_task h hinv hcurrent hf htask
  have hnotLoop : ¬ a.Loop use_caller := fun h => h.not_task hcurrent hf htask
  obtain ⟨hrun, -, hne⟩ := hinv.main_waits hcurrent hf htask hmain hm
  have hthis : ∀ {g}, a.Behind use_caller g → g = f := by
    rintro g ⟨hMain, htask', hcur | hcur⟩
    . rw [hcurrent, Option.some.injEq] at hcur
      exact hcur.symm
    . exact absurd ⟨hMain, hcur⟩ hnotLoop
  have hIdle : ∀ {idle}, a.Main use_caller → f ≠ idle → a.Idle idle
      → (a.switch f c' m d).Idle idle := by
    intro idle hMain hfi hidle
    exact hidle.congr (switch_other hfi.symm (hMain.ne_task hmain hidle))
  cases pc with
  | start => rw [h.1] at hcurrent; cases hcurrent
  | haveThis => exact absurd h.1.1 hnotAlone
  | haveRoot r => exact absurd h.2.1.1 hnotAlone
  | rootMain r => exact absurd h.2.1.1 hnotAlone
  | run => exact absurd h hnotLoop
  | loop idle cb => exact absurd h.1 hnotLoop
  | cbReady idle g => exact absurd h.1 hnotLoop
  | inFiber idle cb g =>
    obtain ⟨hbehind, hgi, hidle, hspare⟩ := h
    have hgf := hthis hbehind
    subst hgf
    exact ⟨hbehind.giveBack hf hmain hm hentry hfresh, hgi, hIdle hbehind.1 hgi hidle,
      hspare.giveBack hbehind.1 hf hmain hne hentry hcb hcurrent⟩
  | inCb idle g =>
    obtain ⟨hbehind, hgi, hidle⟩ := h
    have hgf := hthis hbehind
    subst hgf
    exact ⟨hbehind.giveBack hf hmain hm hentry hfresh, hgi, hIdle hbehind.1 hgi hidle⟩
  | inIdle idle cb =>
    obtain ⟨hbehind, hidling, hspare⟩ := h
    have hgf := hthis hbehind
    subst hgf
    refine ⟨hbehind.giveBack hf hmain hm hentry hfresh, ?_,
      hspare.giveBack hbehind.1 hf hmain hne hentry hcb hcurrent⟩
    obtain ⟨e, he, hentry', hdone | ⟨hset, -⟩⟩ := hidling
    . rw [hf, Option.some.injEq] at he
      rw [← he, hrun] at hdone
      cases hdone
    . rw [hf, Option.some.injEq] at he
      rw [← he] at hset
      exact ⟨c', switch_source hne.symm, by rw [hentry, htask], hidle _ _ rfl hset⟩
  | returned => exact absurd h hnotAlone

end At

def Goes (use_caller : Bool) (a : Coroutines) (call : Call) (pc' : SchedulerPc) : Prop :=
  ∃ a' ctx, Step a (call, ctx) a' ∧ a'.At use_caller pc'

section Goes

variable {a : Coroutines} {use_caller : Bool} {pc : SchedulerPc} {f g m r idle : Nat}
  {cb : Option Nat} {c c' d : Coroutine}

theorem add_self : (a.add c).fibers a.count = some c :=
  Function.update_self a.count _ _

theorem set_self : (a.set f c).fibers f = some c :=
  Function.update_self f _ _

theorem At.getThis (h : a.At use_caller .start) : Goes use_caller a .GetThis .haveThis := by
  refine ⟨_, none, .start h.1, ⟨rfl, nofun⟩, ?_⟩
  apply h.2.of_entry
  intro g e hg hentry
  change (a.add ⟨.thread, false, .running⟩).fibers g = some e at hg
  by_cases hga : g = a.count
  . rw [hga, add_self, Option.some.injEq] at hg
    rw [← hg] at hentry
    cases hentry
  . rw [add_other hga] at hg
    exact ⟨e, hg, hentry⟩

theorem At.mainFiber (h : a.At use_caller .haveThis) (hinv : Inv a) (hworker : use_caller = false)
    (hm : a.current = some m) : Goes use_caller a (.setMainFiber m) .run := by
  subst hworker
  obtain ⟨⟨halone, -⟩, hcallers⟩ := h
  obtain ⟨cb, ht⟩ := hinv.alone hm (halone ▸ hm)
  refine ⟨_, none, .setMainFiber m halone, ⟨⟨m, _, rfl, ht, rfl⟩, ?_⟩, hm⟩
  intro g c hg hentry
  cases hcallers g c hg hentry

theorem At.createRoot (h : a.At use_caller .haveThis) (hcaller : use_caller = true)
    : Goes use_caller a (.create true true) (.haveRoot a.count) := by
  obtain ⟨halone, hcallers⟩ := h
  refine ⟨_, none, .create a true true, hcaller, halone, ?_, ⟨_, add_self, rfl, rfl⟩⟩
  intro g c hg hentry
  by_cases hga : g = a.count
  . rw [hga]
  . rw [add_other hga] at hg
    cases hcallers g c hg hentry

theorem At.rootMain (h : a.At use_caller (.haveRoot r))
    : Goes use_caller a (.setMainFiber r) (.rootMain r) := by
  obtain ⟨hcaller, halone, hcallers, hroot⟩ := h
  exact ⟨_, none, .setMainFiber r halone.1, hcaller, halone, hcallers, hroot, rfl⟩

theorem At.callRoot (h : a.At use_caller (.rootMain r)) (hinv : Inv a)
    : Goes use_caller a (.call r) .run := by
  obtain ⟨hcaller, ⟨halone, hsome⟩, hcallers, ⟨d, hr, hentry, hfresh⟩, hmain⟩ := h
  subst hcaller
  obtain ⟨m, hm⟩ := Option.ne_none_iff_exists'.mp hsome
  obtain ⟨cb, ht⟩ := hinv.alone hm (halone ▸ hm)
  have hne : r ≠ m := by
    apply ne_of_fibers hr ht
    intro heq
    rw [heq] at hentry
    cases hentry
  have hMain : a.Main true := ⟨⟨r, d, hmain, hr, hentry⟩, hmain ▸ hcallers⟩
  exact ⟨_, _, .call hm (halone ▸ hm) ht hr hentry hfresh, hMain.switch ht hr hne rfl, hmain.symm⟩

theorem At.create (h : a.At use_caller pc) (hinv : Inv a) (cb : Bool)
    : (a.add ⟨.MainFunc, cb, .fresh⟩).At use_caller pc := by
  apply h.of_held
  . rfl
  . rfl
  . rfl
  . intro g e _ hg
    rw [add_other (Nat.ne_of_lt (hinv.lt hg))]
    exact hg
  . intro g e hg hentry
    by_cases hga : g = a.count
    . rw [hga, add_self, Option.some.injEq] at hg
      rw [← hg] at hentry
      cases hentry
    . rw [add_other hga] at hg
      exact ⟨e, hg, hentry⟩

theorem At.createIdle (h : a.At use_caller .run) (hinv : Inv a)
    : Goes use_caller a (.create true false) (.loop a.count none) :=
  ⟨_, none, .create a true false, h.create hinv true,
    ⟨_, add_self, rfl, .inr ⟨rfl, .inl rfl⟩⟩, nofun⟩

theorem At.createCb (h : a.At use_caller (.loop idle none)) (hinv : Inv a)
    : Goes use_caller a (.create true false) (.cbReady idle a.count) := by
  obtain ⟨hloop, hidle, -⟩ := h.create hinv true
  refine ⟨_, none, .create a true false, hloop, hidle, ?_, ⟨_, add_self, rfl, rfl⟩⟩
  obtain ⟨c, hc, -⟩ := h.2.1
  exact (Nat.ne_of_lt (hinv.lt hc)).symm

theorem Loop.set (h : a.Loop use_caller) (hf : a.fibers f = some c) (hentry : c'.entry = c.entry)
    : (a.set f c').Loop use_caller :=
  ⟨h.1.set hf hentry, h.2⟩

theorem Spare.set (h : a.Spare idle cb) (hne : cb ≠ some f) : (a.set f c').Spare idle cb := by
  intro g hg
  obtain ⟨hgi, htask⟩ := h g hg
  refine ⟨hgi, htask.congr (set_other ?_)⟩
  rintro rfl
  exact hne hg

theorem Spare.unused (h : a.Spare idle (some g)) (hloop : a.current ≠ some g)
    : a.Task g fun c => c.cb = false ∧ c.Unused := by
  apply (h g rfl).2.mono
  rintro c ⟨hcb, hunused | hcur⟩
  . exact ⟨hcb, hunused⟩
  . exact absurd hcur hloop

theorem Loop.current_ne {p : Coroutine → Prop} (h : a.Loop use_caller) (htask : a.Task f p)
    : a.current ≠ some f := by
  intro hcurrent
  obtain ⟨c, hc, hentry, -⟩ := htask
  exact h.not_task hcurrent hc hentry

theorem At.resetCb (h : a.At use_caller (.loop idle (some g)))
    : Goes use_caller a (.reset g true) (.cbReady idle g) := by
  obtain ⟨hloop, hidle, hspare⟩ := h
  obtain ⟨hne, htask⟩ := hspare g rfl
  obtain ⟨c, hc, hentry, -, hunused⟩ := hspare.unused (hloop.current_ne htask)
  exact ⟨_, none, .reset true hc hunused, hloop.set hc hentry.symm, hidle.congr (set_other hne.symm),
    hne, ⟨_, set_self, rfl, rfl⟩⟩

theorem Loop.swapIn (h : a.Loop use_caller) (htask : a.Task f Coroutine.Resumable)
    : ∃ a' ctx d, Step a (.swapIn f, ctx) a' ∧ a'.Main use_caller ∧ a'.current = some f
        ∧ a.fibers f = some d ∧ d.entry = .MainFunc ∧ d.Resumable
        ∧ a'.fibers f = some { d with status := .running }
        ∧ ∀ g p, g ≠ f → a.Task g p → a'.Task g p := by
  obtain ⟨hMain, hcur⟩ := h
  obtain ⟨m, c, hm, hc, -⟩ := hMain.main
  have hne := hMain.ne_task hm htask
  obtain ⟨d, hd, hentry, hready⟩ := htask
  refine ⟨_, _, d, .swapIn (hcur.trans hm) hm hc hd hentry hready, hMain.switch hc hd hne rfl,
    rfl, hd, hentry, hready, switch_target, ?_⟩
  intro g p hgf hg
  exact hg.congr (switch_other (hMain.ne_task hm hg) hgf)

theorem Behind.of_running (hMain : a.Main use_caller) (hcurrent : a.current = some f)
    (hf : a.fibers f = some { d with status := .running }) (hentry : d.entry = .MainFunc)
    : a.Behind use_caller f :=
  ⟨hMain, ⟨_, hf, hentry, nofun⟩, .inl hcurrent⟩

theorem At.swapInFiber (h : a.At use_caller (.loop idle cb)) (hidle : f ≠ idle)
    (htask : a.Task f Coroutine.Resumable) : Goes use_caller a (.swapIn f) (.inFiber idle cb f) := by
  obtain ⟨hloop, hIdle, hspare⟩ := h
  obtain ⟨a', ctx, d, hstep, hMain, hcurrent, hd, hentry, hready, hf, hother⟩ := hloop.swapIn htask
  refine ⟨a', ctx, hstep, .of_running hMain hcurrent hf hentry, hidle,
    hother idle _ hidle.symm hIdle, ?_⟩
  intro g hg
  obtain ⟨hgi, hgt⟩ := hspare g hg
  refine ⟨hgi, ?_⟩
  by_cases hgf : g = f
  . obtain ⟨e, he, -, hcb, -⟩ := hgt
    rw [hgf, hd, Option.some.injEq] at he
    rw [hgf]
    exact ⟨_, hf, hentry, he ▸ hcb, .inr hcurrent⟩
  . rw [hg] at hspare
    apply (hother g _ hgf (hspare.unused (hloop.current_ne hgt))).mono
    rintro e ⟨hcb, hunused⟩
    exact ⟨hcb, .inl hunused⟩

theorem At.swapInCb (h : a.At use_caller (.cbReady idle g))
    : Goes use_caller a (.swapIn g) (.inCb idle g) := by
  obtain ⟨hloop, hidle, hne, htask⟩ := h
  obtain ⟨a', ctx, d, hstep, hMain, hcurrent, hd, hentry, hready, hg, hother⟩ :=
    hloop.swapIn (htask.mono fun _ => .inl)
  exact ⟨a', ctx, hstep, .of_running hMain hcurrent hg hentry, hne, hother idle _ hne.symm hidle⟩

theorem At.swapInIdle (h : a.At use_caller (.loop idle cb))
    (hterm : ∀ c, a.fibers idle = some c → c.status ≠ .done true)
    : Goes use_caller a (.swapIn idle) (.inIdle idle cb) := by
  obtain ⟨hloop, ⟨c, hc, hentry, hdone | ⟨hcb, hready⟩⟩, hspare⟩ := h
  . exact absurd hdone (hterm c hc)
  . obtain ⟨a', ctx, d, hstep, hMain, hcurrent, hd, hentry', -, hf, hother⟩ :=
      hloop.swapIn ⟨c, hc, hentry, hready⟩
    rw [hc, Option.some.injEq] at hd
    rw [← hd] at hf
    refine ⟨a', ctx, hstep, .of_running hMain hcurrent hf hentry,
      ⟨_, hf, hentry, .inr ⟨hcb, nofun⟩⟩, ?_⟩
    intro g hg
    obtain ⟨hgi, hgt⟩ := hspare g hg
    refine ⟨hgi, ?_⟩
    rw [hg] at hspare
    apply (hother g _ hgi (hspare.unused (hloop.current_ne hgt))).mono
    rintro e ⟨hcb, hunused⟩
    exact ⟨hcb, .inl hunused⟩

theorem Behind.back (h : a.Behind use_caller f) (hnot : a.current ≠ some f) : a.Loop use_caller := by
  obtain ⟨hMain, -, hcur | hcur⟩ := h
  . exact absurd hcur hnot
  . exact ⟨hMain, hcur⟩

theorem At.settled (h : a.At use_caller (.inFiber idle cb f)) (hnot : a.current ≠ some f)
    : a.At use_caller (.loop idle cb) := by
  obtain ⟨hbehind, -, hidle, hspare⟩ := h
  exact ⟨hbehind.back hnot, hidle, hspare⟩

theorem At.hold (h : a.At use_caller (.inFiber idle cb f)) (hnot : a.current ≠ some f)
    (hf : a.fibers f = some c) {old : FiberState} (hsusp : c.status = .suspended old)
    : Goes use_caller a (.setState f .HOLD) (.loop idle cb) := by
  obtain ⟨hbehind, hne, hidle, hspare⟩ := h
  refine ⟨_, none, .setState .HOLD hf hsusp (.inr (.inr rfl)), (hbehind.back hnot).set hf rfl,
    hidle.congr (set_other hne.symm), hspare.set ?_⟩
  rintro rfl
  obtain ⟨e, he, -, -, hunused⟩ := hspare.unused hnot
  rw [hf, Option.some.injEq] at he
  rw [← he] at hunused
  rcases hunused with hfresh | ⟨returned, hdone⟩
  . rw [hsusp] at hfresh
    cases hfresh
  . rw [hsusp] at hdone
    cases hdone

theorem At.readyCb (h : a.At use_caller (.inCb idle g)) (hnot : a.current ≠ some g)
    : a.At use_caller (.loop idle none) := by
  obtain ⟨hbehind, -, hidle⟩ := h
  exact ⟨hbehind.back hnot, hidle, nofun⟩

theorem At.endCb (h : a.At use_caller (.inCb idle g)) (hnot : a.current ≠ some g)
    (hg : a.fibers g = some c) (hunused : c.Unused)
    : Goes use_caller a (.reset g false) (.loop idle (some g)) := by
  obtain ⟨hbehind, hne, hidle⟩ := h
  have hentry : c.entry = .MainFunc := by
    obtain ⟨e, he, hentry, -⟩ := hbehind.2.1
    rw [hg, Option.some.injEq] at he
    rw [he, hentry]
  refine ⟨_, none, .reset false hg hunused, (hbehind.back hnot).set hg hentry.symm,
    hidle.congr (set_other hne.symm), ?_⟩
  intro k hk
  rw [← Option.some.inj hk]
  exact ⟨hne, ⟨_, set_self, rfl, rfl, .inl (.inl rfl)⟩⟩

theorem At.holdCb (h : a.At use_caller (.inCb idle g)) (hnot : a.current ≠ some g)
    (hg : a.fibers g = some c) {old : FiberState} (hsusp : c.status = .suspended old)
    : Goes use_caller a (.setState g .HOLD) (.loop idle none) := by
  obtain ⟨hbehind, hne, hidle⟩ := h
  exact ⟨_, none, .setState .HOLD hg hsusp (.inr (.inr rfl)), (hbehind.back hnot).set hg rfl,
    hidle.congr (set_other hne.symm), nofun⟩

theorem At.holdIdle (h : a.At use_caller (.inIdle idle cb)) (hnot : a.current ≠ some idle)
    (hf : a.fibers idle = some c) {old : FiberState} (hsusp : c.status = .suspended old)
    : Goes use_caller a (.setState idle .HOLD) (.loop idle cb) := by
  obtain ⟨hbehind, ⟨e, he, hentry, hidle⟩, hspare⟩ := h
  rw [hf, Option.some.injEq] at he
  rw [← he] at hentry hidle
  rcases hidle with hdone | ⟨hcb, -⟩
  . rw [hsusp] at hdone
    cases hdone
  . refine ⟨_, none, .setState .HOLD hf hsusp (.inr (.inr rfl)), (hbehind.back hnot).set hf rfl,
      ⟨_, set_self, hentry, .inr ⟨hcb, .inr ⟨.HOLD, nofun, rfl⟩⟩⟩, hspare.set ?_⟩
    intro heq
    exact (hspare idle heq).1 rfl

theorem At.termIdle (h : a.At use_caller (.inIdle idle cb)) (hnot : a.current ≠ some idle)
    (hf : a.fibers idle = some c) (hended : ∃ returned, c.status = .done returned)
    : a.At use_caller (.loop idle cb) := by
  obtain ⟨hbehind, ⟨e, he, hentry, hidle⟩, hspare⟩ := h
  refine ⟨hbehind.back hnot, ⟨e, he, hentry, ?_⟩, hspare⟩
  rw [hf, Option.some.injEq] at he
  rw [← he] at hidle ⊢
  rcases hidle with hdone | ⟨-, hlive⟩
  . exact .inl hdone
  . obtain ⟨returned, hdone⟩ := hended
    exact absurd hdone (hlive returned)

theorem At.returnWorker (h : a.At use_caller (.loop idle cb)) (hinv : Inv a)
    (hworker : use_caller = false) : a.At use_caller .returned := by
  subst hworker
  obtain ⟨⟨m, c, hm, hc, hentry⟩, -⟩ := h.1.1
  have hthread := hinv.shape.thread_of_entry hc hentry
  exact h.1.2.trans (hm.trans hthread.symm)

theorem At.returnCaller (h : a.At use_caller (.loop idle cb)) (hinv : Inv a)
    (hcaller : use_caller = true) : Goes use_caller a (.finish true) .returned := by
  subst hcaller
  obtain ⟨⟨⟨m, c, hm, hc, hentry⟩, -⟩, hcur⟩ := h.1
  have hcurrent := hcur.trans hm
  have hwaits : ∃ t d, a.thread = some t ∧ a.fibers t = some d := by
    cases hinv.shape with
    | none hcur => rw [hcur] at hcurrent; cases hcurrent
    | thread t _ hthr _ ht => exact ⟨t, _, hthr, ht⟩
    | fiber _ t _ hthr _ _ _ ht => exact ⟨t, _, hthr, ht⟩
    | root _ t _ hthr _ _ ht => exact ⟨t, _, hthr, ht⟩
    | task _ _ t _ hthr _ _ _ _ ht => exact ⟨t, _, hthr, ht⟩
  obtain ⟨t, d, hthread, ht⟩ := hwaits
  exact ⟨_, _, .finishCaller true hcurrent hc hentry hthread ht, hthread.symm⟩

theorem At.delete (h : a.At use_caller pc) (hheld : f ∉ pc.held) (hmain : a.main ≠ some f)
    : ({ a with fibers := Function.update a.fibers f none } : Coroutines).At use_caller pc := by
  apply h.of_held
  . rfl
  . rfl
  . rfl
  . intro g e hkept hg
    have hgf : g ≠ f := by
      rintro rfl
      exact hkept.elim hheld hmain
    change Function.update a.fibers f none g = some e
    rw [Function.update_of_ne hgf]
    exact hg
  . intro g e hg hentry
    change Function.update a.fibers f none g = some e at hg
    by_cases hgf : g = f
    . rw [hgf, Function.update_self] at hg
      cases hg
    . rw [Function.update_of_ne hgf] at hg
      exact ⟨e, hg, hentry⟩

end Goes

section Next

variable {a : Coroutines} {t : FiberThread} {use_caller : Bool} {pc pc' : SchedulerPc}
  {f idle : Nat} {cb : Option Nat} {c : Coroutine} {x : FiberThread.Fiber}

theorem Behind.not_current (h : a.Behind use_caller f) (hrep : Represents a t) (hinv : Inv a)
    (hback : t.cpu.entry = mainEntry use_caller) : a.current ≠ some f := by
  intro hcurrent
  obtain ⟨-, ⟨c, hc, hentry, -⟩, -⟩ := h
  rw [hrep.cpu_entry hinv hcurrent hc, hentry] at hback
  exact mainEntry_ne use_caller hback.symm

theorem Inv.rests_of_task (h : Inv a) (hf : a.fibers f = some c) (hentry : c.entry = .MainFunc)
    (hcurrent : a.current ≠ some f) : c.Rests := by
  have hother : ∀ {g d}, a.fibers g = some d → d.entry ≠ .MainFunc → f ≠ g := by
    intro g d hg hd
    apply ne_of_fibers hf hg
    intro heq
    exact hd (heq ▸ hentry)
  have hthis : ∀ {g}, a.current = some g → f ≠ g := by
    rintro g hg rfl
    exact hcurrent hg
  cases h.shape with
  | none _ _ hrest => exact hrest f c hf
  | thread t hcur _ _ _ hrest => exact hrest f c (hthis hcur) hf
  | fiber g t hcur _ _ _ _ ht _ hrest => exact hrest f c (hother ht nofun) (hthis hcur) hf
  | root r t hcur _ _ _ ht _ hrest => exact hrest f c (hother ht nofun) (hthis hcur) hf
  | task g r t hcur _ _ _ _ _ ht hr _ hrest =>
    exact hrest f c (hother ht nofun) (hother hr nofun) (hthis hcur) hf

theorem Behind.suspended (h : a.Behind use_caller f) (hinv : Inv a) (hnot : a.current ≠ some f)
    (hf : a.fibers f = some c) (hterm : c.status.m_state ≠ .TERM)
    (hexcep : c.status.m_state ≠ .EXECEP) : ∃ old, c.status = .suspended old := by
  obtain ⟨-, ⟨d, hd, hentry, hfresh⟩, -⟩ := h
  rw [hf, Option.some.injEq] at hd
  rw [← hd] at hentry hfresh
  exact suspended_of_m_state (hinv.rests_of_task hf hentry hnot) hfresh hterm hexcep

theorem Loop.task_of_resumable (h : a.Loop use_caller) (hinv : Inv a) (hf : a.fibers f = some c)
    (hready : c.Resumable) : a.Task f Coroutine.Resumable := by
  obtain ⟨hrun, hwait⟩ := Resumable.not_active hready
  have hrests := hinv.shape.rests_of_status hf hrun hwait
  refine ⟨c, hf, ?_, hready⟩
  cases hentry : c.entry with
  | thread => exact absurd hentry hrests.1
  | MainFunc => rfl
  | CallerMainFunc =>
    have hcurrent := h.2.trans (h.1.callers f c hf hentry)
    obtain ⟨d, hd, hrun'⟩ := hinv.shape.current_running hcurrent
    rw [hf, Option.some.injEq] at hd
    rw [← hd] at hrun'
    exact absurd hrun' hrun

theorem Represents.runs (hrep : Represents a t) (hinv : Inv a) (hruns : t.cpu.entry = .MainFunc)
    : ∃ f c m d, a.current = some f ∧ a.fibers f = some c ∧ c.entry = .MainFunc
        ∧ a.main = some m ∧ a.fibers m = some d := by
  cases hcurrent : a.current with
  | none =>
    rw [hrep.cpu hcurrent] at hruns
    cases hruns
  | some f =>
    obtain ⟨c, hc, -⟩ := hinv.shape.current_running hcurrent
    rw [hrep.cpu_entry hinv hcurrent hc] at hruns
    obtain ⟨m, d, hm, hd⟩ := hinv.main_of_running hcurrent hc hruns
    exact ⟨f, c, m, d, rfl, hc, hruns, hm, hd⟩

theorem At.taskYield (h : a.At use_caller pc) (hrep : Represents a t) (hinv : Inv a) {call : Call}
    {m_state : FiberState} (hruns : t.cpu.entry = .MainFunc) (hthis : t.t_fiber = some f)
    (hx : t.fibers f = some x) (hcb : x.m_cb) (hcall : yields call = some m_state)
    : Goes use_caller a call pc := by
  obtain ⟨g, c, m, d, hcurrent, hc, hentry, hm, hd⟩ := hrep.runs hinv hruns
  rw [hrep.t_fiber, hcurrent, Option.some.injEq] at hthis
  subst hthis
  obtain ⟨e, he, hshow⟩ := hrep.of_fibers hx
  rw [hc, Option.some.injEq] at he
  subst he
  rw [hshow.m_cb] at hcb
  refine ⟨_, _, .yield hcall hcurrent hc hentry hm hd, ?_⟩
  apply h.giveBack hinv hcurrent hc hentry hm hd
  . rfl
  . exact nofun
  . intro hnone
    rw [hcb] at hnone
    cases hnone
  . intro _ _ _ hset
    exact .inr ⟨hset, nofun⟩

theorem At.taskFinish (h : a.At use_caller pc) (hrep : Represents a t) (hinv : Inv a)
    (hruns : t.cpu.entry = .MainFunc) (returns : Bool)
    (hidle : ∀ idle cb, pc = .inIdle idle cb → returns = true)
    : Goes use_caller a (.finish returns) pc := by
  obtain ⟨f, c, m, d, hcurrent, hc, hentry, hm, hd⟩ := hrep.runs hinv hruns
  refine ⟨_, _, .finish returns hcurrent hc hentry hm hd, ?_⟩
  apply h.giveBack hinv hcurrent hc hentry hm hd
  . rfl
  . exact nofun
  . intro hnone
    rw [hnone]
    exact ⟨Bool.and_false _, .inr ⟨_, rfl⟩⟩
  . intro idle cb hpc hset
    left
    rw [hset, hidle idle cb hpc]
    rfl

theorem At.next (h : a.At use_caller pc) (hrep : Represents a t) (hinv : Inv a) {call : Option Call}
    (hnext : Next use_caller t pc call pc')
    : (call = none ∧ a.At use_caller pc')
      ∨ ∃ l, call = some l ∧ Goes use_caller a l pc' := by
  have hget : ∀ {f x}, t.fibers f = some x
      → ∃ c, a.fibers f = some c ∧ x.m_state = c.status.m_state := by
    intro f x hx
    obtain ⟨c, hc, hshow⟩ := hrep.of_fibers hx
    exact ⟨c, hc, hshow.m_state⟩
  cases hnext with
  | getThis => exact .inr ⟨_, rfl, h.getThis⟩
  | mainFiber hworker hm => exact .inr ⟨_, rfl, h.mainFiber hinv hworker (hrep.t_fiber ▸ hm)⟩
  | createRoot hcaller => exact .inr ⟨_, rfl, hrep.count ▸ h.createRoot hcaller⟩
  | rootMain => exact .inr ⟨_, rfl, h.rootMain⟩
  | callRoot => exact .inr ⟨_, rfl, h.callRoot hinv⟩
  | createIdle => exact .inr ⟨_, rfl, hrep.count ▸ h.createIdle hinv⟩
  | swapInFiber hf hexec hterm hexcep hidle =>
    obtain ⟨c, hc, hstate⟩ := hget hf
    rw [hstate] at hexec hterm hexcep
    have hready := resumable_of_m_state hexec hterm hexcep
    exact .inr ⟨_, rfl, h.swapInFiber hidle (h.1.task_of_resumable hinv hc hready)⟩
  | createCb => exact .inr ⟨_, rfl, hrep.count ▸ h.createCb hinv⟩
  | resetCb => exact .inr ⟨_, rfl, h.resetCb⟩
  | swapInCb => exact .inr ⟨_, rfl, h.swapInCb⟩
  | swapInIdle hidle hterm =>
    obtain ⟨c, hc, hstate⟩ := hget hidle
    refine .inr ⟨_, rfl, h.swapInIdle ?_⟩
    intro d hd hdone
    rw [hc, Option.some.injEq] at hd
    rw [hstate, hd, hdone] at hterm
    exact hterm rfl
  | «return» hidle hterm =>
    cases use_caller with
    | false => exact .inl ⟨rfl, h.returnWorker hinv rfl⟩
    | true => exact .inr ⟨_, rfl, h.returnCaller hinv rfl⟩
  | settled hback hf hstate => exact .inl ⟨rfl, h.settled (h.1.not_current hrep hinv hback)⟩
  | hold hback hf hready hterm hexcep =>
    obtain ⟨c, hc, hstate⟩ := hget hf
    rw [hstate] at hterm hexcep
    have hnot := h.1.not_current hrep hinv hback
    obtain ⟨old, hsusp⟩ := h.1.suspended hinv hnot hc hterm hexcep
    exact .inr ⟨_, rfl, h.hold hnot hc hsusp⟩
  | readyCb hback hg hstate => exact .inl ⟨rfl, h.readyCb (h.1.not_current hrep hinv hback)⟩
  | endCb hback hg hended =>
    obtain ⟨c, hc, hstate⟩ := hget hg
    rw [hstate] at hended
    have hdone := hinv.ended hc hended.symm
    exact .inr ⟨_, rfl, h.endCb (h.1.not_current hrep hinv hback) hc (.inr hdone)⟩
  | holdCb hback hg hready hexcep hterm =>
    obtain ⟨c, hc, hstate⟩ := hget hg
    rw [hstate] at hterm hexcep
    have hnot := h.1.not_current hrep hinv hback
    obtain ⟨old, hsusp⟩ := h.1.suspended hinv hnot hc hterm hexcep
    exact .inr ⟨_, rfl, h.holdCb hnot hc hsusp⟩
  | holdIdle hback hidle hterm hexcep =>
    obtain ⟨c, hc, hstate⟩ := hget hidle
    rw [hstate] at hterm hexcep
    have hnot := h.1.not_current hrep hinv hback
    obtain ⟨old, hsusp⟩ := h.1.suspended hinv hnot hc hterm hexcep
    exact .inr ⟨_, rfl, h.holdIdle hnot hc hsusp⟩
  | termIdle hback hidle hended =>
    obtain ⟨c, hc, hstate⟩ := hget hidle
    rw [hstate] at hended
    exact .inl ⟨rfl, h.termIdle (h.1.not_current hrep hinv hback) hc (hinv.ended hc hended)⟩
  | taskThis hruns =>
    obtain ⟨f, -, -, -, hcurrent, -⟩ := hrep.runs hinv hruns
    exact .inr ⟨_, rfl, a, none, .getThis hcurrent, h⟩
  | taskYield hruns hthis hf hcb hcall =>
    exact .inr ⟨_, rfl, h.taskYield hrep hinv hruns hthis hf hcb hcall⟩
  | taskFinish hruns returns hidle =>
    exact .inr ⟨_, rfl, h.taskFinish hrep hinv hruns returns hidle⟩
  | create pc cb => exact .inr ⟨_, rfl, _, none, .create a cb false, h.create hinv cb⟩
  | delete hf hlast =>
    obtain ⟨c, hc, hshow⟩ := hrep.of_fibers hf
    have hheld : _ ∉ pc.held := fun hmem => hlast (.held hmem)
    have hmain : a.main ≠ some _ := fun heq => hlast (.mainFiber (hrep.mainFiber.trans heq))
    exact .inr ⟨_, rfl, _, none, .delete hc (hrep.unused hinv hc hshow hlast), h.delete hheld hmain⟩

end Next

theorem at_start (use_caller : Bool) : At use_caller new .start :=
  ⟨rfl, nofun⟩

end Coroutines

namespace SchedulerThread

open Coroutines (Represents Inv)

def Implements (use_caller : Bool) (ls : List (Option (Call × Option Context)))
    (s : SchedulerThread) : Prop :=
  ∃ a, Coroutines.lts.Run .new (ls.filterMap id) a ∧ Represents a s.t ∧ Inv a
    ∧ a.At use_caller s.pc

theorem Implements.step {use_caller : Bool} {ls : List (Option (Call × Option Context))}
    {s s' : SchedulerThread} {l : Option (Call × Option Context)} (h : Implements use_caller ls s)
    (hstep : (lts use_caller).step s l s') : Implements use_caller (ls ++ [l]) s' := by
  obtain ⟨a, hrun, hrep, hinv, hat⟩ := h
  cases l with
  | none =>
    obtain ⟨hnext, hsame⟩ := hstep
    rcases hat.next hrep hinv hnext with ⟨-, hat'⟩ | ⟨call, hcall, -⟩
    . refine ⟨a, ?_, hsame ▸ hrep, hinv, hat'⟩
      rw [List.filterMap_append, List.filterMap_cons_none rfl, List.filterMap_nil, List.append_nil]
      exact hrun
    . cases hcall
  | some l =>
    obtain ⟨call, ctx⟩ := l
    obtain ⟨hnext, hstep⟩ := hstep
    rcases hat.next hrep hinv hnext with ⟨hcall, -⟩ | ⟨call', hcall, a', ctx', hstep', hat'⟩
    . cases hcall
    . rw [← Option.some.inj hcall] at hstep'
      obtain ⟨t', ht', hrep'⟩ := hrep.step hinv hstep'
      have heq := hstep.symm.trans ht'
      injection heq with heq
      injection heq with hthread hctx
      subst hctx
      refine ⟨a', ?_, hthread ▸ hrep', hinv.step hstep', hat'⟩
      rw [List.filterMap_append]
      exact hrun.snoc hstep'

/--
Every run of a scheduler's thread is a run of coroutines, and whatever the thread does next returns or
switches: no assertion fails, no fiber is missing and no context is stale.
-/
theorem run_implements {use_caller : Bool} {ls : List (Option (Call × Option Context))}
    {s : SchedulerThread} (hrun : (lts use_caller).Run start ls s)
    : (∃ a, Coroutines.lts.Run .new (ls.filterMap id) a ∧ Represents a s.t)
      ∧ ∀ call pc', Next use_caller s.t s.pc (some call) pc'
        → ∃ t' ctx, s.t.step call = .ok (t', ctx) := by
  have himp : Implements use_caller ([] ++ ls) s := by
    apply hrun.history (I := Implements use_caller)
    . exact ⟨.new, .nil _, Coroutines.represents_new, Coroutines.inv_new, Coroutines.at_start use_caller⟩
    . intro pre s l s' himp hstep
      exact himp.step hstep
  obtain ⟨a, hruns, hrep, hinv, hat⟩ := himp
  refine ⟨⟨a, hruns, hrep⟩, ?_⟩
  intro call pc' hnext
  rcases hat.next hrep hinv hnext with ⟨hcall, -⟩ | ⟨call', hcall, a', ctx, hstep, -⟩
  . cases hcall
  . rw [← Option.some.inj hcall] at hstep
    obtain ⟨t', ht', -⟩ := hrep.step hinv hstep
    exact ⟨t', ctx, ht'⟩

theorem run_implements_idle
    : ∃ t : FiberThread, t.t_fiber = some 0
      ∧ (∃ a, Coroutines.lts.Run .new
          [(.GetThis, none), (.setMainFiber 0, none), (.create true false, none)] a
          ∧ Represents a t)
      ∧ ∃ t' ctx, t.step (.swapIn 1) = .ok (t', ctx) := by
  have hrun : (lts false).Run start
      [some (.GetThis, none), some (.setMainFiber 0, none), some (.create true false, none)]
      ⟨({ FiberThread.new.getThis.1 with mainFiber := some 0 } : FiberThread).create true false,
        .loop 1 none⟩ :=
    .cons (t := ⟨FiberThread.new.getThis.1, .haveThis⟩) ⟨.getThis, rfl⟩
      (.cons (t := ⟨{ FiberThread.new.getThis.1 with mainFiber := some 0 }, .run⟩)
        ⟨.mainFiber rfl rfl, rfl⟩ (.cons ⟨.createIdle, rfl⟩ (.nil _)))
  obtain ⟨hruns, hnext⟩ := run_implements hrun
  exact ⟨_, rfl, hruns, hnext (.swapIn 1) (.inIdle 1 none) (.swapInIdle rfl nofun)⟩

end SchedulerThread

end CXS
