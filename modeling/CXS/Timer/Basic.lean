import Mathlib.Algebra.Group.Nat.Defs
import CXS.Util.LTS
import CXS.Util.OrderedSet

/-!
This module contains `Timer` and `TimerManager` from `code/timer.cpp`.

A `Timer::ptr` is the place of the timer in `heap`, which lists all timers in the order of their
creation. `m_timers` lists the pointers in the set in iteration order, and the comparison of two
pointers looks at the timers they point to, so an assignment to `m_next` changes the order under the
set. Values of type `uint64_t` are natural numbers below `2 ^ 64`. The clock and the addresses of new
objects are arguments.
-/

namespace CXS

variable {Cb : Type}

def wrap64 (n : Nat) : Nat :=
  n % 2 ^ 64

structure Timer (Cb : Type) where
  addr : Nat
  m_recurring : Bool
  m_ms : Nat
  m_next : Nat
  m_cb : Option Cb
  deriving DecidableEq, Repr

def Timer.Comparator (lhs rhs : Option (Timer Cb)) : Bool :=
  match lhs, rhs with
  | none, none => false
  | none, some _ => true
  | some _, none => false
  | some lhs, some rhs =>
    if lhs.m_next < rhs.m_next then
      true
    else if lhs.m_next > rhs.m_next then
      false
    else
      lhs.addr < rhs.addr

structure TimerManager (Cb : Type) where
  heap : List (Timer Cb)
  m_timers : List Nat
  m_tickled : Bool
  m_previouseTime : Nat
  deriving DecidableEq, Repr

namespace TimerManager

-- the first two are undefined behaviour, the last two are calls no program can make
inductive Fault where
  | eraseEnd
  | derefEnd
  | noTimer
  | addrInUse
  deriving DecidableEq, Repr

def new (now : Nat) : TimerManager Cb where
  heap := []
  m_timers := []
  m_tickled := false
  m_previouseTime := now

def less (heap : List (Timer Cb)) (a b : Nat) : Bool :=
  Timer.Comparator heap[a]? heap[b]?

-- `TimerManager::addTimer(val, lock)`. The second result says whether `onTimerInsertedAtFront` is
-- called.
def insertTimer (tm : TimerManager Cb) (val : Nat) : TimerManager Cb × Bool :=
  let it := OrderedSet.lowerBound (less tm.heap) val tm.m_timers
  let at_front := it == 0 && !tm.m_tickled
  ({ tm with
      m_timers := OrderedSet.insert (less tm.heap) val tm.m_timers
      m_tickled := tm.m_tickled || at_front
    }, at_front)

def addTimer (tm : TimerManager Cb) (addr ms : Nat) (cb : Option Cb) (recurring : Bool) (now : Nat)
    : Except Fault (TimerManager Cb × Nat × Bool) :=
  if tm.m_timers.any (fun t => tm.heap[t]?.any (fun timer => timer.addr == addr)) then
    .error .addrInUse
  else
    let timer : Timer Cb :=
      {
        addr := addr
        m_recurring := recurring
        m_ms := ms
        m_next := wrap64 (now + ms)
        m_cb := cb
      }
    let t := tm.heap.length
    let (tm, at_front) := insertTimer { tm with heap := tm.heap ++ [timer] } t
    .ok (tm, t, at_front)

def cancel (tm : TimerManager Cb) (t : Nat) : Except Fault (TimerManager Cb × Bool) :=
  match tm.heap[t]? with
  | none => .error .noTimer
  | some timer =>
    if timer.m_cb.isSome then
      let heap := tm.heap.set t { timer with m_cb := none }
      match OrderedSet.find (less heap) t tm.m_timers with
      | none => .error .eraseEnd
      | some it => .ok ({ tm with heap := heap, m_timers := tm.m_timers.eraseIdx it }, true)
    else
      .ok (tm, false)

def refresh (tm : TimerManager Cb) (t now : Nat) : Except Fault (TimerManager Cb × Bool) :=
  match tm.heap[t]? with
  | none => .error .noTimer
  | some timer =>
    if timer.m_cb.isNone then
      .ok (tm, false)
    else
      match OrderedSet.find (less tm.heap) t tm.m_timers with
      | none => .ok (tm, false)
      | some it =>
        let heap := tm.heap.set t { timer with m_next := wrap64 (now + timer.m_ms) }
        let timers := tm.m_timers.eraseIdx it
        .ok ({ tm with heap := heap, m_timers := OrderedSet.insert (less heap) t timers }, true)

def reset (tm : TimerManager Cb) (t ms : Nat) (from_now : Bool) (now : Nat)
    : Except Fault (TimerManager Cb × Bool × Bool) :=
  match tm.heap[t]? with
  | none => .error .noTimer
  | some timer =>
    if ms = timer.m_ms ∧ ¬from_now then
      .ok (tm, true, false)
    else if timer.m_cb.isNone then
      .ok (tm, false, false)
    else
      match OrderedSet.find (less tm.heap) t tm.m_timers with
      | none => .ok (tm, false, false)
      | some it =>
        let start := if from_now then now else wrap64 (timer.m_next + 2 ^ 64 - timer.m_ms)
        let heap := tm.heap.set t { timer with m_ms := ms, m_next := wrap64 (start + ms) }
        let tm := { tm with heap := heap, m_timers := tm.m_timers.eraseIdx it }
        let (tm, at_front) := insertTimer tm t
        .ok (tm, true, at_front)

-- the part of `reset` under the lock. The test before it reads `m_ms` without the lock.
def resetLocked (tm : TimerManager Cb) (t ms : Nat) (from_now : Bool) (now : Nat)
    : Except Fault (TimerManager Cb × Bool × Bool) :=
  match tm.heap[t]? with
  | none => .error .noTimer
  | some timer =>
    if timer.m_cb.isNone then
      .ok (tm, false, false)
    else
      match OrderedSet.find (less tm.heap) t tm.m_timers with
      | none => .ok (tm, false, false)
      | some it =>
        let start := if from_now then now else wrap64 (timer.m_next + 2 ^ 64 - timer.m_ms)
        let heap := tm.heap.set t { timer with m_ms := ms, m_next := wrap64 (start + ms) }
        let tm := { tm with heap := heap, m_timers := tm.m_timers.eraseIdx it }
        let (tm, at_front) := insertTimer tm t
        .ok (tm, true, at_front)

def getNextTimer (tm : TimerManager Cb) (now : Nat) : TimerManager Cb × Nat :=
  let tm := { tm with m_tickled := false }
  match tm.m_timers.head?.bind (fun t => tm.heap[t]?) with
  | none => (tm, 2 ^ 64 - 1)
  | some next => (tm, if now ≥ next.m_next then 0 else next.m_next - now)

def detectClockRollover (tm : TimerManager Cb) (now_ms : Nat) : TimerManager Cb × Bool :=
  let rollover :=
    now_ms < tm.m_previouseTime
      && now_ms < wrap64 (tm.m_previouseTime + 2 ^ 64 - 60 * 60 * 1000)
  ({ tm with m_previouseTime := now_ms }, rollover)

def collect (now_ms : Nat) (tm : TimerManager Cb) : List Nat → TimerManager Cb × List (Option Cb)
  | [] => (tm, [])
  | t :: expired =>
    match tm.heap[t]? with
    | none => collect now_ms tm expired
    | some timer =>
      let tm :=
        if timer.m_recurring then
          let heap := tm.heap.set t { timer with m_next := wrap64 (now_ms + timer.m_ms) }
          { tm with heap := heap, m_timers := OrderedSet.insert (less heap) t tm.m_timers }
        else
          { tm with heap := tm.heap.set t { timer with m_cb := none } }
      let (tm, cbs) := collect now_ms tm expired
      (tm, timer.m_cb :: cbs)

-- where `listExpiredTimer` stops taking timers. `addr` is the address of `now_timer`.
def expiredEnd (tm : TimerManager Cb) (rollover : Bool) (now_ms addr : Nat) : Nat :=
  let now_timer : Timer Cb :=
    { addr := addr, m_recurring := false, m_ms := 0, m_next := now_ms, m_cb := none }
  let it :=
    if rollover then
      tm.m_timers.length
    else
      OrderedSet.lowerBound Timer.Comparator (some now_timer)
        (tm.m_timers.map (fun t => tm.heap[t]?))
  let due := fun t => tm.heap[t]?.any (fun timer => timer.m_next == now_ms)
  it + ((tm.m_timers.drop it).takeWhile due).length

def takeExpired (tm : TimerManager Cb) (now_ms addr : Nat)
    : Except Fault (TimerManager Cb × List Nat × List (Option Cb)) :=
  let (tm, rollover) := tm.detectClockRollover now_ms
  match tm.m_timers.head?.bind (fun t => tm.heap[t]?) with
  | none => if rollover then .ok (tm, [], []) else .error .derefEnd
  | some first =>
    if !rollover && first.m_next > now_ms then
      .ok (tm, [], [])
    else
      let it := tm.expiredEnd rollover now_ms addr
      let expired := tm.m_timers.take it
      let (tm, cbs) := collect now_ms { tm with m_timers := tm.m_timers.drop it } expired
      .ok (tm, expired, cbs)

def listExpiredTimer (tm : TimerManager Cb) (now_ms addr : Nat)
    : Except Fault (TimerManager Cb × List Nat × List (Option Cb)) :=
  if tm.m_timers.isEmpty then
    .ok (tm, [], [])
  else
    tm.takeExpired now_ms addr

section Cases

variable {tm tm' : TimerManager Cb} {t : Nat}

theorem cancel_cases {ret : Bool} (hcall : tm.cancel t = .ok (tm', ret))
    : tm' = tm
      ∨ ∃ timer it, tm.heap[t]? = some timer
        ∧ tm' = { tm with
            heap := tm.heap.set t { timer with m_cb := none }
            m_timers := tm.m_timers.eraseIdx it
          } := by
  unfold cancel at hcall
  split at hcall
  . cases hcall
  . next timer hget =>
    split at hcall
    . dsimp only at hcall
      split at hcall
      . cases hcall
      . next it _ =>
        injection hcall with hcall
        injection hcall with htm _
        exact .inr ⟨timer, it, hget, htm.symm⟩
    . injection hcall with hcall
      injection hcall with htm _
      exact .inl htm.symm

theorem refresh_cases {now : Nat} {ret : Bool} (hcall : tm.refresh t now = .ok (tm', ret))
    : tm' = tm
      ∨ ∃ timer it, tm.heap[t]? = some timer ∧ timer.m_cb.isSome = true
        ∧ OrderedSet.find (less tm.heap) t tm.m_timers = some it
        ∧ tm' = { tm with
            heap := tm.heap.set t { timer with m_next := wrap64 (now + timer.m_ms) }
            m_timers :=
              OrderedSet.insert
                (less (tm.heap.set t { timer with m_next := wrap64 (now + timer.m_ms) })) t
                (tm.m_timers.eraseIdx it)
          } := by
  unfold refresh at hcall
  split at hcall
  . cases hcall
  . next timer hget =>
    split at hcall
    . injection hcall with hcall
      injection hcall with htm _
      exact .inl htm.symm
    . next hcb =>
      rw [Bool.not_eq_true, Option.isNone_eq_false_iff] at hcb
      split at hcall
      . injection hcall with hcall
        injection hcall with htm _
        exact .inl htm.symm
      . next it hfind =>
        injection hcall with hcall
        injection hcall with htm _
        exact .inr ⟨timer, it, hget, hcb, hfind, htm.symm⟩

theorem resetLocked_cases {ms now : Nat} {from_now ret n : Bool}
    (hcall : tm.resetLocked t ms from_now now = .ok (tm', ret, n))
    : tm' = tm
      ∨ ∃ timer it start, tm.heap[t]? = some timer ∧ timer.m_cb.isSome = true
        ∧ OrderedSet.find (less tm.heap) t tm.m_timers = some it
        ∧ start = (if from_now then now else wrap64 (timer.m_next + 2 ^ 64 - timer.m_ms))
        ∧ (tm', n) =
            insertTimer
              { tm with
                heap := tm.heap.set t { timer with m_ms := ms, m_next := wrap64 (start + ms) }
                m_timers := tm.m_timers.eraseIdx it
              } t := by
  unfold resetLocked at hcall
  split at hcall
  . cases hcall
  . next timer hget =>
    split at hcall
    . injection hcall with hcall
      injection hcall with htm _
      exact .inl htm.symm
    . next hcb =>
      rw [Bool.not_eq_true, Option.isNone_eq_false_iff] at hcb
      split at hcall
      . injection hcall with hcall
        injection hcall with htm _
        exact .inl htm.symm
      . next it hfind =>
        injection hcall with hcall
        injection hcall with htm hret
        injection hret with _ hn
        subst htm hn
        exact .inr ⟨timer, it, _, hget, hcb, hfind, rfl, rfl⟩

theorem takeExpired_cases {now_ms addr : Nat} {ts : List Nat} {cbs : List (Option Cb)}
    (hcall : tm.takeExpired now_ms addr = .ok (tm', ts, cbs))
    : (tm' = (tm.detectClockRollover now_ms).1 ∧ ts = [] ∧ cbs = [])
      ∨ ∃ it, ts = tm.m_timers.take it
        ∧ (tm', cbs) =
            collect now_ms { (tm.detectClockRollover now_ms).1 with m_timers := tm.m_timers.drop it }
              (tm.m_timers.take it) := by
  unfold takeExpired at hcall
  simp only at hcall
  split at hcall
  . split at hcall
    . injection hcall with hcall
      simp only [Prod.mk.injEq] at hcall
      obtain ⟨rfl, rfl, rfl⟩ := hcall
      exact .inl ⟨rfl, rfl, rfl⟩
    . cases hcall
  . split at hcall
    . injection hcall with hcall
      simp only [Prod.mk.injEq] at hcall
      obtain ⟨rfl, rfl, rfl⟩ := hcall
      exact .inl ⟨rfl, rfl, rfl⟩
    . injection hcall with hcall
      simp only [Prod.mk.injEq] at hcall
      obtain ⟨rfl, rfl, rfl⟩ := hcall
      exact .inr ⟨_, rfl, rfl⟩

theorem listExpiredTimer_cases {now_ms addr : Nat} {ts : List Nat} {cbs : List (Option Cb)}
    (hcall : tm.listExpiredTimer now_ms addr = .ok (tm', ts, cbs))
    : (tm.m_timers = [] ∧ tm' = tm ∧ ts = [] ∧ cbs = [])
      ∨ tm.takeExpired now_ms addr = .ok (tm', ts, cbs) := by
  unfold listExpiredTimer at hcall
  split at hcall
  . next hempty =>
    injection hcall with hcall
    simp only [Prod.mk.injEq] at hcall
    obtain ⟨rfl, rfl, rfl⟩ := hcall
    exact .inl ⟨List.isEmpty_iff.mp hempty, rfl, rfl, rfl⟩
  . exact .inr hcall

end Cases

inductive Call (Cb : Type) where
  | addTimer (addr ms : Nat) (cb : Cb) (recurring : Bool) (now : Nat)
  | cancel (t : Nat)
  | refresh (t now : Nat)
  | reset (t ms : Nat) (from_now : Bool) (now : Nat)
  | getNextTimer (now : Nat)
  | listExpiredTimer (now addr : Nat)
  deriving DecidableEq, Repr

inductive Result (Cb : Type) where
  | timer (t : Nat) (notified : Bool)
  | bool (ret : Bool) (notified : Bool)
  | ms (ms : Nat)
  | expired (timers : List Nat) (cbs : List (Option Cb))
  deriving DecidableEq, Repr

def call (tm : TimerManager Cb) : Call Cb → Except Fault (TimerManager Cb × Result Cb)
  | .addTimer addr ms cb recurring now =>
    (tm.addTimer addr ms (some cb) recurring now).map fun (tm, t, n) => (tm, .timer t n)
  | .cancel t => (tm.cancel t).map fun (tm, b) => (tm, .bool b false)
  | .refresh t now => (tm.refresh t now).map fun (tm, b) => (tm, .bool b false)
  | .reset t ms from_now now => (tm.reset t ms from_now now).map fun (tm, b, n) => (tm, .bool b n)
  | .getNextTimer now =>
    let (tm, ms) := tm.getNextTimer now
    .ok (tm, .ms ms)
  | .listExpiredTimer now addr =>
    (tm.listExpiredTimer now addr).map fun (tm, expired, cbs) => (tm, .expired expired cbs)

def lts (Cb : Type) : LTS (TimerManager Cb) (Call Cb × Result Cb) :=
  LTS.ofExcept call

def Result.timers : Result Cb → List Nat
  | .expired timers _ => timers
  | _ => []

def collected (trace : List (Call Cb × Result Cb)) : List Nat :=
  trace.flatMap (fun l => l.2.timers)

end TimerManager
end CXS
