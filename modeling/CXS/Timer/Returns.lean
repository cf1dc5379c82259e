import CXS.Timer.Run
import CXS.Timer.Wakeup

namespace CXS
namespace TimerManager

variable {Cb : Type}

section Locked

variable {tm : TimerManager Cb} {t : Nat} {timer : Timer Cb}

theorem refresh_eq (h : Inv tm.heap tm.m_timers []) (hget : tm.heap[t]? = some timer)
    (hcb : timer.m_cb.isSome = true) (now : Nat)
    : ∃ it, tm.m_timers[it]? = some t
      ∧ tm.refresh t now = .ok ({ tm with
          heap := tm.heap.set t { timer with m_next := wrap64 (now + timer.m_ms) }
          m_timers :=
            OrderedSet.insert (less (tm.heap.set t { timer with m_next := wrap64 (now + timer.m_ms) }))
              t (tm.m_timers.eraseIdx it)
        }, true) := by
  have hmem : t ∈ tm.m_timers := by simpa using (h.mem_iff t timer hget).mpr hcb
  obtain ⟨it, hfind, hit⟩ := h.find_ok hmem
  refine ⟨it, hit, ?_⟩
  unfold refresh
  rw [hget]
  simp only [Option.isNone_eq_false_iff.mpr hcb, hfind]
  rfl

theorem refresh_dead (hget : tm.heap[t]? = some timer) (hcb : timer.m_cb = none) (now : Nat)
    : tm.refresh t now = .ok (tm, false) := by
  unfold refresh
  rw [hget]
  simp only [hcb]
  rfl

theorem cancel_dead (hget : tm.heap[t]? = some timer) (hcb : timer.m_cb = none)
    : tm.cancel t = .ok (tm, false) := by
  unfold cancel
  rw [hget]
  simp only [hcb]
  rfl

def restart (timer : Timer Cb) (ms : Nat) (from_now : Bool) (now : Nat) : Nat :=
  wrap64 ((if from_now then now else wrap64 (timer.m_next + 2 ^ 64 - timer.m_ms)) + ms)

theorem resetLocked_eq (h : Inv tm.heap tm.m_timers []) (hget : tm.heap[t]? = some timer)
    (hcb : timer.m_cb.isSome = true) (ms : Nat) (from_now : Bool) (now : Nat)
    : ∃ it tm1, tm.m_timers[it]? = some t
      ∧ tm1 = { tm with
          heap := tm.heap.set t { timer with m_ms := ms, m_next := restart timer ms from_now now }
          m_timers := tm.m_timers.eraseIdx it
        }
      ∧ tm.resetLocked t ms from_now now
          = .ok ((tm1.insertTimer t).1, true, (tm1.insertTimer t).2) := by
  have hmem : t ∈ tm.m_timers := by simpa using (h.mem_iff t timer hget).mpr hcb
  obtain ⟨it, hfind, hit⟩ := h.find_ok hmem
  refine ⟨it, _, hit, rfl, ?_⟩
  unfold resetLocked restart
  rw [hget]
  simp only [Option.isNone_eq_false_iff.mpr hcb, hfind]
  rfl

theorem resetLocked_dead (hget : tm.heap[t]? = some timer) (hcb : timer.m_cb = none) (ms : Nat)
    (from_now : Bool) (now : Nat)
    : tm.resetLocked t ms from_now now = .ok (tm, false, false) := by
  unfold resetLocked
  rw [hget]
  simp only [hcb]
  rfl

theorem reset_early (hget : tm.heap[t]? = some timer) (now : Nat)
    : tm.reset t timer.m_ms false now = .ok (tm, true, false) := by
  unfold reset
  rw [hget]
  simp

theorem reset_late (hget : tm.heap[t]? = some timer) {ms : Nat} {from_now : Bool}
    (hlate : ¬(ms = timer.m_ms ∧ from_now = false)) (now : Nat)
    : tm.reset t ms from_now now = tm.resetLocked t ms from_now now := by
  unfold reset resetLocked
  rw [hget]
  dsimp only
  rw [if_neg (by simpa using hlate)]

theorem restart_same (hnext : timer.m_next < 2 ^ 64) (hms : timer.m_ms < 2 ^ 64) (now : Nat)
    : restart timer timer.m_ms false now = timer.m_next := by
  unfold restart wrap64
  rw [if_neg (by decide)]
  omega

end Locked

section Deadlines

variable {tm tm' : TimerManager Cb}

def NextFits (heap : List (Timer Cb)) : Prop :=
  ∀ timer ∈ heap, timer.m_next < 2 ^ 64

theorem wrap64_lt (n : Nat) : wrap64 n < 2 ^ 64 :=
  Nat.mod_lt _ (by decide)

theorem NextFits.set {heap : List (Timer Cb)} (h : NextFits heap) {timer : Timer Cb}
    (hnext : timer.m_next < 2 ^ 64) (t : Nat) : NextFits (heap.set t timer) := by
  intro x hx
  rcases List.mem_or_eq_of_mem_set hx with hx | rfl
  . exact h x hx
  . exact hnext

theorem collect_nextFits (now_ms : Nat) (tm : TimerManager Cb) (expired : List Nat)
    (h : NextFits tm.heap) : NextFits (collect now_ms tm expired).1.heap := by
  induction expired generalizing tm with
  | nil => exact h
  | cons t expired ih =>
    unfold collect
    split
    . exact ih tm h
    . next timer hget =>
      simp only
      apply ih
      split
      . apply h.set
        apply wrap64_lt
      . apply h.set
        exact h timer (List.mem_of_getElem? hget)

theorem call_nextFits {c : Call Cb} {r : Result Cb} (h : NextFits tm.heap)
    (hcall : tm.call c = .ok (tm', r)) : NextFits tm'.heap := by
  cases c with
  | addTimer addr ms cb recurring now =>
    obtain ⟨⟨tm1, t, n⟩, hret, heq⟩ := Except.map_eq_ok hcall
    cases heq
    unfold addTimer at hret
    split at hret
    . cases hret
    . simp only [Except.ok.injEq, Prod.mk.injEq] at hret
      obtain ⟨rfl, -, -⟩ := hret
      intro timer hmem
      rw [insertTimer_heap, List.mem_append, List.mem_singleton] at hmem
      rcases hmem with hmem | rfl
      . exact h timer hmem
      . exact wrap64_lt _
  | cancel t =>
    obtain ⟨⟨tm1, ret⟩, hret, heq⟩ := Except.map_eq_ok hcall
    cases heq
    rcases cancel_cases hret with rfl | ⟨timer, it, hget, rfl⟩
    . exact h
    . apply h.set
      exact h timer (List.mem_of_getElem? hget)
  | refresh t now =>
    obtain ⟨⟨tm1, ret⟩, hret, heq⟩ := Except.map_eq_ok hcall
    cases heq
    rcases refresh_cases hret with rfl | ⟨timer, it, -, -, -, rfl⟩
    . exact h
    . apply h.set
      apply wrap64_lt
  | reset t ms from_now now =>
    obtain ⟨⟨tm1, ret, n⟩, hret, heq⟩ := Except.map_eq_ok hcall
    cases heq
    rcases reset_cases hret with rfl | hlocked
    . exact h
    . rcases resetLocked_cases hlocked with rfl | ⟨timer, it, start, -, -, -, -, hinsert⟩
      . exact h
      . obtain ⟨rfl, rfl⟩ := Prod.mk.inj hinsert
        apply h.set
        apply wrap64_lt
  | getNextTimer now =>
    have htm : (tm.getNextTimer now).1 = tm' := by
      injection hcall with hcall
      exact (Prod.mk.inj hcall).1
    rw [getNextTimer_fst] at htm
    rw [← htm]
    exact h
  | listExpiredTimer now addr =>
    obtain ⟨⟨tm1, expired, cbs⟩, hret, heq⟩ := Except.map_eq_ok hcall
    cases heq
    rcases listExpiredTimer_cases hret with ⟨-, rfl, -, -⟩ | hret
    . exact h
    . rcases takeExpired_cases hret with ⟨rfl, -, -⟩ | ⟨it, -, hcollect⟩
      . exact h
      . rw [(Prod.mk.inj hcollect).1]
        exact collect_nextFits now _ _ h

theorem run_nextFits {now : Nat} {trace : Trace Cb} (h : (lts Cb).Run (new now) trace tm)
    : NextFits tm.heap := by
  apply h.invariant (I := fun tm => NextFits tm.heap)
  . intro s l s' hs hstep
    exact call_nextFits hs hstep
  . intro timer hmem
    cases hmem

end Deadlines

def Call.timer? : Call Cb → Option Nat
  | .cancel t => some t
  | .refresh t _ => some t
  | .reset t _ _ _ => some t
  | _ => none

/--
A call on the timer `t` that returns `ret` says whether the timer is pending, and does nothing when
it is not.
-/
structure Answers (tm : TimerManager Cb) (t : Nat) (c : Call Cb) (tm' : TimerManager Cb) (ret : Bool)
    : Prop where
  pending : ret = true ↔ t ∈ tm.m_timers
  unchanged : ret = false → tm'.m_timers = tm.m_timers ∧ tm'.heap[t]? = tm.heap[t]?
  restarted : ∀ ms from_now now, c = .reset t ms from_now now → ret = true
    → t ∈ tm'.m_timers ∧ ∃ timer timer' : Timer Cb, tm.heap[t]? = some timer
      ∧ tm'.heap[t]? = some timer' ∧ timer'.m_ms = ms
      ∧ timer'.m_next = restart timer ms from_now now

-- the test that `reset` makes before it takes the lock
def SkipsLock (tm : TimerManager Cb) (c : Call Cb) : Prop :=
  ∃ t ms now timer, c = .reset t ms false now ∧ tm.heap[t]? = some timer ∧ timer.m_ms = ms

section Answers

variable {tm tm' : TimerManager Cb} {t : Nat} {c : Call Cb} {timer : Timer Cb}

theorem Inv.dead (h : Inv tm.heap tm.m_timers []) (hget : tm.heap[t]? = some timer)
    (ht : t ∉ tm.m_timers) : timer.m_cb = none := by
  have hiff := h.mem_iff t timer hget
  cases hcb : timer.m_cb with
  | none => rfl
  | some cb =>
    rw [hcb] at hiff
    have hmem := hiff.mpr rfl
    simp [ht] at hmem

theorem Inv.alive (h : Inv tm.heap tm.m_timers []) (hget : tm.heap[t]? = some timer)
    (ht : t ∈ tm.m_timers) : timer.m_cb.isSome = true :=
  (h.mem_iff t timer hget).mp (.inl ht)

theorem Answers.of_dead (ht : t ∉ tm.m_timers) : Answers tm t c tm false where
  pending := by simp [ht]
  unchanged _ := ⟨rfl, rfl⟩
  restarted := by
    intro ms from_now now _ hret
    cases hret

theorem Answers.of_alive (ht : t ∈ tm.m_timers) (hc : ∀ ms from_now now, c ≠ .reset t ms from_now now)
    : Answers tm t c tm' true where
  pending := by simp [ht]
  unchanged := by
    intro hret
    cases hret
  restarted := by
    intro ms from_now now heq
    exact absurd heq (hc ms from_now now)

theorem Answers.of_early (ht : t ∈ tm.m_timers) (hget : tm.heap[t]? = some timer)
    (hnext : timer.m_next < 2 ^ 64) (hms : timer.m_ms < 2 ^ 64) (now : Nat)
    : Answers tm t (.reset t timer.m_ms false now) tm true where
  pending := by simp [ht]
  unchanged := by
    intro hret
    cases hret
  restarted := by
    intro ms from_now time heq _
    injection heq with _ hms' hfrom htime
    subst hms' hfrom htime
    exact ⟨ht, timer, timer, hget, hget, rfl, (restart_same hnext hms now).symm⟩

theorem call_cancel {ret : Bool} (h : tm.cancel t = .ok (tm', ret))
    : tm.call (.cancel t) = .ok (tm', .bool ret false) := by
  simp only [call, h]
  rfl

theorem call_refresh {ret : Bool} {now : Nat} (h : tm.refresh t now = .ok (tm', ret))
    : tm.call (.refresh t now) = .ok (tm', .bool ret false) := by
  simp only [call, h]
  rfl

theorem call_reset {ret n from_now : Bool} {ms now : Nat}
    (h : tm.reset t ms from_now now = .ok (tm', ret, n))
    : tm.call (.reset t ms from_now now) = .ok (tm', .bool ret n) := by
  simp only [call, h]
  rfl

theorem call_dead (hget : tm.heap[t]? = some timer) (hcb : timer.m_cb = none)
    (hc : c.timer? = some t) (hskip : ¬SkipsLock tm c)
    : tm.call c = .ok (tm, .bool false false) := by
  cases c with
  | cancel a =>
    cases hc
    exact call_cancel (cancel_dead hget hcb)
  | refresh a now =>
    cases hc
    exact call_refresh (refresh_dead hget hcb now)
  | reset a ms from_now now =>
    cases hc
    have hlate : ¬(ms = timer.m_ms ∧ from_now = false) := by
      rintro ⟨rfl, rfl⟩
      exact hskip ⟨t, _, now, timer, rfl, hget, rfl⟩
    apply call_reset
    rw [reset_late hget hlate]
    exact resetLocked_dead hget hcb ms from_now now
  | addTimer addr ms cb recurring now => cases hc
  | getNextTimer now => cases hc
  | listExpiredTimer now addr => cases hc

theorem call_alive (h : Inv tm.heap tm.m_timers []) (hfits : NextFits tm.heap)
    (hget : tm.heap[t]? = some timer) (ht : t ∈ tm.m_timers) (hc : c.timer? = some t)
    (hms : ∀ ms ∈ c.ms?, ms < 2 ^ 64)
    : ∃ tm' n, tm.call c = .ok (tm', .bool true n) ∧ Answers tm t c tm' true := by
  have hcb := h.alive hget ht
  have hlt := (List.getElem?_eq_some_iff.mp hget).1
  cases c with
  | cancel a =>
    cases hc
    obtain ⟨it, -, hcancel⟩ := cancel_eq h hget hcb
    exact ⟨_, false, call_cancel hcancel, .of_alive ht (by simp)⟩
  | refresh a now =>
    cases hc
    obtain ⟨it, -, hrefresh⟩ := refresh_eq h hget hcb now
    exact ⟨_, false, call_refresh hrefresh, .of_alive ht (by simp)⟩
  | reset a ms from_now now =>
    cases hc
    by_cases hearly : ms = timer.m_ms ∧ from_now = false
    . obtain ⟨rfl, rfl⟩ := hearly
      have hnext := hfits timer (List.mem_of_getElem? hget)
      exact ⟨tm, false, call_reset (reset_early hget now), .of_early ht hget hnext (hms _ rfl) now⟩
    . obtain ⟨it, tm1, hit, htm1, hreset⟩ := resetLocked_eq h hget hcb ms from_now now
      have hheap : tm1.heap[t]?
          = some { timer with m_ms := ms, m_next := restart timer ms from_now now } := by
        rw [htm1]
        exact List.getElem?_set_self hlt
      refine ⟨(tm1.insertTimer t).1, (tm1.insertTimer t).2, ?_, ?_⟩
      . apply call_reset
        rw [reset_late hget hearly]
        exact hreset
      . constructor
        . simp [ht]
        . intro hret
          cases hret
        . intro ms' from_now' now' heq _
          injection heq with _ hms' hfrom hnow
          subst hms' hfrom hnow
          refine ⟨?_, timer, _, hget, hheap, rfl, rfl⟩
          have hout := (h.erase hit).update hget
            { timer with m_ms := ms, m_next := restart timer ms from_now now } rfl rfl
          rw [htm1]
          exact (hout.held.mem_insert t).mpr (.inl rfl)
  | addTimer addr ms cb recurring now => cases hc
  | getNextTimer now => cases hc
  | listExpiredTimer now addr => cases hc

end Answers

theorem run_answers_iff {now : Nat} {trace : Trace Cb} {tm : TimerManager Cb}
    (h : (lts Cb).Run (new now) trace tm) {t : Nat} (ht : t < tm.heap.length) {c : Call Cb}
    (hc : c.timer? = some t) (hms : ∀ ms ∈ c.ms?, ms < 2 ^ 64)
    : ∃ tm' ret n, tm.call c = .ok (tm', .bool ret n)
      ∧ (Answers tm t c tm' ret ↔ ¬(SkipsLock tm c ∧ t ∉ tm.m_timers)) := by
  have hinv := (run_history h).inv
  have hget := List.getElem?_eq_getElem ht
  by_cases hmem : t ∈ tm.m_timers
  . obtain ⟨tm', n, hcall, hanswers⟩ := call_alive hinv (run_nextFits h) hget hmem hc hms
    refine ⟨tm', true, n, hcall, ?_⟩
    simp [hanswers, hmem]
  . have hcb := hinv.dead hget hmem
    by_cases hskip : SkipsLock tm c
    . refine ⟨tm, true, false, ?_, ?_⟩
      . obtain ⟨a, ms, time, timer, rfl, hget', rfl⟩ := hskip
        exact call_reset (reset_early hget' time)
      . constructor
        . intro hanswers
          exact absurd (hanswers.pending.mp rfl) hmem
        . intro hcond
          exact absurd ⟨hskip, hmem⟩ hcond
    . refine ⟨tm, false, false, call_dead hget hcb hc hskip, ?_⟩
      simp [hskip, Answers.of_dead hmem]

theorem run_answers_iff_cancelled
    : let trace : Trace Nat :=
        [
          (.addTimer 8 10 1 false 20, .timer 0 true),
          (.cancel 0, .bool true false)
        ]
      ∃ tm, (lts Nat).Run (new 0) trace tm
        ∧ ∃ tm' ret n, tm.call (.reset 0 10 true 25) = .ok (tm', .bool ret n)
          ∧ Answers tm 0 (.reset 0 10 true 25) tm' ret := by
  intro trace
  let tm : TimerManager Nat :=
    {
      heap := [⟨8, false, 10, 30, none⟩]
      m_timers := []
      m_tickled := true
      m_previouseTime := 0
    }
  have hrun : (lts Nat).Run (new 0) trace tm := by
    apply LTS.run_of_replay
    decide
  refine ⟨tm, hrun, ?_⟩
  obtain ⟨tm', ret, n, hcall, hiff⟩ := @run_answers_iff _ 0 trace tm hrun 0 (by decide)
    (.reset 0 10 true 25) rfl (by decide)
  refine ⟨tm', ret, n, hcall, hiff.mpr ?_⟩
  rintro ⟨⟨t, ms, time, timer, heq, -, -⟩, -⟩
  cases heq

theorem reset_same_delay_fired
    : let trace : Trace Nat :=
        [
          (.addTimer 8 10 1 false 20, .timer 0 true),
          (.listExpiredTimer 30 16, .expired [0] [some 1])
        ]
      ∃ tm tm' n, (lts Nat).Run (new 0) trace tm
        ∧ tm.call (.reset 0 10 false 40) = .ok (tm', .bool true n)
        ∧ ¬Answers tm 0 (.reset 0 10 false 40) tm' true := by
  intro trace
  let tm : TimerManager Nat :=
    {
      heap := [⟨8, false, 10, 30, none⟩]
      m_timers := []
      m_tickled := true
      m_previouseTime := 30
    }
  refine ⟨tm, tm, false, ?_, rfl, ?_⟩
  . apply LTS.run_of_replay
    decide
  . intro hanswers
    have hpending := hanswers.pending.mp rfl
    cases hpending

end TimerManager
end CXS
