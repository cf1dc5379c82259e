import CXS.Timer.Calls
import Mathlib.Algebra.Order.Monoid.Unbundled.WithTop
import Mathlib.Data.List.DropRight
import Mathlib.Data.List.MinMax

namespace CXS
namespace TimerManager

variable {Cb : Type}

def Call.now? : Call Cb → Option Nat
  | .addTimer _ _ _ _ now => some now
  | .cancel _ => none
  | .refresh _ now => some now
  | .reset _ _ _ now => some now
  | .getNextTimer now => some now
  | .listExpiredTimer now _ => some now

def Call.ms? : Call Cb → Option Nat
  | .addTimer _ ms _ _ _ => some ms
  | .reset _ ms _ _ => some ms
  | _ => none

def Call.isGetNextTimer : Call Cb → Bool
  | .getNextTimer _ => true
  | _ => false

def Result.notified : Result Cb → Bool
  | .timer _ notified => notified
  | .bool _ notified => notified
  | _ => false

def earliest (tm : TimerManager Cb) : WithTop Nat :=
  ((tm.m_timers.filterMap (tm.heap[·]?)).map Timer.m_next).minimum

-- the second component is the earliest deadline at the last `getNextTimer`
def callTold (s : TimerManager Cb × WithTop Nat) (c : Call Cb)
    : Except Fault ((TimerManager Cb × WithTop Nat) × Result Cb) :=
  (s.1.call c).map fun (tm, r) => ((tm, if c.isGetNextTimer then s.1.earliest else s.2), r)

def told (Cb : Type) : LTS (TimerManager Cb × WithTop Nat) (Call Cb × Result Cb) :=
  LTS.ofExcept callTold

def sinceGetNextTimer (trace : List (Call Cb × Result Cb)) : List (Call Cb × Result Cb) :=
  trace.rtakeWhile (fun l => !l.1.isGetNextTimer)

structure Timely (clock : Nat) (timer : Timer Cb) : Prop where
  le_next : timer.m_ms ≤ timer.m_next
  next_le : timer.m_next ≤ clock + timer.m_ms
  next_lt : timer.m_next < 2 ^ 64

theorem Timely.mono {clock now : Nat} {timer : Timer Cb} (h : Timely clock timer)
    (hle : clock ≤ now) : Timely now timer where
  le_next := h.le_next
  next_le := by
    have := h.next_le
    omega
  next_lt := h.next_lt

def AtLeast (E : WithTop Nat) (heap : List (Timer Cb)) (timers : List Nat) : Prop :=
  ∀ t ∈ timers, ∀ timer : Timer Cb, heap[t]? = some timer → E ≤ timer.m_next

theorem AtLeast.subset {E : WithTop Nat} {heap : List (Timer Cb)} {timers timers' : List Nat}
    (h : AtLeast E heap timers) (hsub : timers' ⊆ timers) : AtLeast E heap timers' := by
  intro t ht
  exact h t (hsub ht)

theorem AtLeast.set {E : WithTop Nat} {heap : List (Timer Cb)} {timers : List Nat} {t : Nat}
    {timer : Timer Cb} (h : AtLeast E heap timers) (hnext : t ∈ timers → E ≤ timer.m_next)
    : AtLeast E (heap.set t timer) timers := by
  intro a ha x hx
  rcases heap_set_cases hx with ⟨rfl, rfl⟩ | ⟨-, hx⟩
  . exact hnext ha
  . exact h a ha x hx

theorem AtLeast.insert {E : WithTop Nat} {heap : List (Timer Cb)} {timers : List Nat} {t : Nat}
    (h : AtLeast E heap timers)
    (hnext : ∀ timer : Timer Cb, heap[t]? = some timer → E ≤ timer.m_next)
    : AtLeast E heap (OrderedSet.insert (less heap) t timers) := by
  intro a ha x hx
  rcases OrderedSet.mem_of_mem_insert ha with rfl | ha
  . exact hnext x hx
  . exact h a ha x hx

theorem AtLeast.raise {E : WithTop Nat} {heap : List (Timer Cb)} {timers timers' : List Nat}
    {t : Nat} {timer timer' : Timer Cb} (h : AtLeast E heap timers) (ht : t ∈ timers)
    (hget : heap[t]? = some timer) (hle : timer.m_next ≤ timer'.m_next) (hsub : timers' ⊆ timers)
    : AtLeast E (heap.set t timer') timers' := by
  apply AtLeast.set (h.subset hsub)
  intro _
  apply le_trans (h t ht timer hget)
  exact WithTop.coe_le_coe.mpr hle

theorem atLeast_earliest (tm : TimerManager Cb) : AtLeast tm.earliest tm.heap tm.m_timers := by
  intro t ht timer hget
  apply List.minimum_le_of_mem'
  rw [List.mem_map]
  refine ⟨timer, ?_, rfl⟩
  rw [List.mem_filterMap]
  exact ⟨t, ht, hget⟩

def Slept (E : WithTop Nat) (tm : TimerManager Cb) : Prop :=
  tm.m_tickled = true ∨ AtLeast E tm.heap tm.m_timers

/--
What a call at the time `now` does to deadlines and notifications, for a sleeping thread that was told
`E`.
-/
structure WakeSpec (now : Nat) (E : WithTop Nat) (tm : TimerManager Cb) (ms : Option Nat)
    (tm' : TimerManager Cb) (notified : Bool) : Prop where
  timely : ∀ timer ∈ tm'.heap, Timely now timer
  delay : ∀ timer ∈ tm'.heap, ms = some timer.m_ms ∨ ∃ old ∈ tm.heap, old.m_ms = timer.m_ms
  slept : Slept E tm → Slept E tm'
  notified : tm'.m_tickled = true → tm.m_tickled = true ∨ notified = true

section Calls

variable {tm tm' : TimerManager Cb} {E : WithTop Nat} {t clock now : Nat}

theorem WakeSpec.of_heap_eq (htimely : ∀ timer ∈ tm.heap, Timely clock timer) (hclock : clock ≤ now)
    (ms : Option Nat) (n : Bool) (hheap : tm'.heap = tm.heap) (hsub : tm'.m_timers ⊆ tm.m_timers)
    (htickled : tm'.m_tickled = tm.m_tickled) : WakeSpec now E tm ms tm' n where
  timely := by
    intro timer hmem
    rw [hheap] at hmem
    exact (htimely timer hmem).mono hclock
  delay := by
    intro timer hmem
    rw [hheap] at hmem
    exact .inr ⟨timer, hmem, rfl⟩
  slept := by
    intro h
    unfold Slept
    rw [htickled, hheap]
    rcases h with h | h
    . exact .inl h
    . exact .inr (h.subset hsub)
  notified := by
    intro h
    rw [htickled] at h
    exact .inl h

theorem WakeSpec.of_set (htimely : ∀ timer ∈ tm.heap, Timely clock timer) (hclock : clock ≤ now)
    {ms : Option Nat} {n : Bool} {timer timer' : Timer Cb} (hget : tm.heap[t]? = some timer)
    (hheap : tm'.heap = tm.heap.set t timer') (htimely' : Timely now timer')
    (hms : ms = some timer'.m_ms ∨ timer'.m_ms = timer.m_ms) (hslept : Slept E tm → Slept E tm')
    (hnotified : tm'.m_tickled = true → tm.m_tickled = true ∨ n = true)
    : WakeSpec now E tm ms tm' n where
  timely := by
    intro x hx
    rw [hheap] at hx
    rcases List.mem_or_eq_of_mem_set hx with hx | rfl
    . exact (htimely x hx).mono hclock
    . exact htimely'
  delay := by
    intro x hx
    rw [hheap] at hx
    rcases List.mem_or_eq_of_mem_set hx with hx | rfl
    . exact .inr ⟨x, hx, rfl⟩
    . rcases hms with hms | hms
      . exact .inl hms
      . exact .inr ⟨timer, List.mem_of_getElem? hget, hms.symm⟩
  slept := hslept
  notified := hnotified

theorem le_next_of_less {heap : List (Timer Cb)} {a b : Nat} {x y : Timer Cb}
    (hx : heap[a]? = some x) (hy : heap[b]? = some y) (h : less heap a b = true)
    : x.m_next ≤ y.m_next := by
  rw [less_iff, key_eq hx, key_eq hy, WithBot.coe_lt_coe, Prod.Lex.toLex_lt_toLex] at h
  omega

theorem insertTimer_slept (hlt : ∀ a ∈ tm.m_timers, a < tm.heap.length) (hE : Slept E tm)
    : Slept E (tm.insertTimer t).1 := by
  unfold Slept insertTimer
  dsimp only
  rcases hE with hE | hE
  . left
    rw [hE]
    rfl
  . by_cases hfront : OrderedSet.lowerBound (less tm.heap) t tm.m_timers = 0
    . left
      rw [hfront]
      cases tm.m_tickled <;> rfl
    . right
      obtain ⟨a, ha, hless⟩ := OrderedSet.exists_lt_of_lowerBound hfront
      have hget := List.getElem?_eq_getElem (hlt a ha)
      apply hE.insert
      intro timer hget'
      apply le_trans (hE a ha _ hget)
      exact WithTop.coe_le_coe.mpr (le_next_of_less hget hget' hless)

theorem insertTimer_notified (h : (tm.insertTimer t).1.m_tickled = true)
    : tm.m_tickled = true ∨ (tm.insertTimer t).2 = true := by
  unfold insertTimer at h
  rw [Bool.or_eq_true] at h
  exact h

theorem addTimer_wake (hinv : Inv tm.heap tm.m_timers [])
    (htimely : ∀ timer ∈ tm.heap, Timely clock timer) (hclock : clock ≤ now) {addr ms : Nat}
    (hms : now + ms < 2 ^ 64) {cb : Cb} {recurring n : Bool}
    (hcall : tm.addTimer addr ms (some cb) recurring now = .ok (tm', t, n))
    : WakeSpec now E tm (some ms) tm' n := by
  unfold addTimer at hcall
  split at hcall
  . cases hcall
  . simp only [Except.ok.injEq, Prod.mk.injEq] at hcall
    obtain ⟨rfl, rfl, rfl⟩ := hcall
    constructor
    . intro timer hmem
      rw [insertTimer_heap, List.mem_append, List.mem_singleton] at hmem
      rcases hmem with hmem | rfl
      . exact (htimely timer hmem).mono hclock
      . constructor
        . simp only [wrap64]
          omega
        . simp only [wrap64]
          omega
        . simp only [wrap64]
          omega
    . intro timer hmem
      rw [insertTimer_heap, List.mem_append, List.mem_singleton] at hmem
      rcases hmem with hmem | rfl
      . exact .inr ⟨timer, hmem, rfl⟩
      . exact .inl rfl
    . intro hE
      apply insertTimer_slept
      . intro a ha
        have := hinv.lt_length a (.inl ha)
        rw [List.length_append]
        omega
      . rcases hE with hE | hE
        . exact .inl hE
        . right
          intro a ha x hx
          have hlt := hinv.lt_length a (.inl ha)
          rw [List.getElem?_append_left hlt] at hx
          exact hE a ha x hx
    . exact insertTimer_notified

theorem cancel_wake (htimely : ∀ timer ∈ tm.heap, Timely clock timer) {ret : Bool}
    (hcall : tm.cancel t = .ok (tm', ret)) : WakeSpec clock E tm none tm' false := by
  rcases cancel_cases hcall with rfl | ⟨timer, it, hget, rfl⟩
  . exact .of_heap_eq htimely le_rfl none false rfl (List.Subset.refl _) rfl
  . have htimer := htimely timer (List.mem_of_getElem? hget)
    apply WakeSpec.of_set htimely le_rfl hget rfl
    . exact ⟨htimer.le_next, htimer.next_le, htimer.next_lt⟩
    . exact .inr rfl
    . intro hE
      rcases hE with hE | hE
      . exact .inl hE
      . right
        apply AtLeast.set
        . exact hE.subset List.eraseIdx_subset
        . intro ht
          exact hE t (List.eraseIdx_subset ht) timer hget
    . exact Or.inl

theorem Timely.rearm {timer : Timer Cb} (h : Timely clock timer) (hclock : clock ≤ now)
    (hfit : now + timer.m_ms < 2 ^ 64)
    : Timely now { timer with m_next := wrap64 (now + timer.m_ms) }
      ∧ timer.m_next ≤ wrap64 (now + timer.m_ms) := by
  have hwrap : wrap64 (now + timer.m_ms) = now + timer.m_ms := Nat.mod_eq_of_lt hfit
  have hle := h.next_le
  rw [hwrap]
  refine ⟨?_, by omega⟩
  constructor
  . dsimp only
    omega
  . dsimp only
    omega
  . exact hfit

theorem refresh_wake (hinv : Inv tm.heap tm.m_timers [])
    (htimely : ∀ timer ∈ tm.heap, Timely clock timer) (hclock : clock ≤ now)
    (hfit : ∀ timer ∈ tm.heap, now + timer.m_ms < 2 ^ 64) {ret : Bool}
    (hcall : tm.refresh t now = .ok (tm', ret)) : WakeSpec now E tm none tm' false := by
  rcases refresh_cases hcall with rfl | ⟨timer, it, hget, hcb, hfind, rfl⟩
  . exact .of_heap_eq htimely hclock none false rfl (List.Subset.refl _) rfl
  . have hmem := List.mem_of_getElem? hget
    obtain ⟨hrearm, hlater⟩ := (htimely timer hmem).rearm hclock (hfit timer hmem)
    have hit := hinv.find_get hget hcb hfind
    apply WakeSpec.of_set htimely hclock hget rfl hrearm
    . exact .inr rfl
    . intro hE
      rcases hE with hE | hE
      . exact .inl hE
      . right
        have hmem := List.mem_of_getElem? hit
        apply hE.raise hmem hget hlater
        intro a ha
        rcases OrderedSet.mem_of_mem_insert ha with rfl | ha
        . exact hmem
        . exact List.eraseIdx_subset ha
    . exact Or.inl

theorem reset_wake (hinv : Inv tm.heap tm.m_timers [])
    (htimely : ∀ timer ∈ tm.heap, Timely clock timer) (hclock : clock ≤ now) {ms : Nat}
    (hms : now + ms < 2 ^ 64) {from_now ret n : Bool}
    (hcall : tm.reset t ms from_now now = .ok (tm', ret, n))
    : WakeSpec now E tm (some ms) tm' n := by
  rcases reset_cases hcall with rfl | hcall
  . exact .of_heap_eq htimely hclock _ n rfl (List.Subset.refl _) rfl
  . rcases resetLocked_cases hcall with rfl | ⟨timer, it, start, hget, hcb, hfind, hstart, hinsert⟩
    . exact .of_heap_eq htimely hclock _ n rfl (List.Subset.refl _) rfl
    . obtain ⟨rfl, rfl⟩ := Prod.mk.inj hinsert
      have htimer := htimely timer (List.mem_of_getElem? hget)
      have hout := hinv.erase (hinv.find_get hget hcb hfind)
      have hle : start ≤ now := by
        have := htimer.le_next
        have := htimer.next_le
        have := htimer.next_lt
        rw [hstart]
        unfold wrap64
        split <;> omega
      have hwrap : wrap64 (start + ms) = start + ms := Nat.mod_eq_of_lt (by omega)
      apply WakeSpec.of_set htimely hclock hget insertTimer_heap
      . rw [hwrap]
        constructor
        . dsimp only
          omega
        . dsimp only
          omega
        . dsimp only
          omega
      . exact .inl rfl
      . intro hE
        apply insertTimer_slept
        . intro a ha
          dsimp only
          rw [List.length_set]
          exact hout.lt_length a (.inl ha)
        . rcases hE with hE | hE
          . exact .inl hE
          . right
            apply AtLeast.set
            . exact hE.subset List.eraseIdx_subset
            . intro ht
              exact absurd ht (hout.disjoint t List.mem_cons_self)
      . exact insertTimer_notified

theorem collect_tickled (now_ms : Nat) (tm : TimerManager Cb) (expired : List Nat)
    : (collect now_ms tm expired).1.m_tickled = tm.m_tickled := by
  induction expired generalizing tm with
  | nil => rfl
  | cons t expired ih =>
    unfold collect
    split
    . exact ih tm
    . simp only [ih]
      split
      . rfl
      . rfl

structure CollectSpec (now : Nat) (E : WithTop Nat) (tm : TimerManager Cb) (expired : List Nat)
    (tm' : TimerManager Cb) : Prop where
  timely : ∀ timer ∈ tm'.heap, Timely now timer
  delay : ∀ timer ∈ tm'.heap, ∃ old ∈ tm.heap, old.m_ms = timer.m_ms
  atLeast : AtLeast E tm.heap (tm.m_timers ++ expired) → AtLeast E tm'.heap tm'.m_timers

theorem CollectSpec.of_set {tm₁ : TimerManager Cb} {expired : List Nat} {timer : Timer Cb}
    (timer' : Timer Cb) (h : CollectSpec now E tm₁ expired tm') (hget : tm.heap[t]? = some timer)
    (hheap : tm₁.heap = tm.heap.set t timer') (hms : timer'.m_ms = timer.m_ms)
    (hle : timer.m_next ≤ timer'.m_next) (hsub : ∀ a ∈ tm₁.m_timers, a = t ∨ a ∈ tm.m_timers)
    : CollectSpec now E tm (t :: expired) tm' where
  timely := h.timely
  delay := by
    intro x hx
    obtain ⟨y, hy, hyx⟩ := h.delay x hx
    rw [hheap] at hy
    rcases List.mem_or_eq_of_mem_set hy with hy | rfl
    . exact ⟨y, hy, hyx⟩
    . exact ⟨timer, List.mem_of_getElem? hget, hms.symm.trans hyx⟩
  atLeast := by
    intro hE
    apply h.atLeast
    rw [hheap]
    apply hE.raise (by simp) hget hle
    intro a ha
    rw [List.mem_append] at ha
    rw [List.mem_append, List.mem_cons]
    rcases ha with ha | ha
    . rcases hsub a ha with rfl | ha
      . exact .inr (.inl rfl)
      . exact .inl ha
    . exact .inr (.inr ha)

theorem collect_wake (tm : TimerManager Cb) (expired : List Nat)
    (htimely : ∀ timer ∈ tm.heap, Timely now timer)
    (hfit : ∀ timer ∈ tm.heap, now + timer.m_ms < 2 ^ 64)
    : CollectSpec now E tm expired (collect now tm expired).1 := by
  induction expired generalizing tm with
  | nil =>
    refine ⟨htimely, fun timer hmem => ⟨timer, hmem, rfl⟩, ?_⟩
    rw [List.append_nil]
    exact id
  | cons t expired ih =>
    unfold collect
    split
    . obtain ⟨h₁, h₂, h₃⟩ := ih tm htimely hfit
      refine ⟨h₁, h₂, ?_⟩
      intro hE
      apply h₃
      apply hE.subset
      simp
    . next timer hget =>
      have hmem := List.mem_of_getElem? hget
      have htimer := htimely timer hmem
      obtain ⟨hrearm, hlater⟩ := htimer.rearm le_rfl (hfit timer hmem)
      have hset : ∀ timer' : Timer Cb, timer'.m_ms = timer.m_ms → Timely now timer'
          → ∀ x ∈ tm.heap.set t timer', Timely now x ∧ now + x.m_ms < 2 ^ 64 := by
        intro timer' hms htimely' x hx
        rcases List.mem_or_eq_of_mem_set hx with hx | rfl
        . exact ⟨htimely x hx, hfit x hx⟩
        . rw [hms]
          exact ⟨htimely', hfit timer hmem⟩
      simp only
      split
      . have hset := hset { timer with m_next := wrap64 (now + timer.m_ms) } rfl hrearm
        apply CollectSpec.of_set { timer with m_next := wrap64 (now + timer.m_ms) }
          (ih _ (fun x hx => (hset x hx).1) (fun x hx => (hset x hx).2)) hget rfl rfl hlater
        intro a ha
        exact OrderedSet.mem_of_mem_insert ha
      . have hset := hset { timer with m_cb := none } rfl
          ⟨htimer.le_next, htimer.next_le, htimer.next_lt⟩
        apply CollectSpec.of_set { timer with m_cb := none }
          (ih _ (fun x hx => (hset x hx).1) (fun x hx => (hset x hx).2)) hget rfl rfl le_rfl
        intro a ha
        exact .inr ha

theorem takeExpired_wake (htimely : ∀ timer ∈ tm.heap, Timely clock timer) (hclock : clock ≤ now)
    (hfit : ∀ timer ∈ tm.heap, now + timer.m_ms < 2 ^ 64) {addr : Nat} {expired : List Nat}
    {cbs : List (Option Cb)} (hcall : tm.takeExpired now addr = .ok (tm', expired, cbs))
    : WakeSpec now E tm none tm' false := by
  rcases takeExpired_cases hcall with ⟨rfl, -, -⟩ | ⟨it, -, hcollected⟩
  . exact .of_heap_eq htimely hclock none false rfl (List.Subset.refl _) rfl
  . rw [(Prod.mk.inj hcollected).1]
    have hcollect := @collect_wake _ E now
      { (tm.detectClockRollover now).1 with m_timers := tm.m_timers.drop it }
      (tm.m_timers.take it) (fun timer hmem => (htimely timer hmem).mono hclock) hfit
    have htickled := collect_tickled now
      { (tm.detectClockRollover now).1 with m_timers := tm.m_timers.drop it }
      (tm.m_timers.take it)
    constructor
    . exact hcollect.timely
    . intro timer hmem
      exact .inr (hcollect.delay timer hmem)
    . intro hE
      rcases hE with hE | hE
      . left
        rw [← hE]
        exact htickled
      . right
        apply hcollect.atLeast
        apply hE.subset
        intro a ha
        rcases List.mem_append.mp ha with ha | ha
        . exact List.mem_of_mem_drop ha
        . exact List.mem_of_mem_take ha
    . intro h
      left
      rw [← h]
      exact htickled.symm

theorem call_wake {c : Call Cb} {r : Result Cb} (hinv : Inv tm.heap tm.m_timers [])
    (htimely : ∀ timer ∈ tm.heap, Timely clock timer) (hclock : clock ≤ c.now?.getD clock)
    (hfit : ∀ timer ∈ tm.heap, ∀ now ∈ c.now?, now + timer.m_ms < 2 ^ 64)
    (hms : ∀ ms ∈ c.ms?, ∀ now ∈ c.now?, now + ms < 2 ^ 64) (hnext : c.isGetNextTimer = false)
    (hcall : tm.call c = .ok (tm', r))
    : WakeSpec (c.now?.getD clock) E tm c.ms? tm' r.notified := by
  cases c with
  | addTimer addr ms cb recurring now =>
    obtain ⟨⟨tm1, t, n⟩, hret, heq⟩ := Except.map_eq_ok hcall
    cases heq
    exact addTimer_wake hinv htimely hclock (hms ms rfl now rfl) hret
  | cancel t =>
    obtain ⟨⟨tm1, ret⟩, hret, heq⟩ := Except.map_eq_ok hcall
    cases heq
    exact cancel_wake htimely hret
  | refresh t now =>
    obtain ⟨⟨tm1, ret⟩, hret, heq⟩ := Except.map_eq_ok hcall
    cases heq
    exact refresh_wake hinv htimely hclock (fun timer hmem => hfit timer hmem now rfl) hret
  | reset t ms from_now now =>
    obtain ⟨⟨tm1, ret, n⟩, hret, heq⟩ := Except.map_eq_ok hcall
    cases heq
    exact reset_wake hinv htimely hclock (hms ms rfl now rfl) hret
  | getNextTimer now => cases hnext
  | listExpiredTimer now addr =>
    obtain ⟨⟨tm1, expired, cbs⟩, hret, heq⟩ := Except.map_eq_ok hcall
    cases heq
    rcases listExpiredTimer_cases hret with ⟨-, rfl, rfl, rfl⟩ | hret
    . exact .of_heap_eq htimely hclock none false rfl (List.Subset.refl _) rfl
    . exact takeExpired_wake htimely hclock (fun timer hmem => hfit timer hmem now rfl) hret

end Calls

def clocks (trace : List (Call Cb × Result Cb)) : List Nat :=
  trace.filterMap (fun l => l.1.now?)

def delays (trace : List (Call Cb × Result Cb)) : List Nat :=
  trace.filterMap (fun l => l.1.ms?)

structure Clocked (now : Nat) (trace : List (Call Cb × Result Cb)) : Prop where
  nondecreasing : (now :: clocks trace).Pairwise (· ≤ ·)
  fits : ∀ clock ∈ clocks trace, ∀ ms ∈ delays trace, clock + ms < 2 ^ 64

theorem Clocked.of_snoc {now : Nat} {trace : List (Call Cb × Result Cb)}
    {l : Call Cb × Result Cb} (h : Clocked now (trace ++ [l])) : Clocked now trace where
  nondecreasing := by
    have := h.nondecreasing
    unfold clocks at this
    rw [List.filterMap_append, ← List.cons_append] at this
    exact (List.pairwise_append.mp this).1
  fits := by
    intro clock hclock ms hms
    apply h.fits
    . unfold clocks
      rw [List.filterMap_append]
      exact List.mem_append_left _ hclock
    . unfold delays
      rw [List.filterMap_append]
      exact List.mem_append_left _ hms

def lastClock (now : Nat) (trace : List (Call Cb × Result Cb)) : Nat :=
  (now :: clocks trace).getLast (List.cons_ne_nil _ _)

structure Told (now : Nat) (trace : List (Call Cb × Result Cb)) (s : TimerManager Cb × WithTop Nat)
    : Prop where
  inv : Inv s.1.heap s.1.m_timers []
  timely : ∀ timer ∈ s.1.heap, Timely (lastClock now trace) timer
  delay : ∀ timer ∈ s.1.heap, timer.m_ms ∈ delays trace
  slept : Slept s.2 s.1
  notified : s.1.m_tickled = true → ∃ l ∈ sinceGetNextTimer trace, l.2.notified = true

theorem told_nil (now : Nat) : Told now [] ((new now : TimerManager Cb), ⊤) where
  inv := inv_nil
  timely := by simp [new]
  delay := by simp [new]
  slept := by
    right
    intro t ht
    cases ht
  notified := by simp [new]

section Run

variable {now : Nat} {trace : List (Call Cb × Result Cb)} {l : Call Cb × Result Cb}
  {s s' : TimerManager Cb × WithTop Nat}

theorem clocks_snoc : clocks (trace ++ [l]) = clocks trace ++ l.1.now?.toList := by
  unfold clocks
  rw [List.filterMap_append]
  cases h : l.1.now? with
  | none => simp [h]
  | some now => simp [h]

theorem delays_snoc : delays (trace ++ [l]) = delays trace ++ l.1.ms?.toList := by
  unfold delays
  rw [List.filterMap_append]
  cases h : l.1.ms? with
  | none => simp [h]
  | some ms => simp [h]

theorem lastClock_snoc : lastClock now (trace ++ [l]) = l.1.now?.getD (lastClock now trace) := by
  unfold lastClock
  cases hnow : l.1.now? with
  | none => simp [clocks_snoc, hnow]
  | some now => simp [clocks_snoc, hnow]

theorem lastClock_le (h : Clocked now (trace ++ [l]))
    : lastClock now trace ≤ l.1.now?.getD (lastClock now trace) := by
  have hpair := h.nondecreasing
  rw [clocks_snoc, ← List.cons_append] at hpair
  cases hnow : l.1.now? with
  | none => exact le_rfl
  | some time =>
    rw [hnow] at hpair
    apply (List.pairwise_append.mp hpair).2.2
    . exact List.getLast_mem _
    . simp

theorem told_step (h : Told now trace s) (hclocked : Clocked now (trace ++ [l]))
    (hstep : (told Cb).step s l s') : Told now (trace ++ [l]) s' := by
  obtain ⟨⟨tm', r⟩, hcall, heq⟩ := Except.map_eq_ok hstep
  obtain ⟨rfl, hr⟩ := Prod.mk.inj heq
  have hinv := (call_spec h.inv hcall).inv
  cases hnext : l.1.isGetNextTimer with
  | true =>
    obtain ⟨c, r⟩ := l
    cases c with
    | getNextTimer time =>
      have htm : (s.1.getNextTimer time).1 = tm' := by
        injection hcall with hcall
        exact (Prod.mk.inj hcall).1
      rw [getNextTimer_fst] at htm
      subst htm
      constructor
      . exact hinv
      . rw [lastClock_snoc]
        intro timer hmem
        exact (h.timely timer hmem).mono (lastClock_le hclocked)
      . rw [delays_snoc]
        intro timer hmem
        exact List.mem_append_left _ (h.delay timer hmem)
      . right
        exact atLeast_earliest s.1
      . intro htickled
        cases htickled
    | _ => cases hnext
  | false =>
    have hwake := @call_wake _ _ _ s.2 _ l.1 r h.inv h.timely (lastClock_le hclocked)
      (by
        intro timer hmem time htime
        apply hclocked.fits
        . rw [clocks_snoc, List.mem_append]
          exact .inr (by simpa using htime)
        . rw [delays_snoc, List.mem_append]
          exact .inl (h.delay timer hmem))
      (by
        intro ms hms time htime
        apply hclocked.fits
        . rw [clocks_snoc, List.mem_append]
          exact .inr (by simpa using htime)
        . rw [delays_snoc, List.mem_append]
          exact .inr (by simpa using hms))
      hnext hcall
    constructor
    . exact hinv
    . rw [lastClock_snoc]
      exact hwake.timely
    . intro timer hmem
      rw [delays_snoc, List.mem_append]
      rcases hwake.delay timer hmem with hms | ⟨old, hold, hms⟩
      . exact .inr (by simp [hms])
      . rw [← hms]
        exact .inl (h.delay old hold)
    . exact hwake.slept h.slept
    . intro htickled
      unfold sinceGetNextTimer
      rw [List.rtakeWhile_concat, hnext]
      rcases hwake.notified htickled with htickled | hnotified
      . obtain ⟨l', hmem, hl'⟩ := h.notified htickled
        exact ⟨l', List.mem_append_left _ hmem, hl'⟩
      . refine ⟨l, ?_, ?_⟩
        . simp
        . rw [← hr]
          exact hnotified

theorem run_told (h : (told Cb).Run (new now, ⊤) trace s) (hclocked : Clocked now trace)
    : Told now trace s := by
  have hinv : ∀ pre s l s', (Clocked now pre → Told now pre s) → (told Cb).step s l s'
      → (Clocked now (pre ++ [l]) → Told now (pre ++ [l]) s') := by
    intro pre s l s' hs hstep hclocked
    exact told_step (hs hclocked.of_snoc) hclocked hstep
  exact h.history hinv (fun _ => told_nil now) hclocked

end Run

theorem run_tickled_or_not_earlier {now : Nat} {trace : List (Call Cb × Result Cb)}
    {tm : TimerManager Cb} {E : WithTop Nat} (h : (told Cb).Run (new now, ⊤) trace (tm, E))
    (hclocked : Clocked now trace)
    : (tm.m_tickled = true
        ∨ ∀ t ∈ tm.m_timers, ∀ timer, tm.heap[t]? = some timer → E ≤ timer.m_next)
      ∧ ((∃ t ∈ tm.m_timers, ∃ timer, tm.heap[t]? = some timer ∧ timer.m_next < E)
          → ∃ l ∈ sinceGetNextTimer trace, l.2.notified = true) := by
  have htold := run_told h hclocked
  refine ⟨htold.slept, ?_⟩
  intro hearlier
  obtain ⟨t, ht, timer, hget, hlt⟩ := hearlier
  apply htold.notified
  rcases htold.slept with htickled | hatLeast
  . exact htickled
  . exact absurd hlt (not_lt.mpr (hatLeast t ht timer hget))

theorem run_tickled_or_not_earlier_second_timer
    : let trace : List (Call Nat × Result Nat) :=
        [
          (.addTimer 8 50 1 true 10, .timer 0 true),
          (.getNextTimer 20, .ms 40),
          (.refresh 0 30, .bool true false),
          (.addTimer 16 10 2 false 35, .timer 1 true)
        ]
      ∃ tm, (told Nat).Run (new 0, ⊤) trace (tm, (60 : Nat)) ∧ Clocked 0 trace
        ∧ ∃ l ∈ sinceGetNextTimer trace, l.2.notified = true := by
  intro trace
  let tm : TimerManager Nat :=
    {
      heap := [⟨8, true, 50, 80, some 1⟩, ⟨16, false, 10, 45, some 2⟩]
      m_timers := [1, 0]
      m_tickled := true
      m_previouseTime := 0
    }
  have hclocked : Clocked 0 trace := ⟨by decide, by decide⟩
  have hrun : (told Nat).Run (new 0, ⊤) trace (tm, (60 : Nat)) := by
    apply LTS.run_of_replay
    decide
  refine ⟨tm, hrun, hclocked, ?_⟩
  apply (run_tickled_or_not_earlier hrun hclocked).2
  refine ⟨1, by decide, _, rfl, ?_⟩
  decide

end TimerManager
end CXS
