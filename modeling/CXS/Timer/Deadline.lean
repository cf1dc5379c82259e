import CXS.Timer.Returns

namespace CXS
namespace TimerManager

variable {Cb : Type}

structure Arming where
  time : Nat
  ms : Nat
  deriving DecidableEq, Repr

structure Timed (Cb : Type) where
  tm : TimerManager Cb
  armings : List Arming
  clock : Nat
  deriving DecidableEq, Repr

def Timed.start (now : Nat) : Timed Cb where
  tm := new now
  armings := []
  clock := now

def arm (tm : TimerManager Cb) (armings : List Arming) : Call Cb → Result Cb → List Arming
  | .addTimer _ ms _ _ now, _ => armings ++ [{ time := now, ms := ms }]
  | .refresh t now, .bool true _ => armings.modify t (fun a => { a with time := now })
  | .reset t ms from_now now, .bool true _ =>
    armings.modify t (fun a => { time := if from_now then now else a.time, ms := ms })
  | .listExpiredTimer now _, .expired ts _ =>
    armings.mapIdx (fun t a =>
      if t ∈ ts ∧ tm.heap[t]?.any Timer.m_recurring then { a with time := now } else a)
  | _, _ => armings

def callTimed (s : Timed Cb) (c : Call Cb) : Except Fault (Timed Cb × Result Cb) :=
  (s.tm.call c).map fun (tm, r) =>
    ({ tm := tm, armings := arm s.tm s.armings c r, clock := c.now?.getD s.clock }, r)

-- a clock that does not go back, and values of type `uint64_t`
structure Ticks (s : Timed Cb) (l : Call Cb × Result Cb) : Prop where
  clock_le : s.clock ≤ l.1.now?.getD s.clock
  clock_lt : l.1.now?.getD s.clock < 2 ^ 64
  ms_lt : ∀ ms ∈ l.1.ms?, ms < 2 ^ 64

def timed (Cb : Type) : LTS (Timed Cb) (Call Cb × Result Cb) :=
  (LTS.ofExcept callTimed).restrict Ticks

structure Fits (clock : Nat) (timer : Timer Cb) (a : Arming) : Prop where
  ms : timer.m_ms = a.ms
  next : timer.m_next = wrap64 (a.time + a.ms)
  time_le : a.time ≤ clock
  ms_lt : a.ms < 2 ^ 64

theorem Fits.mono {clock now : Nat} {timer : Timer Cb} {a : Arming} (h : Fits clock timer a)
    (hle : clock ≤ now) : Fits now timer a where
  ms := h.ms
  next := h.next
  time_le := by
    have := h.time_le
    omega
  ms_lt := h.ms_lt

theorem Fits.clear {clock : Nat} {timer : Timer Cb} {a : Arming} (h : Fits clock timer a)
    : Fits clock ({ timer with m_cb := none } : Timer Cb) a :=
  ⟨h.ms, h.next, h.time_le, h.ms_lt⟩

theorem Fits.rearm {clock now : Nat} {timer : Timer Cb} {a : Arming} (h : Fits clock timer a)
    : Fits now ({ timer with m_next := wrap64 (now + timer.m_ms) } : Timer Cb)
        { a with time := now } where
  ms := h.ms
  next := by
    dsimp only
    rw [h.ms]
  time_le := le_rfl
  ms_lt := h.ms_lt

theorem wrap64_sub {time ms : Nat} (htime : time < 2 ^ 64) (hms : ms < 2 ^ 64)
    : wrap64 (wrap64 (time + ms) + 2 ^ 64 - ms) = time := by
  unfold wrap64
  omega

theorem Fits.reset {clock now ms : Nat} {from_now : Bool} {timer : Timer Cb} {a : Arming}
    (h : Fits clock timer a) (hclock : clock ≤ now) (hlt : now < 2 ^ 64) (hms : ms < 2 ^ 64)
    : Fits now ({ timer with m_ms := ms, m_next := restart timer ms from_now now } : Timer Cb)
        { time := if from_now then now else a.time, ms := ms } where
  ms := rfl
  next := by
    unfold restart
    dsimp only
    cases from_now with
    | true => simp only [if_true]
    | false =>
      have htime : a.time < 2 ^ 64 := lt_of_le_of_lt (h.time_le.trans hclock) hlt
      simp only [Bool.false_eq_true, if_false]
      rw [h.next, h.ms, wrap64_sub htime h.ms_lt]
  time_le := by
    have := h.time_le
    dsimp only
    split
    . exact le_rfl
    . omega
  ms_lt := hms

structure Armed (clock : Nat) (heap : List (Timer Cb)) (armings : List Arming) : Prop where
  length : armings.length = heap.length
  fits : ∀ (t : Nat) (timer : Timer Cb) (a : Arming), heap[t]? = some timer → armings[t]? = some a
    → Fits clock timer a

namespace Armed

variable {clock now : Nat} {heap heap' : List (Timer Cb)} {armings : List Arming}

theorem mono (h : Armed clock heap armings) (hle : clock ≤ now) : Armed now heap armings where
  length := h.length
  fits := by
    intro t timer a hget ha
    exact (h.fits t timer a hget ha).mono hle

theorem get (h : Armed clock heap armings) {t : Nat} (hlt : t < heap.length)
    : ∃ a, armings[t]? = some a := by
  rw [← h.length] at hlt
  exact ⟨_, List.getElem?_eq_getElem hlt⟩

theorem push (h : Armed clock heap armings) {timer : Timer Cb} {a : Arming} (hfits : Fits clock timer a)
    : Armed clock (heap ++ [timer]) (armings ++ [a]) where
  length := by
    rw [List.length_append, List.length_append, h.length]
    rfl
  fits := by
    intro t x b hx hb
    have hlen := h.length
    by_cases hlt : t < heap.length
    . rw [List.getElem?_append_left hlt] at hx
      rw [List.getElem?_append_left (by omega)] at hb
      exact h.fits t x b hx hb
    . rw [List.getElem?_append_right (by omega)] at hx hb
      rw [hlen] at hb
      rw [List.getElem?_singleton] at hx hb
      split at hx
      . next heq =>
        rw [if_pos heq] at hb
        injection hx with hx
        injection hb with hb
        subst hx hb
        exact hfits
      . cases hx

theorem set (h : Armed clock heap armings) {t : Nat} {timer timer' : Timer Cb} {f : Arming → Arming}
    (hget : heap[t]? = some timer) (hle : clock ≤ now)
    (hfits : ∀ a, Fits clock timer a → Fits now timer' (f a))
    : Armed now (heap.set t timer') (armings.modify t f) where
  length := by
    rw [List.length_modify, List.length_set]
    exact h.length
  fits := by
    intro b x c hx hc
    rw [List.getElem?_modify, Option.map_eq_map, Option.map_eq_some_iff] at hc
    obtain ⟨a, ha, hac⟩ := hc
    rcases heap_set_cases hx with ⟨rfl, rfl⟩ | ⟨hbt, hx⟩
    . rw [if_pos rfl] at hac
      subst hac
      exact hfits a (h.fits t timer a hget ha)
    . rw [if_neg hbt] at hac
      subst hac
      exact (h.fits b x a hx ha).mono hle

theorem expired (h : Armed clock heap armings) (hle : clock ≤ now) {ts : List Nat}
    (hlength : heap'.length = heap.length)
    (hfired : ∀ t ∈ ts, ∀ timer, heap[t]? = some timer → heap'[t]? = some (fired now timer))
    (huntouched : ∀ t, t ∉ ts → heap'[t]? = heap[t]?)
    : Armed now heap' (armings.mapIdx (fun t a =>
        if t ∈ ts ∧ heap[t]?.any Timer.m_recurring then { a with time := now } else a)) where
  length := by
    rw [List.length_mapIdx, h.length, hlength]
  fits := by
    intro t x b hx hb
    rw [List.getElem?_mapIdx, Option.map_eq_some_iff] at hb
    obtain ⟨a, ha, hab⟩ := hb
    have hlt := (List.getElem?_eq_some_iff.mp hx).1
    rw [hlength] at hlt
    have hget := List.getElem?_eq_getElem hlt
    generalize heap[t] = timer at hget
    have hfits := h.fits t timer a hget ha
    by_cases ht : t ∈ ts
    . rw [hfired t ht timer hget] at hx
      injection hx with hx
      unfold fired at hx
      cases hrec : timer.m_recurring with
      | true =>
        rw [if_pos hrec] at hx
        rw [if_pos ⟨ht, by rw [hget]; exact hrec⟩] at hab
        rw [← hx, ← hab]
        exact hfits.rearm
      | false =>
        rw [if_neg (by simp [hrec])] at hx
        rw [if_neg (by simp [hget, hrec])] at hab
        rw [← hx, ← hab]
        exact (hfits.mono hle).clear
    . rw [huntouched t ht, hget] at hx
      injection hx with hx
      rw [if_neg (by simp [ht])] at hab
      rw [← hx, ← hab]
      exact hfits.mono hle

end Armed

structure Scheduled (s : Timed Cb) : Prop where
  inv : Inv s.tm.heap s.tm.m_timers []
  armed : Armed s.clock s.tm.heap s.armings
  previous : s.tm.m_previouseTime ≤ s.clock
  clock_lt : s.clock < 2 ^ 64

section Step

variable {s s' : Timed Cb} {now : Nat}

theorem reset_scheduled (h : Scheduled s) (hclock : s.clock ≤ now) (hlt : now < 2 ^ 64) {t ms : Nat}
    (hms : ms < 2 ^ 64) {from_now ret n : Bool} {tm' : TimerManager Cb}
    (hcall : s.tm.reset t ms from_now now = .ok (tm', ret, n))
    : Armed now tm'.heap (arm s.tm s.armings (.reset t ms from_now now) (.bool ret n))
      ∧ tm'.m_previouseTime = s.tm.m_previouseTime := by
  cases hget : s.tm.heap[t]? with
  | none =>
    unfold reset at hcall
    rw [hget] at hcall
    cases hcall
  | some timer =>
    by_cases hearly : ms = timer.m_ms ∧ from_now = false
    . obtain ⟨rfl, rfl⟩ := hearly
      rw [reset_early hget] at hcall
      injection hcall with hcall
      simp only [Prod.mk.injEq] at hcall
      obtain ⟨rfl, rfl, -⟩ := hcall
      refine ⟨?_, rfl⟩
      have hset := @Armed.set _ s.clock now s.tm.heap s.armings h.armed t timer timer
        (fun a => { time := a.time, ms := timer.m_ms }) hget hclock
        (by
          intro a ha
          rw [ha.ms]
          exact ha.mono hclock)
      obtain ⟨hlt', htimer⟩ := List.getElem?_eq_some_iff.mp hget
      rw [← htimer, List.set_getElem_self hlt', htimer] at hset
      exact hset
    . rw [reset_late hget hearly] at hcall
      cases hcb : timer.m_cb with
      | none =>
        rw [resetLocked_dead hget hcb] at hcall
        injection hcall with hcall
        simp only [Prod.mk.injEq] at hcall
        obtain ⟨rfl, rfl, -⟩ := hcall
        exact ⟨h.armed.mono hclock, rfl⟩
      | some cb =>
        obtain ⟨it, tm1, -, htm1, hreset⟩ :=
          resetLocked_eq h.inv hget (by rw [hcb]; rfl) ms from_now now
        rw [hreset] at hcall
        injection hcall with hcall
        simp only [Prod.mk.injEq] at hcall
        obtain ⟨rfl, rfl, -⟩ := hcall
        rw [htm1]
        refine ⟨?_, rfl⟩
        apply h.armed.set hget hclock
        intro a ha
        exact ha.reset hclock hlt hms

theorem refresh_scheduled (h : Scheduled s) (hclock : s.clock ≤ now) {t : Nat} {ret n : Bool}
    {tm' : TimerManager Cb} (hcall : s.tm.refresh t now = .ok (tm', ret))
    : Armed now tm'.heap (arm s.tm s.armings (.refresh t now) (.bool ret n))
      ∧ tm'.m_previouseTime = s.tm.m_previouseTime := by
  cases hget : s.tm.heap[t]? with
  | none =>
    unfold refresh at hcall
    rw [hget] at hcall
    cases hcall
  | some timer =>
    cases hcb : timer.m_cb with
    | none =>
      rw [refresh_dead hget hcb] at hcall
      injection hcall with hcall
      simp only [Prod.mk.injEq] at hcall
      obtain ⟨rfl, rfl⟩ := hcall
      exact ⟨h.armed.mono hclock, rfl⟩
    | some cb =>
      obtain ⟨it, -, hrefresh⟩ := refresh_eq h.inv hget (by rw [hcb]; rfl) now
      rw [hrefresh] at hcall
      injection hcall with hcall
      simp only [Prod.mk.injEq] at hcall
      obtain ⟨rfl, rfl⟩ := hcall
      refine ⟨?_, rfl⟩
      apply h.armed.set hget hclock
      intro a ha
      exact ha.rearm

theorem cancel_scheduled (h : Scheduled s) {t : Nat} {ret : Bool} {tm' : TimerManager Cb}
    (hcall : s.tm.cancel t = .ok (tm', ret))
    : Armed s.clock tm'.heap s.armings ∧ tm'.m_previouseTime = s.tm.m_previouseTime := by
  rcases cancel_cases hcall with rfl | ⟨timer, it, hget, rfl⟩
  . exact ⟨h.armed, rfl⟩
  . refine ⟨?_, rfl⟩
    have hset := @Armed.set _ s.clock s.clock s.tm.heap s.armings h.armed t timer
      { timer with m_cb := none } id hget le_rfl (fun a ha => ha.clear)
    rw [List.modify_id] at hset
    exact hset

theorem addTimer_scheduled (h : Scheduled s) (hclock : s.clock ≤ now) {addr ms t : Nat}
    (hms : ms < 2 ^ 64) {cb : Cb} {recurring n : Bool} {tm' : TimerManager Cb}
    (hcall : s.tm.addTimer addr ms (some cb) recurring now = .ok (tm', t, n))
    : Armed now tm'.heap (s.armings ++ [{ time := now, ms := ms }])
      ∧ tm'.m_previouseTime = s.tm.m_previouseTime := by
  unfold addTimer at hcall
  split at hcall
  . cases hcall
  . simp only [Except.ok.injEq, Prod.mk.injEq] at hcall
    obtain ⟨rfl, -, -⟩ := hcall
    refine ⟨?_, rfl⟩
    exact (h.armed.mono hclock).push ⟨rfl, rfl, le_rfl, hms⟩

theorem collect_previous (now_ms : Nat) (tm : TimerManager Cb) (expired : List Nat)
    : (collect now_ms tm expired).1.m_previouseTime = tm.m_previouseTime := by
  induction expired generalizing tm with
  | nil => rfl
  | cons t expired ih =>
    unfold collect
    split
    . exact ih tm
    . simp only [ih]
      split
      . rfl
      . rfl

theorem takeExpired_scheduled (h : Scheduled s) (hclock : s.clock ≤ now) {addr : Nat}
    {ts : List Nat} {cbs : List (Option Cb)} {tm' : TimerManager Cb}
    (hcall : s.tm.takeExpired now addr = .ok (tm', ts, cbs))
    : Armed now tm'.heap (arm s.tm s.armings (.listExpiredTimer now addr) (.expired ts cbs))
      ∧ tm'.m_previouseTime = now := by
  constructor
  . apply h.armed.expired hclock
    . rcases (takeExpired_spec h.inv hcall).length with hlen | ⟨_, _, _, _, _, _, _, hc, -⟩
      . exact hlen
      . cases hc
    . intro t ht timer hget
      exact takeExpired_fired h.inv.held hcall ht hget
    . intro t ht
      exact takeExpired_untouched hcall ht
  . rcases takeExpired_cases hcall with ⟨rfl, -, -⟩ | ⟨it, -, hcollect⟩
    . rfl
    . rw [(Prod.mk.inj hcollect).1, collect_previous]
      rfl

theorem callTimed_scheduled {l : Call Cb × Result Cb} (h : Scheduled s) (hticks : Ticks s l)
    (hstep : callTimed s l.1 = .ok (s', l.2)) : Scheduled s' := by
  obtain ⟨⟨tm', r⟩, hcall, heq⟩ := Except.map_eq_ok hstep
  obtain ⟨rfl, hr⟩ := Prod.mk.inj heq
  obtain ⟨c, r'⟩ := l
  obtain rfl : r = r' := hr
  have hinv := (call_spec h.inv hcall).inv
  have hclock := hticks.clock_le
  suffices hcalled : Armed (c.now?.getD s.clock) tm'.heap (arm s.tm s.armings c r)
      ∧ tm'.m_previouseTime ≤ c.now?.getD s.clock by
    exact ⟨hinv, hcalled.1, hcalled.2, hticks.clock_lt⟩
  cases c with
  | addTimer addr ms cb recurring now =>
    obtain ⟨⟨tm1, t, n⟩, hret, heq⟩ := Except.map_eq_ok hcall
    cases heq
    obtain ⟨harmed, hprev⟩ := addTimer_scheduled h hclock (hticks.ms_lt ms rfl) hret
    exact ⟨harmed, hprev.trans_le (h.previous.trans hclock)⟩
  | cancel t =>
    obtain ⟨⟨tm1, ret⟩, hret, heq⟩ := Except.map_eq_ok hcall
    cases heq
    obtain ⟨harmed, hprev⟩ := cancel_scheduled h hret
    exact ⟨harmed, hprev.trans_le h.previous⟩
  | refresh t now =>
    obtain ⟨⟨tm1, ret⟩, hret, heq⟩ := Except.map_eq_ok hcall
    cases heq
    obtain ⟨harmed, hprev⟩ := refresh_scheduled h hclock hret
    exact ⟨harmed, hprev.trans_le (h.previous.trans hclock)⟩
  | reset t ms from_now now =>
    obtain ⟨⟨tm1, ret, n⟩, hret, heq⟩ := Except.map_eq_ok hcall
    cases heq
    obtain ⟨harmed, hprev⟩ := reset_scheduled h hclock hticks.clock_lt (hticks.ms_lt ms rfl) hret
    exact ⟨harmed, hprev.trans_le (h.previous.trans hclock)⟩
  | getNextTimer now =>
    have htm : (s.tm.getNextTimer now).1 = tm' := by
      injection hcall with hcall
      exact (Prod.mk.inj hcall).1
    rw [getNextTimer_fst] at htm
    rw [← htm]
    exact ⟨h.armed.mono hclock, h.previous.trans hclock⟩
  | listExpiredTimer now addr =>
    obtain ⟨⟨tm1, expired, cbs⟩, hret, heq⟩ := Except.map_eq_ok hcall
    cases heq
    rcases listExpiredTimer_cases hret with ⟨-, rfl, rfl, rfl⟩ | hret
    . refine ⟨?_, h.previous.trans hclock⟩
      apply h.armed.expired hclock rfl
      . simp
      . simp
    . obtain ⟨harmed, hprev⟩ := takeExpired_scheduled h hclock hret
      exact ⟨harmed, hprev.le⟩

end Step

def OnTime (s : Timed Cb) (l : Call Cb × Result Cb) : Prop :=
  ∀ now addr ts cbs, l = (.listExpiredTimer now addr, .expired ts cbs)
    → ∀ t ∈ ts, ∃ a, s.armings[t]? = some a ∧ a.time + a.ms ≤ now

-- no pending timer has a sum that is past its end and comes round before the time of the call
def NoWrapDue (s : Timed Cb) (l : Call Cb × Result Cb) : Prop :=
  ∀ now addr, l.1 = .listExpiredTimer now addr
    → ∀ t ∈ s.tm.m_timers, ∀ a, s.armings[t]? = some a → 2 ^ 64 ≤ a.time + a.ms
      → now < a.time + a.ms - 2 ^ 64

theorem mem_expired_iff {s : Timed Cb} (h : Scheduled s) {now addr : Nat} (hclock : s.clock ≤ now)
    {tm' : TimerManager Cb} {ts : List Nat} {cbs : List (Option Cb)}
    (hcall : s.tm.listExpiredTimer now addr = .ok (tm', ts, cbs)) (t : Nat)
    : t ∈ ts ↔ t ∈ s.tm.m_timers
        ∧ ∃ timer : Timer Cb, s.tm.heap[t]? = some timer ∧ timer.m_next ≤ now := by
  rcases listExpiredTimer_cases hcall with ⟨hempty, -, rfl, -⟩ | hcall
  . rw [hempty]
    simp
  . have hroll : (s.tm.detectClockRollover now).2 = false := by
      have := h.previous
      unfold detectClockRollover
      simp only [Bool.and_eq_false_iff, decide_eq_false_iff_not]
      left
      omega
    rw [mem_takeExpired_iff h.inv.held hcall]
    unfold Due
    simp [hroll]

theorem onTime_iff {s s' : Timed Cb} {l : Call Cb × Result Cb} (h : Scheduled s)
    (hstep : (timed Cb).step s l s') : OnTime s l ↔ NoWrapDue s l := by
  obtain ⟨hticks, hstep⟩ := hstep
  obtain ⟨⟨tm', r⟩, hcall, heq⟩ := Except.map_eq_ok hstep
  obtain ⟨-, hr⟩ := Prod.mk.inj heq
  obtain ⟨c, r'⟩ := l
  obtain rfl : r = r' := hr
  unfold OnTime NoWrapDue
  cases c with
  | listExpiredTimer now addr =>
    obtain ⟨⟨tm1, ts, cbs⟩, hret, heq⟩ := Except.map_eq_ok hcall
    cases heq
    have hclock : s.clock ≤ now := hticks.clock_le
    have hlt : now < 2 ^ 64 := hticks.clock_lt
    have hmem := mem_expired_iff h hclock hret
    constructor
    . intro hontime now' addr' heq t ht a ha hwrap
      injection heq with hnow haddr
      subst hnow haddr
      obtain ⟨timer, hget⟩ : ∃ timer, s.tm.heap[t]? = some timer :=
        ⟨_, List.getElem?_eq_getElem (h.inv.lt_length t (.inl ht))⟩
      have hfits := h.armed.fits t timer a hget ha
      rw [← Nat.not_le]
      intro hcontra
      have hnext : timer.m_next ≤ now := by
        have := hfits.time_le
        have := hfits.ms_lt
        rw [hfits.next]
        unfold wrap64
        omega
      obtain ⟨b, hb, hle⟩ := hontime now addr ts cbs rfl t ((hmem t).mpr ⟨ht, _, hget, hnext⟩)
      rw [ha] at hb
      injection hb with hb
      subst hb
      omega
    . intro hnowrap now' addr' ts' cbs' heq t ht
      injection heq with heq hres
      injection heq with hnow haddr
      injection hres with hts hcbs
      subst hnow haddr hts hcbs
      obtain ⟨htimers, timer, hget, hnext⟩ := (hmem t).mp ht
      obtain ⟨a, ha⟩ := h.armed.get (List.getElem?_eq_some_iff.mp hget).1
      refine ⟨a, ha, ?_⟩
      have hfits := h.armed.fits t timer a hget ha
      have hclear := hnowrap now addr rfl t htimers a ha
      have := hfits.time_le
      have := hfits.ms_lt
      rw [hfits.next] at hnext
      unfold wrap64 at hnext
      omega
  | _ => simp

theorem noWrapDue_of_small {s : Timed Cb} {l : Call Cb × Result Cb}
    (h : ∀ a ∈ s.armings, a.time + a.ms < 2 ^ 64) : NoWrapDue s l := by
  intro now addr _ t _ a ha hwrap
  have := h a (List.mem_of_getElem? ha)
  omega

theorem scheduled_start {now : Nat} (hnow : now < 2 ^ 64) : Scheduled (.start now : Timed Cb) where
  inv := inv_nil
  armed := ⟨rfl, by simp [Timed.start, new]⟩
  previous := le_rfl
  clock_lt := hnow

theorem run_onTime_iff {now : Nat} (hnow : now < 2 ^ 64) (trace : Trace Cb) (s : Timed Cb)
    : ((timed Cb).restrict OnTime).Run (.start now) trace s
      ↔ ((timed Cb).restrict NoWrapDue).Run (.start now) trace s := by
  apply LTS.Run.restrict_congr _ _ (scheduled_start hnow)
  . intro s l s' hs hstep
    exact callTimed_scheduled hs hstep.1 hstep.2
  . intro s l s' hs hstep
    exact onTime_iff hs hstep

theorem run_onTime_iff_recurring
    : let trace : Trace Nat :=
        [
          (.addTimer 8 50 1 true 10, .timer 0 true),
          (.listExpiredTimer 70 16, .expired [0] [some 1]),
          (.listExpiredTimer 90 16, .expired [] [])
        ]
      ∃ s, ((timed Nat).restrict OnTime).Run (.start 0) trace s := by
  intro trace
  have hrun : ∃ s, ((timed Nat).restrict NoWrapDue).Run (.start 0) trace s := by
    refine LTS.Run.exists_cons ⟨?_, ⟨by decide, by decide, by decide⟩, rfl⟩ ?_
    . intro now addr heq
      cases heq
    refine LTS.Run.exists_cons ⟨?_, ⟨by decide, by decide, by decide⟩, rfl⟩ ?_
    . exact noWrapDue_of_small (by decide)
    refine LTS.Run.exists_cons ⟨?_, ⟨by decide, by decide, by decide⟩, rfl⟩ ?_
    . exact noWrapDue_of_small (by decide)
    exact ⟨_, .nil _⟩
  obtain ⟨s, hrun⟩ := hrun
  exact ⟨s, (run_onTime_iff (by decide) trace s).mpr hrun⟩

theorem negative_timeout_collected_at_once
    : let trace : Trace Nat :=
        [
          (.addTimer 8 (2 ^ 64 - 2) 1 false 1700000000000, .timer 0 true),
          (.listExpiredTimer 1700000000000 16, .expired [0] [some 1])
        ]
      ∃ s, (timed Nat).Run (.start 1700000000000) trace s
        ∧ ¬((timed Nat).restrict OnTime).Run (.start 1700000000000) trace s := by
  intro trace
  have hrun : ∃ s, (timed Nat).Run (.start 1700000000000) trace s := by
    refine LTS.Run.exists_cons ⟨⟨by decide, by decide, by decide⟩, rfl⟩ ?_
    refine LTS.Run.exists_cons ⟨⟨by decide, by decide, by decide⟩, rfl⟩ ?_
    exact ⟨_, .nil _⟩
  obtain ⟨s, hrun⟩ := hrun
  refine ⟨s, hrun, ?_⟩
  intro hcontra
  unfold trace at hcontra
  cases hcontra with
  | cons hfst hrest =>
    cases hfst.2.2
    cases hrest with
    | cons hsnd _ =>
      obtain ⟨a, ha, hle⟩ := hsnd.1 _ _ _ _ rfl 0 (by simp)
      cases ha
      simp at hle

end TimerManager
end CXS
