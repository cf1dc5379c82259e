import CXS.Timer.Run

/-!
This module contains the calls of `TimerManager` by several threads, where what a thread does under
one acquisition of `m_mutex` is one step. `listExpiredTimer` reads the clock, looks whether the set is
empty under a read lock, lets go of the lock and takes the expired timers under a write lock. The
other calls are one section each.
-/

namespace CXS
namespace TimerManager

variable {Cb : Type}

-- where a thread is in `listExpiredTimer`
inductive ListPc where
  | out
  | entered (now_ms : Nat)
  | checked (now_ms : Nat)
  deriving DecidableEq, Repr

structure Threads (Cb : Type) where
  tm : TimerManager Cb
  pc : Nat → ListPc

inductive Section (Cb : Type) where
  | call (c : Call Cb)
  | readClock (th now_ms : Nat)
  | check (th : Nat)
  | take (th now_ms addr : Nat)
  deriving DecidableEq, Repr

inductive Outcome (Cb : Type) where
  | call (r : Result Cb)
  | silent
  | derefEnd
  deriving DecidableEq, Repr

def callLocked (tm : TimerManager Cb) : Call Cb → Option (Except Fault (TimerManager Cb × Result Cb))
  | .listExpiredTimer _ _ => none
  | .reset t ms from_now now =>
    some ((tm.resetLocked t ms from_now now).map fun (tm, b, n) => (tm, .bool b n))
  | c => some (tm.call c)

namespace Threads

def setPc (s : Threads Cb) (th : Nat) (pc : ListPc) : Threads Cb :=
  { s with pc := fun i => if i = th then pc else s.pc i }

@[simp]
theorem setPc_tm (s : Threads Cb) (th : Nat) (pc : ListPc) : (s.setPc th pc).tm = s.tm := rfl

def start (now : Nat) : Threads Cb where
  tm := new now
  pc _ := .out

end Threads

inductive Step : Threads Cb → Section Cb × Outcome Cb → Threads Cb → Prop where
  | call {s : Threads Cb} {tm' : TimerManager Cb} {c : Call Cb} {r : Result Cb}
    (h : s.tm.callLocked c = some (.ok (tm', r)))
    : Step s (.call c, .call r) { s with tm := tm' }
  | readClock {s : Threads Cb} {th : Nat} (now_ms : Nat) (hpc : s.pc th = .out)
    : Step s (.readClock th now_ms, .silent) (s.setPc th (.entered now_ms))
  | checkEmpty {s : Threads Cb} {th now_ms : Nat} (hpc : s.pc th = .entered now_ms)
    (hempty : s.tm.m_timers.isEmpty = true)
    : Step s (.check th, .call (.expired [] [])) (s.setPc th .out)
  | checkPass {s : Threads Cb} {th now_ms : Nat} (hpc : s.pc th = .entered now_ms)
    (hempty : s.tm.m_timers.isEmpty = false)
    : Step s (.check th, .silent) (s.setPc th (.checked now_ms))
  | take {s : Threads Cb} {tm' : TimerManager Cb} {th now_ms : Nat} {addr : Nat} {ts : List Nat}
    {cbs : List (Option Cb)} (hpc : s.pc th = .checked now_ms)
    (h : s.tm.takeExpired now_ms addr = .ok (tm', ts, cbs))
    : Step s (.take th now_ms addr, .call (.expired ts cbs)) ({ s with tm := tm' }.setPc th .out)
  | takeFault {s : Threads Cb} {th now_ms : Nat} {addr : Nat} (hpc : s.pc th = .checked now_ms)
    (h : s.tm.takeExpired now_ms addr = .error .derefEnd)
    : Step s (.take th now_ms addr, .derefEnd) (s.setPc th .out)

def sections (Cb : Type) : LTS (Threads Cb) (Section Cb × Outcome Cb) where
  step := Step

def calls (trace : List (Section Cb × Outcome Cb)) : Trace Cb :=
  trace.filterMap fun
    | (.call c, .call r) => some (c, r)
    | (.take _ now_ms addr, .call r) => some (.listExpiredTimer now_ms addr, r)
    | _ => none

def TakesFromSet (s : Threads Cb) : Section Cb × Outcome Cb → Prop
  | (.take _ now_ms _, _) =>
    s.tm.m_timers ≠ [] ∨ (s.tm.detectClockRollover now_ms).2 = true
  | _ => True

section Take

variable {tm tm' : TimerManager Cb} {now_ms addr : Nat}

theorem takeExpired_eq_error_iff (h : Inv tm.heap tm.m_timers [])
    : tm.takeExpired now_ms addr = .error .derefEnd
      ↔ tm.m_timers = [] ∧ (tm.detectClockRollover now_ms).2 = false := by
  have hheap : (tm.detectClockRollover now_ms).1.heap = tm.heap := rfl
  have htimers : (tm.detectClockRollover now_ms).1.m_timers = tm.m_timers := rfl
  unfold takeExpired
  generalize tm.detectClockRollover now_ms = res at hheap htimers
  obtain ⟨tm₁, rollover⟩ := res
  dsimp only at hheap htimers
  dsimp only
  rw [hheap, htimers]
  cases htm : tm.m_timers with
  | nil => cases rollover <;> simp
  | cons t ts =>
    have hmem : t ∈ tm.m_timers := by
      rw [htm]
      exact List.mem_cons_self
    rw [List.head?_cons, Option.bind_some,
      List.getElem?_eq_getElem (h.lt_length t (.inl hmem))]
    dsimp only
    split <;> simp

end Take

theorem callLocked_spec {tm tm' : TimerManager Cb} {c : Call Cb} {r : Result Cb}
    (h : Inv tm.heap tm.m_timers []) (hcall : tm.callLocked c = some (.ok (tm', r)))
    : CallSpec tm c tm' r := by
  cases c with
  | listExpiredTimer now addr => cases hcall
  | reset t ms from_now now =>
    injection hcall with hcall
    obtain ⟨⟨tm1, ret, n⟩, hret, heq⟩ := Except.map_eq_ok hcall
    cases heq
    exact resetLocked_spec h hret
  | _ =>
    injection hcall with hcall
    exact call_spec h hcall

def Call.touches (t : Nat) : Call Cb → Bool
  | .cancel a => a == t
  | .refresh a _ => a == t
  | .reset a _ _ _ => a == t
  | _ => false

theorem callLocked_untouched {tm tm' : TimerManager Cb} {c : Call Cb} {r : Result Cb} {t : Nat}
    (hcall : tm.callLocked c = some (.ok (tm', r))) (ht : t < tm.heap.length)
    (htouches : c.touches t = false) : tm'.heap[t]? = tm.heap[t]? := by
  have hset : ∀ {a : Nat} (timer : Timer Cb), (a == t) = false
      → (tm.heap.set a timer)[t]? = tm.heap[t]? := by
    intro a timer ha
    exact List.getElem?_set_ne (by simpa using ha)
  cases c with
  | listExpiredTimer now addr => cases hcall
  | addTimer addr ms cb recurring now =>
    injection hcall with hcall
    obtain ⟨⟨tm1, a, n⟩, hret, heq⟩ := Except.map_eq_ok hcall
    cases heq
    unfold addTimer at hret
    split at hret
    . cases hret
    . simp only [Except.ok.injEq, Prod.mk.injEq] at hret
      obtain ⟨rfl, -, -⟩ := hret
      exact List.getElem?_append_left ht
  | cancel a =>
    injection hcall with hcall
    obtain ⟨⟨tm1, ret⟩, hret, heq⟩ := Except.map_eq_ok hcall
    cases heq
    rcases cancel_cases hret with rfl | ⟨timer, it, -, rfl⟩
    . rfl
    . exact hset _ htouches
  | refresh a now =>
    injection hcall with hcall
    obtain ⟨⟨tm1, ret⟩, hret, heq⟩ := Except.map_eq_ok hcall
    cases heq
    rcases refresh_cases hret with rfl | ⟨timer, it, -, -, -, rfl⟩
    . rfl
    . exact hset _ htouches
  | reset a ms from_now now =>
    injection hcall with hcall
    obtain ⟨⟨tm1, ret, n⟩, hret, heq⟩ := Except.map_eq_ok hcall
    cases heq
    rcases resetLocked_cases hret with rfl | ⟨timer, it, start, -, -, -, -, hinsert⟩
    . rfl
    . rw [(Prod.mk.inj hinsert).1]
      exact hset _ htouches
  | getNextTimer now =>
    injection hcall with hcall
    have heq : (tm.getNextTimer now).1 = tm' := by
      injection hcall with hcall
      exact (Prod.mk.inj hcall).1
    rw [← heq, getNextTimer_fst]

section Run

variable {s s' : Threads Cb} {trace : List (Section Cb × Outcome Cb)} {l : Section Cb × Outcome Cb}

theorem calls_snoc : calls (trace ++ [l]) = calls trace ++ calls [l] := by
  unfold calls
  rw [List.filterMap_append]

theorem step_inv (h : Inv s.tm.heap s.tm.m_timers []) (hstep : (sections Cb).step s l s')
    : Inv s'.tm.heap s'.tm.m_timers [] := by
  cases hstep with
  | call hcall => exact (callLocked_spec h hcall).inv
  | take hpc htake => exact (takeExpired_spec h htake).inv
  | _ => exact h

theorem section_history (h : History (calls trace) s.tm) (hstep : Step s l s')
    : History (calls (trace ++ [l])) s'.tm := by
  rw [calls_snoc]
  cases hstep with
  | call hcall => exact history_snoc h (callLocked_spec h.inv hcall)
  | take hpc htake => exact history_snoc h (takeExpired_spec h.inv htake)
  | _ =>
    have hnil : ∀ trace : Trace Cb, trace ++ [] = trace := List.append_nil
    rw [← hnil (calls trace)] at h
    exact h

theorem run_section_history {now : Nat} (h : (sections Cb).Run (.start now) trace s)
    : History (calls trace) s.tm := by
  have hstep : ∀ pre s l t, History (calls pre) s.tm → (sections Cb).step s l t
      → History (calls (pre ++ [l])) t.tm := by
    intro pre s l t hs hstep
    exact section_history hs hstep
  have hnil : History (calls []) (Threads.start now : Threads Cb).tm := history_nil now
  exact h.history hstep hnil

theorem run_takesFromSet_iff {now : Nat} (h : (sections Cb).Run (.start now) trace s)
    : ((sections Cb).restrict TakesFromSet).Run (.start now) trace s
      ↔ ∀ l ∈ trace, l.2 ≠ .derefEnd := by
  apply h.restrict_iff (fun _ _ _ => step_inv) _ inv_nil
  intro s l t hs hstep
  cases hstep with
  | take hpc htake =>
    simp only [TakesFromSet, ne_eq, reduceCtorEq, not_false_eq_true, iff_true]
    by_contra hcontra
    rw [not_or, not_not, Bool.not_eq_true, ← takeExpired_eq_error_iff hs, htake] at hcontra
    cases hcontra
  | takeFault hpc htake =>
    rw [takeExpired_eq_error_iff hs] at htake
    simp [TakesFromSet, htake.1, htake.2]
  | _ => simp [TakesFromSet]

-- a timer that is due at `now_ms`, until a section takes it
def Pending (t now_ms : Nat) (trace : List (Section Cb × Outcome Cb)) (s : Threads Cb) : Prop :=
  (t ∉ collected (calls trace) ∧ ∃ timer : Timer Cb, s.tm.heap[t]? = some timer
      ∧ timer.m_cb.isSome = true ∧ timer.m_recurring = false ∧ timer.m_next ≤ now_ms)
    ∨ ((collected (calls trace)).count t = 1
        ∧ ∃ timer : Timer Cb, s.tm.heap[t]? = some timer ∧ timer.m_cb = none)

theorem collected_calls_snoc
    : collected (calls (trace ++ [l])) = collected (calls trace) ++ collected (calls [l]) := by
  rw [calls_snoc]
  unfold collected
  rw [List.flatMap_append]

theorem Pending.of_spec {t now_ms : Nat} {c : Call Cb} {r : Result Cb}
    (h : Pending t now_ms trace s) (hinv : Inv s.tm.heap s.tm.m_timers [])
    (hspec : CallSpec s.tm c s'.tm r) (hl : calls [l] = [(c, r)])
    (huntouched : t ∉ r.timers → t < s.tm.heap.length → s'.tm.heap[t]? = s.tm.heap[t]?)
    : Pending t now_ms (trace ++ [l]) s' := by
  have hnew : collected (calls [l]) = r.timers := by
    rw [hl]
    exact List.append_nil _
  obtain ⟨hnodup, hmem, hdone⟩ := hspec.timers
  rcases h with ⟨hnot, timer, hget, hcb, hrec, hle⟩ | ⟨hcount, timer, hget, hcb⟩
  . by_cases ht : t ∈ r.timers
    . right
      obtain ⟨timer', hget', hrec', -⟩ := hspec.frame t timer hget
      rw [hrec] at hrec'
      refine ⟨?_, timer', hget', hdone t ht timer' hget' hrec'⟩
      rw [collected_calls_snoc, List.count_append, hnew, List.count_eq_zero_of_not_mem hnot,
        List.count_eq_one_of_mem hnodup ht]
    . left
      have hlt := (List.getElem?_eq_some_iff.mp hget).1
      refine ⟨?_, timer, ?_, hcb, hrec, hle⟩
      . rw [collected_calls_snoc, List.mem_append, hnew, not_or]
        exact ⟨hnot, ht⟩
      . rw [huntouched ht hlt]
        exact hget
  . right
    refine ⟨?_, hspec.frame.dead hget hcb⟩
    have ht : t ∉ r.timers := by
      intro ht
      have halive := (hinv.mem_iff t timer hget).mp (.inl (hmem t ht))
      rw [hcb] at halive
      cases halive
    rw [collected_calls_snoc, List.count_append, hnew, hcount, List.count_eq_zero_of_not_mem ht]

theorem Pending.step {t now_ms : Nat} (h : Pending t now_ms trace s)
    (hinv : Inv s.tm.heap s.tm.m_timers []) (hstep : Step s l s')
    (htouches : ∀ c, l.1 = .call c → c.touches t = false) : Pending t now_ms (trace ++ [l]) s' := by
  cases hstep with
  | call hcall =>
    apply h.of_spec hinv (callLocked_spec hinv hcall) rfl
    intro _ hlt
    exact callLocked_untouched hcall hlt (htouches _ rfl)
  | take hpc htake =>
    apply h.of_spec hinv (takeExpired_spec hinv htake) rfl
    intro ht _
    exact takeExpired_untouched htake ht
  | _ =>
    unfold Pending
    rw [collected_calls_snoc]
    simp only [calls, List.filterMap_cons, List.filterMap_nil, collected, List.flatMap_nil,
      List.append_nil]
    exact h

theorem run_pending {t now_ms : Nat} {mid : List (Section Cb × Outcome Cb)}
    (h : (sections Cb).Run s mid s') (hinv : Inv s.tm.heap s.tm.m_timers [])
    (hpending : Pending t now_ms [] s)
    (htouches : ∀ c o, (.call c, o) ∈ mid → c.touches t = false)
    : Inv s'.tm.heap s'.tm.m_timers [] ∧ Pending t now_ms mid s' := by
  let I : List (Section Cb × Outcome Cb) → Threads Cb → Prop := fun pre u =>
    Inv u.tm.heap u.tm.m_timers []
      ∧ ((∀ c o, (.call c, o) ∈ pre → c.touches t = false) → Pending t now_ms pre u)
  have hstep : ∀ pre u l v, I pre u → (sections Cb).step u l v → I (pre ++ [l]) v := by
    intro pre u l v hI hstep
    refine ⟨step_inv hI.1 hstep, ?_⟩
    intro hall
    have hpre := hI.2 (fun c o hmem => hall c o (List.mem_append_left _ hmem))
    apply hpre.step hI.1 hstep
    intro c hc
    apply hall c l.2
    rw [← hc]
    simp
  have hnil : I [] s := ⟨hinv, fun _ => hpending⟩
  have hend := h.history hstep hnil
  exact ⟨hend.1, hend.2 htouches⟩

end Run

/--
What the sections of a run do with the timers that are due: none of them looks at the first timer of
an empty set, each one takes exactly the timers that are due at its time and starts the recurring ones
again, no other timer is taken twice, and one that is due at the time of a call is taken by that call
or by one that came before it.
-/
structure CollectsOnce (now : Nat) (trace : List (Section Cb × Outcome Cb)) (s : Threads Cb)
    : Prop where
  no_deref : ∀ l ∈ trace, l.2 ≠ .derefEnd
  due : ∀ pre th now_ms addr ts cbs post s₁ s₂,
    trace = pre ++ (.take th now_ms addr, .call (.expired ts cbs)) :: post
      → (sections Cb).Run (.start now) pre s₁
      → (sections Cb).step s₁ (.take th now_ms addr, .call (.expired ts cbs)) s₂
      → ts.Nodup ∧ (∀ t, t ∈ ts ↔ t ∈ s₁.tm.m_timers ∧ Due s₁.tm now_ms t)
        ∧ (∀ t ∈ ts, ∀ timer : Timer Cb, s₁.tm.heap[t]? = some timer → timer.m_recurring = true
            → s₂.tm.heap[t]? = some { timer with m_next := wrap64 (now_ms + timer.m_ms) })
  once : ∀ t timer, s.tm.heap[t]? = some timer → timer.m_recurring = false
    → (collected (calls trace)).count t ≤ 1
  one : ∀ pre mid post th now_ms addr o s₁ s₂ s₃ t timer,
    trace = pre ++ (mid ++ (.take th now_ms addr, o) :: post)
      → (sections Cb).Run (.start now) pre s₁ → (sections Cb).Run s₁ mid s₂
      → (sections Cb).step s₂ (.take th now_ms addr, o) s₃
      → t ∈ s₁.tm.m_timers → s₁.tm.heap[t]? = some timer → timer.m_recurring = false
      → timer.m_next ≤ now_ms → (∀ c o, (.call c, o) ∈ mid → c.touches t = false)
      → (collected (calls (mid ++ [(.take th now_ms addr, o)]))).count t = 1

theorem run_collects_once_iff {now : Nat} {trace : List (Section Cb × Outcome Cb)} {s : Threads Cb}
    (h : (sections Cb).Run (.start now) trace s)
    : ((sections Cb).restrict TakesFromSet).Run (.start now) trace s
      ↔ CollectsOnce now trace s := by
  rw [run_takesFromSet_iff h]
  constructor
  . intro hderef
    constructor
    . exact hderef
    . intro pre th now_ms addr ts cbs post s₁ s₂ heq hrun hstep
      have hinv := (run_section_history hrun).inv
      cases hstep with
      | take hpc htake =>
        refine ⟨((takeExpired_spec hinv htake).expired ts cbs rfl).1, ?_, ?_⟩
        . exact mem_takeExpired_iff hinv.held htake
        . intro t ht timer hget hrec
          have hfired := takeExpired_fired hinv.held htake ht hget
          unfold fired at hfired
          rw [if_pos hrec] at hfired
          exact hfired
    . intro t timer hget hrec
      exact ((run_section_history h).once t timer hget hrec).1
    . intro pre mid post th now_ms addr o s₁ s₂ s₃ t timer heq hrun hmid hstep ht hget hrec hle
        htouches
      have hinv := (run_section_history hrun).inv
      have hcb := (hinv.mem_iff t timer hget).mp (.inl ht)
      have hstart : Pending t now_ms [] s₁ := by
        left
        exact ⟨by simp [calls, collected], timer, hget, hcb, hrec, hle⟩
      obtain ⟨hinv₂, hpending⟩ := run_pending hmid hinv hstart htouches
      have hderef : o ≠ .derefEnd := by
        apply hderef (.take th now_ms addr, o)
        rw [heq]
        simp
      have hnext := hpending.step hinv₂ hstep (by simp)
      have hmem : t ∈ collected (calls (mid ++ [(.take th now_ms addr, o)])) := by
        rw [collected_calls_snoc, List.mem_append]
        rcases hpending with ⟨-, timer₂, hget₂, hcb₂, -, hle₂⟩ | ⟨hcount, -⟩
        . right
          cases hstep with
          | take hpc htake =>
            have hset : t ∈ s₂.tm.m_timers := by
              simpa using (hinv₂.mem_iff t timer₂ hget₂).mpr hcb₂
            have hts := (mem_takeExpired_iff hinv₂.held htake t).mpr ⟨hset, .inr ⟨timer₂, hget₂, hle₂⟩⟩
            simpa [calls, collected, Result.timers] using hts
          | takeFault hpc htake => exact absurd rfl hderef
        . left
          rw [← List.count_pos_iff, hcount]
          exact Nat.one_pos
      rcases hnext with ⟨hnot, -⟩ | ⟨hcount, -⟩
      . exact absurd hmem hnot
      . exact hcount
  . intro hcollects
    exact hcollects.no_deref

theorem run_collects_once_iff_two_callers
    : let trace : List (Section Nat × Outcome Nat) :=
        [
          (.call (.addTimer 8 50 1 false 0), .call (.timer 0 true)),
          (.call (.addTimer 16 90 2 false 0), .call (.timer 1 false)),
          (.readClock 0 60, .silent),
          (.readClock 1 60, .silent),
          (.check 0, .silent),
          (.check 1, .silent),
          (.take 0 60 24, .call (.expired [0] [some 1])),
          (.take 1 60 32, .call (.expired [] []))
        ]
      ∃ s, (sections Nat).Run (.start 0) trace s ∧ CollectsOnce 0 trace s := by
  intro trace
  have hrun : ∃ s, ((sections Nat).restrict TakesFromSet).Run (.start 0) trace s := by
    refine LTS.Run.exists_cons ⟨trivial, Step.call rfl⟩ ?_
    refine LTS.Run.exists_cons ⟨trivial, Step.call rfl⟩ ?_
    refine LTS.Run.exists_cons ⟨trivial, Step.readClock 60 rfl⟩ ?_
    refine LTS.Run.exists_cons ⟨trivial, Step.readClock 60 rfl⟩ ?_
    refine LTS.Run.exists_cons ⟨trivial, Step.checkPass rfl rfl⟩ ?_
    refine LTS.Run.exists_cons ⟨trivial, Step.checkPass rfl rfl⟩ ?_
    refine LTS.Run.exists_cons ⟨.inl (by decide), Step.take rfl rfl⟩ ?_
    refine LTS.Run.exists_cons ⟨.inl (by decide), Step.take rfl rfl⟩ ?_
    exact ⟨_, .nil _⟩
  obtain ⟨s, hrun⟩ := hrun
  have hsections := hrun.of_restrict
  exact ⟨s, hsections, (run_collects_once_iff hsections).mp hrun⟩

theorem two_callers_deref_end
    : let trace : List (Section Nat × Outcome Nat) :=
        [
          (.call (.addTimer 8 50 1 false 0), .call (.timer 0 true)),
          (.readClock 0 60, .silent),
          (.readClock 1 60, .silent),
          (.check 0, .silent),
          (.check 1, .silent),
          (.take 0 60 24, .call (.expired [0] [some 1])),
          (.take 1 60 32, .derefEnd)
        ]
      ∃ s, (sections Nat).Run (.start 0) trace s ∧ ¬CollectsOnce 0 trace s := by
  intro trace
  have hrun : ∃ s, (sections Nat).Run (.start 0) trace s := by
    refine LTS.Run.exists_cons (Step.call rfl) ?_
    refine LTS.Run.exists_cons (Step.readClock 60 rfl) ?_
    refine LTS.Run.exists_cons (Step.readClock 60 rfl) ?_
    refine LTS.Run.exists_cons (Step.checkPass rfl rfl) ?_
    refine LTS.Run.exists_cons (Step.checkPass rfl rfl) ?_
    refine LTS.Run.exists_cons (Step.take rfl rfl) ?_
    refine LTS.Run.exists_cons (Step.takeFault rfl rfl) ?_
    exact ⟨_, .nil _⟩
  obtain ⟨s, hrun⟩ := hrun
  refine ⟨s, hrun, ?_⟩
  intro hcollects
  exact hcollects.no_deref (.take 1 60 32, .derefEnd) (by simp [trace]) rfl

end TimerManager
end CXS
