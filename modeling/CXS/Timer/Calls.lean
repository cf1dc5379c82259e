import CXS.Timer.Expired

namespace CXS
namespace TimerManager

variable {Cb : Type}

def Frame (heap heap' : List (Timer Cb)) : Prop :=
  ∀ (t : Nat) (timer : Timer Cb), heap[t]? = some timer
    → ∃ timer' : Timer Cb, heap'[t]? = some timer' ∧ timer'.m_recurring = timer.m_recurring
      ∧ (timer'.m_cb = timer.m_cb ∨ timer'.m_cb = none)

namespace Frame

variable {heap heap' heap'' : List (Timer Cb)} {t : Nat} {timer timer' : Timer Cb}

theorem refl (heap : List (Timer Cb)) : Frame heap heap := by
  intro t timer ht
  exact ⟨timer, ht, rfl, .inl rfl⟩

theorem trans (h : Frame heap heap') (h' : Frame heap' heap'') : Frame heap heap'' := by
  intro t timer ht
  obtain ⟨timer', ht', hrec, hcb⟩ := h t timer ht
  obtain ⟨timer'', ht'', hrec', hcb'⟩ := h' t timer' ht'
  refine ⟨timer'', ht'', hrec'.trans hrec, ?_⟩
  rcases hcb' with hcb' | hcb'
  . rw [hcb']
    exact hcb
  . exact .inr hcb'

theorem set (ht : heap[t]? = some timer) (hrec : timer'.m_recurring = timer.m_recurring)
    (hcb : timer'.m_cb = timer.m_cb ∨ timer'.m_cb = none) : Frame heap (heap.set t timer') := by
  intro a x hx
  by_cases hat : t = a
  . subst hat
    rw [ht] at hx
    injection hx with hx
    subst hx
    refine ⟨timer', ?_, hrec, hcb⟩
    rw [List.getElem?_set_self (List.getElem?_eq_some_iff.mp ht).1]
  . refine ⟨x, ?_, rfl, .inl rfl⟩
    rw [List.getElem?_set_ne hat]
    exact hx

theorem push (heap : List (Timer Cb)) (timer : Timer Cb) : Frame heap (heap ++ [timer]) := by
  intro a x hx
  refine ⟨x, ?_, rfl, .inl rfl⟩
  rw [List.getElem?_append_left (List.getElem?_eq_some_iff.mp hx).1]
  exact hx

theorem dead (h : Frame heap heap') (ht : heap[t]? = some timer) (hcb : timer.m_cb = none)
    : ∃ timer' : Timer Cb, heap'[t]? = some timer' ∧ timer'.m_cb = none := by
  obtain ⟨timer', ht', -, hcb'⟩ := h t timer ht
  rw [hcb, or_self] at hcb'
  exact ⟨timer', ht', hcb'⟩

end Frame

/--
Everything a call that returns `r` can do to the timers.
-/
structure CallSpec (tm : TimerManager Cb) (c : Call Cb) (tm' : TimerManager Cb) (r : Result Cb)
    : Prop where
  inv : Inv tm'.heap tm'.m_timers []
  frame : Frame tm.heap tm'.heap
  length : tm'.heap.length = tm.heap.length ∨ ∃ addr ms cb recurring now n timer,
    c = .addTimer addr ms cb recurring now ∧ r = .timer tm.heap.length n
      ∧ tm'.heap = tm.heap ++ [timer] ∧ timer.m_cb = some cb
  cancelled : ∀ t n, c = .cancel t → r = .bool true n
    → ∃ timer : Timer Cb, tm'.heap[t]? = some timer ∧ timer.m_cb = none
  expired : ∀ ts cbs, r = .expired ts cbs
    → ts.Nodup ∧ (∀ t ∈ ts, t ∈ tm.m_timers)
      ∧ (∀ t ∈ ts, ∀ timer : Timer Cb, tm'.heap[t]? = some timer → timer.m_recurring = false
          → timer.m_cb = none)
      ∧ cbs = ts.map (fun t => tm.heap[t]?.bind Timer.m_cb)

section Calls

variable {tm tm' : TimerManager Cb} {t : Nat}

theorem insertTimer_inv (h : Inv tm.heap tm.m_timers [t])
    : Inv (tm.insertTimer t).1.heap (tm.insertTimer t).1.m_timers [] :=
  h.insert

@[simp]
theorem insertTimer_heap : (tm.insertTimer t).1.heap = tm.heap := rfl

theorem addTimer_spec (h : Inv tm.heap tm.m_timers []) {addr ms now : Nat} {cb : Cb}
    {recurring n : Bool} (hcall : tm.addTimer addr ms (some cb) recurring now = .ok (tm', t, n))
    : CallSpec tm (.addTimer addr ms cb recurring now) tm' (.timer t n) := by
  unfold addTimer at hcall
  split at hcall
  . cases hcall
  . next haddr =>
    simp only [Except.ok.injEq, Prod.mk.injEq] at hcall
    obtain ⟨rfl, rfl, rfl⟩ := hcall
    constructor
    . apply insertTimer_inv
      apply h.push rfl
      intro a x ha hx heq
      apply haddr
      rw [List.any_eq_true]
      refine ⟨a, ha, ?_⟩
      rw [hx]
      simpa using heq
    . exact Frame.push _ _
    . right
      exact ⟨addr, ms, cb, recurring, now, _, _, rfl, rfl, rfl, rfl⟩
    . intro t n hc
      cases hc
    . intro ts cbs hr
      cases hr

theorem cancel_eq (h : Inv tm.heap tm.m_timers []) {timer : Timer Cb}
    (ht : tm.heap[t]? = some timer) (hcb : timer.m_cb.isSome = true)
    : ∃ it, tm.m_timers[it]? = some t
      ∧ tm.cancel t = .ok ({ tm with
          heap := tm.heap.set t { timer with m_cb := none }
          m_timers := tm.m_timers.eraseIdx it
        }, true) := by
  have hkey : key (tm.heap.set t { timer with m_cb := none }) = key tm.heap := by
    funext a
    by_cases hat : t = a
    . subst hat
      rw [key_eq ht, key_eq (List.getElem?_set_self (List.getElem?_eq_some_iff.mp ht).1)]
    . rw [key_set_ne _ _ hat]
  have hless := less_iff (tm.heap.set t { timer with m_cb := none })
  rw [hkey] at hless
  have hmem : t ∈ tm.m_timers := by
    have := (h.mem_iff t timer ht).mpr hcb
    simpa using this
  obtain ⟨it, hfind, hit⟩ := OrderedSet.find_isSome hless h.sorted hmem
  refine ⟨it, hit, ?_⟩
  unfold cancel
  rw [ht]
  simp only [hcb, if_true, hfind]

theorem cancel_ok (h : Inv tm.heap tm.m_timers []) (ht : t < tm.heap.length)
    : ∃ tm' ret, tm.cancel t = .ok (tm', ret) := by
  have hget := List.getElem?_eq_getElem ht
  by_cases hcb : tm.heap[t].m_cb.isSome = true
  . obtain ⟨it, -, hcancel⟩ := cancel_eq h hget hcb
    exact ⟨_, _, hcancel⟩
  . refine ⟨tm, false, ?_⟩
    unfold cancel
    rw [hget]
    simp only [hcb]
    rfl

theorem CallSpec.of_frame {c : Call Cb} {ret n : Bool} (hinv : Inv tm'.heap tm'.m_timers [])
    (hframe : Frame tm.heap tm'.heap) (hlength : tm'.heap.length = tm.heap.length)
    (hc : ∀ t, c ≠ .cancel t) : CallSpec tm c tm' (.bool ret n) where
  inv := hinv
  frame := hframe
  length := .inl hlength
  cancelled := by
    intro t n heq
    exact absurd heq (hc t)
  expired := by
    intro ts cbs hr
    cases hr

theorem cancel_spec (h : Inv tm.heap tm.m_timers []) {ret : Bool}
    (hcall : tm.cancel t = .ok (tm', ret)) : CallSpec tm (.cancel t) tm' (.bool ret false) := by
  cases hget : tm.heap[t]? with
  | none =>
    unfold cancel at hcall
    rw [hget] at hcall
    cases hcall
  | some timer =>
    by_cases hcb : timer.m_cb.isSome = true
    . obtain ⟨it, hit, hcancel⟩ := cancel_eq h hget hcb
      rw [hcancel] at hcall
      injection hcall with hcall
      injection hcall with htm hret
      subst htm hret
      constructor
      . exact (h.erase hit).drop
      . exact Frame.set hget rfl (.inr rfl)
      . left
        exact List.length_set
      . intro a n hc _
        injection hc with hc
        subst hc
        refine ⟨{ timer with m_cb := none }, ?_, rfl⟩
        exact List.getElem?_set_self (List.getElem?_eq_some_iff.mp hget).1
      . intro ts cbs hr
        cases hr
    . unfold cancel at hcall
      rw [hget] at hcall
      simp only [hcb] at hcall
      injection hcall with hcall
      injection hcall with htm hret
      subst htm hret
      constructor
      . exact h
      . exact Frame.refl _
      . exact .inl rfl
      . intro a n _ hr
        cases hr
      . intro ts cbs hr
        cases hr

theorem refresh_spec (h : Inv tm.heap tm.m_timers []) {now : Nat} {ret : Bool}
    (hcall : tm.refresh t now = .ok (tm', ret))
    : CallSpec tm (.refresh t now) tm' (.bool ret false) := by
  rcases refresh_cases hcall with rfl | ⟨timer, it, hget, hcb, hfind, rfl⟩
  . exact .of_frame h (Frame.refl _) rfl (by simp)
  . apply CallSpec.of_frame
    . apply Inv.insert
      apply (h.erase (h.find_get hget hcb hfind)).update hget
      . rfl
      . rfl
    . exact Frame.set hget rfl (.inl rfl)
    . exact List.length_set
    . simp

theorem resetLocked_spec (h : Inv tm.heap tm.m_timers []) {ms now : Nat} {from_now ret n : Bool}
    (hcall : tm.resetLocked t ms from_now now = .ok (tm', ret, n))
    : CallSpec tm (.reset t ms from_now now) tm' (.bool ret n) := by
  rcases resetLocked_cases hcall with rfl | ⟨timer, it, start, hget, hcb, hfind, -, hinsert⟩
  . exact .of_frame h (Frame.refl _) rfl (by simp)
  . obtain ⟨rfl, rfl⟩ := Prod.mk.inj hinsert
    apply CallSpec.of_frame
    . apply insertTimer_inv
      apply (h.erase (h.find_get hget hcb hfind)).update hget
      . rfl
      . rfl
    . exact Frame.set hget rfl (.inl rfl)
    . exact List.length_set
    . simp

theorem reset_cases {ms now : Nat} {from_now ret n : Bool}
    (hcall : tm.reset t ms from_now now = .ok (tm', ret, n))
    : tm' = tm ∨ tm.resetLocked t ms from_now now = .ok (tm', ret, n) := by
  unfold reset at hcall
  split at hcall
  . cases hcall
  . next timer hget =>
    split at hcall
    . injection hcall with hcall
      injection hcall with htm hret
      exact .inl htm.symm
    . right
      unfold resetLocked
      rw [hget]
      exact hcall

theorem reset_spec (h : Inv tm.heap tm.m_timers []) {ms now : Nat} {from_now ret n : Bool}
    (hcall : tm.reset t ms from_now now = .ok (tm', ret, n))
    : CallSpec tm (.reset t ms from_now now) tm' (.bool ret n) := by
  rcases reset_cases hcall with rfl | hlocked
  . exact .of_frame h (Frame.refl _) rfl (by simp)
  . exact resetLocked_spec h hlocked

theorem getNextTimer_fst (now : Nat) : (tm.getNextTimer now).1 = { tm with m_tickled := false } := by
  unfold getNextTimer
  simp only
  split
  . rfl
  . rfl

theorem getNextTimer_spec (h : Inv tm.heap tm.m_timers []) (now : Nat)
    : CallSpec tm (.getNextTimer now) (tm.getNextTimer now).1 (.ms (tm.getNextTimer now).2) := by
  rw [getNextTimer_fst]
  constructor
  . exact h
  . exact Frame.refl _
  . exact .inl rfl
  . intro t n hc
    cases hc
  . intro ts cbs hr
    cases hr

theorem collect_length (now_ms : Nat) (tm : TimerManager Cb) (expired : List Nat)
    : (collect now_ms tm expired).1.heap.length = tm.heap.length := by
  induction expired generalizing tm with
  | nil => rfl
  | cons t expired ih =>
    unfold collect
    split
    . exact ih tm
    . next timer hget =>
      simp only [ih]
      split
      . exact List.length_set
      . exact List.length_set

theorem collect_spec (now_ms : Nat) (tm : TimerManager Cb) {expired : List Nat}
    (h : Inv tm.heap tm.m_timers expired)
    : Inv (collect now_ms tm expired).1.heap (collect now_ms tm expired).1.m_timers []
      ∧ Frame tm.heap (collect now_ms tm expired).1.heap
      ∧ (∀ t ∈ expired, ∀ timer : Timer Cb, (collect now_ms tm expired).1.heap[t]? = some timer
          → timer.m_recurring = false → timer.m_cb = none) := by
  induction expired generalizing tm with
  | nil => exact ⟨h, Frame.refl _, by simp⟩
  | cons t expired ih =>
    have hlt := h.lt_length t (.inr List.mem_cons_self)
    have hget := List.getElem?_eq_getElem hlt
    unfold collect
    rw [hget]
    generalize tm.heap[t] = timer at hget
    simp only
    split
    . next hrec =>
      let timer' := { timer with m_next := wrap64 (now_ms + timer.m_ms) }
      let heap' := tm.heap.set t timer'
      have hstep : Inv heap' (OrderedSet.insert (less heap') t tm.m_timers) expired :=
        (h.update hget timer' rfl rfl).insert
      have hset : Frame tm.heap heap' := Frame.set hget rfl (.inl rfl)
      obtain ⟨hinv, hframe, hdone⟩ := ih { tm with heap := heap', m_timers := _ } hstep
      refine ⟨hinv, hset.trans hframe, ?_⟩
      intro a ha timer' hget' hrec'
      rw [List.mem_cons] at ha
      rcases ha with rfl | ha
      . obtain ⟨timer'', hget'', hrec'', -⟩ := hframe a _ (List.getElem?_set_self hlt)
        rw [hget'] at hget''
        injection hget'' with heq
        rw [← heq, hrec', hrec] at hrec''
        cases hrec''
      . exact hdone a ha timer' hget' hrec'
    . next hrec =>
      let heap' := tm.heap.set t { timer with m_cb := none }
      have hset : Frame tm.heap heap' := Frame.set hget rfl (.inr rfl)
      obtain ⟨hinv, hframe, hdone⟩ := ih { tm with heap := heap' } h.drop
      refine ⟨hinv, hset.trans hframe, ?_⟩
      intro a ha timer' hget' hrec'
      rw [List.mem_cons] at ha
      rcases ha with rfl | ha
      . obtain ⟨timer'', hget'', hcb⟩ := hframe.dead (List.getElem?_set_self hlt) rfl
        rw [hget'] at hget''
        injection hget'' with heq
        rw [heq]
        exact hcb
      . exact hdone a ha timer' hget' hrec'

theorem CallSpec.of_timers (h : Inv tm.heap tm.m_timers []) {now addr : Nat}
    (hheap : tm'.heap = tm.heap) (htimers : tm'.m_timers = tm.m_timers)
    : CallSpec tm (.listExpiredTimer now addr) tm' (.expired [] []) where
  inv := by
    rw [hheap, htimers]
    exact h
  frame := by
    rw [hheap]
    exact Frame.refl _
  length := by
    left
    rw [hheap]
  cancelled := by
    intro t n hc
    cases hc
  expired := by
    intro ts cbs hr
    injection hr with hts hcbs
    subst hts hcbs
    simp

theorem takeExpired_spec (h : Inv tm.heap tm.m_timers []) {now addr : Nat} {expired : List Nat}
    {cbs : List (Option Cb)} (hcall : tm.takeExpired now addr = .ok (tm', expired, cbs))
    : CallSpec tm (.listExpiredTimer now addr) tm' (.expired expired cbs) := by
  rcases takeExpired_cases hcall with ⟨rfl, rfl, rfl⟩ | ⟨it, rfl, hcollect⟩
  . exact .of_timers h rfl rfl
  . obtain ⟨rfl, rfl⟩ := Prod.mk.inj hcollect
    have hout := h.takeFront it
    obtain ⟨hinv, hframe, hdone⟩ :=
      collect_spec now { (tm.detectClockRollover now).1 with m_timers := tm.m_timers.drop it } hout
    constructor
    . exact hinv
    . exact hframe
    . left
      exact collect_length _ _ _
    . intro t n hc
      cases hc
    . intro ts cbs hr
      injection hr with hts hcbs
      subst hts hcbs
      refine ⟨hout.out_nodup, ?_, hdone, ?_⟩
      . intro t ht
        exact List.mem_of_mem_take ht
      . apply collect_cbs now _ hout.out_nodup
        intro t ht
        exact hout.lt_length t (.inr ht)

theorem listExpiredTimer_spec (h : Inv tm.heap tm.m_timers []) {now addr : Nat}
    {expired : List Nat} {cbs : List (Option Cb)}
    (hcall : tm.listExpiredTimer now addr = .ok (tm', expired, cbs))
    : CallSpec tm (.listExpiredTimer now addr) tm' (.expired expired cbs) := by
  rcases listExpiredTimer_cases hcall with ⟨-, rfl, rfl, rfl⟩ | hcall
  . exact .of_timers h rfl rfl
  . exact takeExpired_spec h hcall

theorem call_spec {c : Call Cb} {r : Result Cb} (h : Inv tm.heap tm.m_timers [])
    (hcall : tm.call c = .ok (tm', r)) : CallSpec tm c tm' r := by
  cases c with
  | addTimer addr ms cb recurring now =>
    obtain ⟨⟨tm1, t, n⟩, hret, heq⟩ := Except.map_eq_ok hcall
    cases heq
    exact addTimer_spec h hret
  | cancel t =>
    obtain ⟨⟨tm1, ret⟩, hret, heq⟩ := Except.map_eq_ok hcall
    cases heq
    exact cancel_spec h hret
  | refresh t now =>
    obtain ⟨⟨tm1, ret⟩, hret, heq⟩ := Except.map_eq_ok hcall
    cases heq
    exact refresh_spec h hret
  | reset t ms from_now now =>
    obtain ⟨⟨tm1, ret, n⟩, hret, heq⟩ := Except.map_eq_ok hcall
    cases heq
    exact reset_spec h hret
  | getNextTimer now =>
    cases hcall
    exact getNextTimer_spec h now
  | listExpiredTimer now addr =>
    obtain ⟨⟨tm1, expired, cbs⟩, hret, heq⟩ := Except.map_eq_ok hcall
    cases heq
    exact listExpiredTimer_spec h hret

end Calls

end TimerManager
end CXS
