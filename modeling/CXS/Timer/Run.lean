import CXS.Timer.Calls
import Mathlib.Data.List.Forall2
import Mathlib.Data.List.Nodup

namespace CXS
namespace TimerManager

variable {Cb : Type}

abbrev Trace (Cb : Type) :=
  List (Call Cb × Result Cb)

def Added (trace : Trace Cb) (t : Nat) (cb : Cb) : Prop :=
  ∃ addr ms recurring now n, (.addTimer addr ms cb recurring now, .timer t n) ∈ trace

structure History (trace : Trace Cb) (tm : TimerManager Cb) : Prop where
  inv : Inv tm.heap tm.m_timers []
  added : ∀ (t : Nat) (timer : Timer Cb) (cb : Cb), tm.heap[t]? = some timer
    → timer.m_cb = some cb → Added trace t cb
  known : ∀ t ∈ collected trace, t < tm.heap.length
  once : ∀ (t : Nat) (timer : Timer Cb), tm.heap[t]? = some timer → timer.m_recurring = false
    → (collected trace).count t ≤ 1 ∧ (t ∈ collected trace → timer.m_cb = none)
  cancelled : ∀ pre post t n, trace = pre ++ (.cancel t, .bool true n) :: post
    → t ∉ collected post ∧ ∃ timer : Timer Cb, tm.heap[t]? = some timer ∧ timer.m_cb = none
  callbacks : ∀ c ts cbs, (c, .expired ts cbs) ∈ trace
    → List.Forall₂ (fun t cb => ∃ f, cb = some f ∧ Added trace t f) ts cbs

theorem history_nil (now : Nat) : History [] (new now : TimerManager Cb) where
  inv := inv_nil
  added := by
    intro t timer cb ht
    cases ht
  known := by simp [collected]
  once := by
    intro t timer ht
    cases ht
  cancelled := by simp
  callbacks := by simp

theorem collected_snoc (trace : Trace Cb) (c : Call Cb) (r : Result Cb)
    : collected (trace ++ [(c, r)]) = collected trace ++ r.timers := by
  simp [collected]

theorem Added.snoc {trace : Trace Cb} {t : Nat} {cb : Cb} (h : Added trace t cb)
    (l : Call Cb × Result Cb) : Added (trace ++ [l]) t cb := by
  obtain ⟨addr, ms, recurring, now, n, hmem⟩ := h
  exact ⟨addr, ms, recurring, now, n, List.mem_append_left _ hmem⟩

section Step

variable {tm tm' : TimerManager Cb} {c : Call Cb} {r : Result Cb} {trace : Trace Cb}

theorem CallSpec.timers (h : CallSpec tm c tm' r)
    : r.timers.Nodup ∧ (∀ t ∈ r.timers, t ∈ tm.m_timers)
      ∧ (∀ t ∈ r.timers, ∀ timer : Timer Cb, tm'.heap[t]? = some timer
          → timer.m_recurring = false → timer.m_cb = none) := by
  cases r with
  | expired ts cbs =>
    obtain ⟨hnodup, hmem, hdone, -⟩ := h.expired ts cbs rfl
    exact ⟨hnodup, hmem, hdone⟩
  | timer t n => simp [Result.timers]
  | bool ret n => simp [Result.timers]
  | ms ms => simp [Result.timers]

theorem CallSpec.le_length (h : CallSpec tm c tm' r) : tm.heap.length ≤ tm'.heap.length := by
  rcases h.length with heq | ⟨_, _, _, _, _, _, _, -, -, heq, -⟩
  . omega
  . rw [heq, List.length_append]
    omega

theorem CallSpec.old (h : CallSpec tm c tm' r) {t : Nat} {timer' : Timer Cb}
    (ht : tm'.heap[t]? = some timer') (hlt : t < tm.heap.length)
    : ∃ timer : Timer Cb, tm.heap[t]? = some timer ∧ timer'.m_recurring = timer.m_recurring
      ∧ (timer'.m_cb = timer.m_cb ∨ timer'.m_cb = none) := by
  have hget := List.getElem?_eq_getElem hlt
  obtain ⟨timer'', ht', hrec, hcb⟩ := h.frame t _ hget
  rw [ht] at ht'
  injection ht' with heq
  subst heq
  exact ⟨_, hget, hrec, hcb⟩

theorem CallSpec.new (h : CallSpec tm c tm' r) (trace : Trace Cb) {t : Nat} {timer' : Timer Cb}
    (ht : tm'.heap[t]? = some timer') (hlt : ¬t < tm.heap.length)
    : r.timers = [] ∧ ∃ cb, timer'.m_cb = some cb ∧ Added (trace ++ [(c, r)]) t cb := by
  rcases h.length with heq | ⟨addr, ms, cb, recurring, now, n, timer, hc, hr, heq, hcb⟩
  . have := (List.getElem?_eq_some_iff.mp ht).1
    omega
  . have hlen := (List.getElem?_eq_some_iff.mp ht).1
    rw [heq, List.length_append, List.length_singleton] at hlen
    have : t = tm.heap.length := by omega
    subst this
    rw [heq, List.getElem?_concat_length] at ht
    injection ht with ht
    subst ht hc hr
    refine ⟨rfl, cb, hcb, addr, ms, recurring, now, n, ?_⟩
    simp

theorem history_added (h : History trace tm) (hs : CallSpec tm c tm' r) {t : Nat}
    {timer : Timer Cb} {cb : Cb} (ht : tm'.heap[t]? = some timer) (hcb : timer.m_cb = some cb)
    : Added (trace ++ [(c, r)]) t cb := by
  by_cases hlt : t < tm.heap.length
  . obtain ⟨old, hold, -, heq⟩ := hs.old ht hlt
    rw [hcb] at heq
    rcases heq with heq | heq
    . exact (h.added t old cb hold heq.symm).snoc _
    . cases heq
  . obtain ⟨-, cb', hcb', hadded⟩ := hs.new trace ht hlt
    rw [hcb] at hcb'
    injection hcb' with heq
    subst heq
    exact hadded

theorem history_once (h : History trace tm) (hs : CallSpec tm c tm' r) {t : Nat}
    {timer : Timer Cb} (ht : tm'.heap[t]? = some timer) (hrec : timer.m_recurring = false)
    : (collected (trace ++ [(c, r)])).count t ≤ 1
      ∧ (t ∈ collected (trace ++ [(c, r)]) → timer.m_cb = none) := by
  obtain ⟨hnodup, hmem, hdone⟩ := hs.timers
  rw [collected_snoc, List.count_append, List.mem_append]
  by_cases hlt : t < tm.heap.length
  . obtain ⟨old, hold, hrec', hcb⟩ := hs.old ht hlt
    rw [hrec] at hrec'
    obtain ⟨hcount, hdead⟩ := h.once t old hold hrec'.symm
    by_cases hexp : t ∈ r.timers
    . have halive := (h.inv.mem_iff t old hold).mp (.inl (hmem t hexp))
      have hnot : t ∉ collected trace := by
        intro hcol
        rw [hdead hcol] at halive
        cases halive
      rw [List.count_eq_zero_of_not_mem hnot]
      have := List.nodup_iff_count_le_one.mp hnodup t
      refine ⟨by omega, ?_⟩
      intro _
      apply hdone t hexp timer ht hrec
    . rw [List.count_eq_zero_of_not_mem hexp]
      refine ⟨by omega, ?_⟩
      intro hcol
      rw [hdead (hcol.resolve_right hexp), or_self] at hcb
      apply hcb
  . obtain ⟨hr, -⟩ := hs.new trace ht hlt
    have hnot : t ∉ collected trace := by
      intro hcol
      apply hlt
      apply h.known t hcol
    rw [hr, List.count_eq_zero_of_not_mem hnot]
    simp [hnot]

theorem history_cancelled (h : History trace tm) (hs : CallSpec tm c tm' r) {pre post : Trace Cb}
    {t : Nat} {n : Bool} (heq : trace ++ [(c, r)] = pre ++ (.cancel t, .bool true n) :: post)
    : t ∉ collected post ∧ ∃ timer : Timer Cb, tm'.heap[t]? = some timer ∧ timer.m_cb = none := by
  rcases List.eq_nil_or_concat post with rfl | ⟨post, l, rfl⟩
  . have hlast := (List.append_inj' heq rfl).2
    injection hlast with hl
    injection hl with hc hr
    subst hc hr
    refine ⟨by simp [collected], ?_⟩
    apply hs.cancelled t n rfl rfl
  . rw [List.concat_eq_append, ← List.cons_append, ← List.append_assoc] at heq
    have hsplit := List.append_inj' heq rfl
    injection hsplit.2 with hl
    subst hl
    obtain ⟨hnot, timer, ht, hcb⟩ := h.cancelled pre post t n hsplit.1
    refine ⟨?_, hs.frame.dead ht hcb⟩
    rw [List.concat_eq_append, collected_snoc, List.mem_append]
    intro hmem
    have halive := (h.inv.mem_iff t timer ht).mp (.inl (hs.timers.2.1 t (hmem.resolve_left hnot)))
    rw [hcb] at halive
    cases halive

theorem history_callbacks (h : History trace tm) (hs : CallSpec tm c tm' r) {c' : Call Cb}
    {ts : List Nat} {cbs : List (Option Cb)} (hmem : (c', .expired ts cbs) ∈ trace ++ [(c, r)])
    : List.Forall₂ (fun t cb => ∃ f, cb = some f ∧ Added (trace ++ [(c, r)]) t f) ts cbs := by
  rw [List.mem_append, List.mem_singleton] at hmem
  rcases hmem with hmem | heq
  . apply List.Forall₂.imp _ (h.callbacks c' ts cbs hmem)
    intro t cb hcb
    obtain ⟨f, heq, hadded⟩ := hcb
    exact ⟨f, heq, hadded.snoc _⟩
  . injection heq with hc hr
    subst hr
    obtain ⟨-, hts, -, hcbs⟩ := hs.expired ts cbs rfl
    subst hcbs
    rw [List.forall₂_map_right_iff, List.forall₂_same]
    intro t ht
    have hlt := h.inv.lt_length t (.inl (hts t ht))
    have hget := List.getElem?_eq_getElem hlt
    have halive := (h.inv.mem_iff t _ hget).mp (.inl (hts t ht))
    obtain ⟨f, hf⟩ := Option.isSome_iff_exists.mp halive
    refine ⟨f, ?_, (h.added t _ f hget hf).snoc _⟩
    rw [hget, Option.bind_some, hf]

theorem history_snoc (h : History trace tm) (hs : CallSpec tm c tm' r)
    : History (trace ++ [(c, r)]) tm' := by
  constructor
  . apply hs.inv
  . intro t timer cb
    apply history_added h hs
  . intro t ht
    have := hs.le_length
    rw [collected_snoc, List.mem_append] at ht
    rcases ht with ht | ht
    . have := h.known t ht
      omega
    . have := h.inv.lt_length t (.inl (hs.timers.2.1 t ht))
      omega
  . intro t timer
    apply history_once h hs
  . intro pre post t n
    apply history_cancelled h hs
  . intro c' ts cbs
    apply history_callbacks h hs

theorem history_step (h : History trace tm) (hcall : tm.call c = .ok (tm', r))
    : History (trace ++ [(c, r)]) tm' :=
  history_snoc h (call_spec h.inv hcall)

end Step

theorem run_history {now : Nat} {trace : Trace Cb} {tm : TimerManager Cb}
    (h : (lts Cb).Run (new now) trace tm) : History trace tm := by
  have hstep : ∀ pre s l t, History pre s → (lts Cb).step s l t → History (pre ++ [l]) t := by
    intro pre s l t hs hcall
    apply history_step hs hcall
  apply h.history hstep (history_nil now)

theorem run_timers_ordered_collected_once {now : Nat} {trace : Trace Cb} {tm : TimerManager Cb}
    (h : (lts Cb).Run (new now) trace tm)
    : tm.m_timers.Pairwise (fun a b => ∃ x y, tm.heap[a]? = some x ∧ tm.heap[b]? = some y
        ∧ (x.m_next < y.m_next ∨ x.m_next = y.m_next ∧ x.addr < y.addr))
      ∧ (∀ t, t ∈ tm.m_timers ↔ ∃ timer, tm.heap[t]? = some timer ∧ timer.m_cb.isSome = true)
      ∧ (∀ t < tm.heap.length, ∃ tm' ret, tm.cancel t = .ok (tm', ret))
      ∧ (∀ t timer, tm.heap[t]? = some timer → timer.m_recurring = false
          → (collected trace).count t ≤ 1)
      ∧ (∀ pre post t n, trace = pre ++ (.cancel t, .bool true n) :: post → t ∉ collected post)
      ∧ (∀ c ts cbs, (c, .expired ts cbs) ∈ trace
          → List.Forall₂ (fun t cb => ∃ f, cb = some f ∧ Added trace t f) ts cbs) := by
  have hist := run_history h
  refine ⟨hist.inv.held.pairwise_next, ?_, ?_, ?_, ?_, hist.callbacks⟩
  . intro t
    constructor
    . intro ht
      have hget := List.getElem?_eq_getElem (hist.inv.lt_length t (.inl ht))
      exact ⟨_, hget, (hist.inv.mem_iff t _ hget).mp (.inl ht)⟩
    . intro ht
      obtain ⟨timer, hget, hcb⟩ := ht
      simpa using (hist.inv.mem_iff t timer hget).mpr hcb
  . intro t ht
    apply cancel_ok hist.inv ht
  . intro t timer ht hrec
    apply (hist.once t timer ht hrec).1
  . intro pre post t n heq
    apply (hist.cancelled pre post t n heq).1

theorem run_timers_ordered_collected_once_two_timers
    : let trace : Trace Nat :=
        [
          (.addTimer 8 50 1 false 0, .timer 0 true),
          (.addTimer 16 30 2 true 0, .timer 1 false),
          (.listExpiredTimer 40 24, .expired [1] [some 2]),
          (.cancel 1, .bool true false),
          (.listExpiredTimer 90 24, .expired [0] [some 1])
        ]
      ∃ tm, (lts Nat).Run (new 0) trace tm ∧ tm.m_timers = [] ∧ (collected trace).count 0 ≤ 1
        ∧ 1 ∉ collected (trace.drop 4) := by
  let tm : TimerManager Nat :=
    {
      heap := [⟨8, false, 50, 50, none⟩, ⟨16, true, 30, 70, none⟩]
      m_timers := []
      m_tickled := true
      m_previouseTime := 90
    }
  intro trace
  have hrun : (lts Nat).Run (new 0) trace tm := by
    apply LTS.run_of_replay
    decide
  obtain ⟨-, -, -, honce, hcancel, -⟩ := run_timers_ordered_collected_once hrun
  exact ⟨tm, hrun, rfl, honce 0 _ rfl rfl, hcancel (trace.take 3) _ 1 false rfl⟩

end TimerManager
end CXS
