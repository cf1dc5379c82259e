import CXS.Timer.Invariant

namespace CXS
namespace TimerManager

variable {Cb : Type}

def Due (tm : TimerManager Cb) (now_ms t : Nat) : Prop :=
  (tm.detectClockRollover now_ms).2 = true
    ∨ ∃ timer : Timer Cb, tm.heap[t]? = some timer ∧ timer.m_next ≤ now_ms

variable {tm tm' : TimerManager Cb} {now_ms addr : Nat}

section End

theorem take_expiredEnd (tm : TimerManager Cb) (now_ms addr : Nat)
    : ∃ before : Nat → Bool,
        (∀ t timer, tm.heap[t]? = some timer
          → (before t = true ↔ timer.m_next < now_ms ∨ timer.m_next = now_ms ∧ timer.addr < addr))
        ∧ tm.m_timers.take (tm.expiredEnd false now_ms addr)
            = tm.m_timers.takeWhile before ++ (tm.m_timers.dropWhile before).takeWhile
                (fun t => tm.heap[t]?.any (fun timer => timer.m_next == now_ms)) := by
  let now_timer : Timer Cb :=
    { addr := addr, m_recurring := false, m_ms := 0, m_next := now_ms, m_cb := none }
  refine ⟨fun t => Timer.Comparator tm.heap[t]? (some now_timer), ?_, ?_⟩
  . intro t timer hget
    simp only [hget, Timer.Comparator, now_timer]
    split
    . next hlt => simp [hlt]
    . split
      . simp only [Bool.false_eq_true, false_iff]
        omega
      . simp only [decide_eq_true_eq]
        omega
  . unfold expiredEnd OrderedSet.lowerBound
    simp only [Bool.false_eq_true, if_false, List.takeWhile_map, List.length_map]
    rw [List.take_add]
    congr 1
    . exact OrderedSet.take_length_takeWhile _ _
    . have hdrop := OrderedSet.drop_length_takeWhile
        (fun t => Timer.Comparator tm.heap[t]? (some now_timer)) tm.m_timers
      simp only [now_timer] at hdrop
      simp only [Function.comp_def, now_timer, hdrop]
      exact OrderedSet.take_length_takeWhile _ _

theorem mem_take_expiredEnd (h : Held tm.heap tm.m_timers []) (t : Nat)
    : t ∈ tm.m_timers.take (tm.expiredEnd false now_ms addr)
      ↔ t ∈ tm.m_timers
        ∧ ∃ timer : Timer Cb, tm.heap[t]? = some timer ∧ timer.m_next ≤ now_ms := by
  obtain ⟨before, hbefore, heq⟩ := take_expiredEnd tm now_ms addr
  have hsub : (tm.m_timers.dropWhile before) ⊆ tm.m_timers := List.dropWhile_subset _
  have hmono : tm.m_timers.Pairwise (fun a b => before b = true → before a = true) := by
    apply List.Pairwise.imp _ h.pairwise_next
    intro a b hab hb
    obtain ⟨x, y, hx, hy, hlt⟩ := hab
    rw [hbefore b y hy] at hb
    rw [hbefore a x hx]
    omega
  have hrest : ∀ a ∈ tm.m_timers.dropWhile before, before a ≠ true := by
    intro a ha
    exact OrderedSet.not_of_mem_dropWhile hmono ha
  have hmono' : (tm.m_timers.dropWhile before).Pairwise (fun a b =>
      tm.heap[b]?.any (fun timer => timer.m_next == now_ms) = true
        → tm.heap[a]?.any (fun timer => timer.m_next == now_ms) = true) := by
    apply List.Pairwise.imp_of_mem _ (h.pairwise_next.sublist (List.dropWhile_sublist _))
    intro a b ha _ hab hb
    obtain ⟨x, y, hx, hy, hlt⟩ := hab
    have hnot := hrest a ha
    rw [ne_eq, hbefore a x hx] at hnot
    simp only [hy, Option.any_some, beq_iff_eq] at hb
    simp only [hx, Option.any_some, beq_iff_eq]
    omega
  rw [heq, List.mem_append, OrderedSet.mem_takeWhile_iff hmono, OrderedSet.mem_takeWhile_iff hmono']
  constructor
  . intro ht
    have hmem : t ∈ tm.m_timers := ht.elim (fun h => h.1) (fun h => hsub h.1)
    have hget := List.getElem?_eq_getElem (h.lt_length t (.inl hmem))
    refine ⟨hmem, _, hget, ?_⟩
    rcases ht with ht | ht
    . have := (hbefore t _ hget).mp ht.2
      omega
    . have := ht.2
      simp only [hget, Option.any_some, beq_iff_eq] at this
      omega
  . intro ht
    obtain ⟨hmem, timer, hget, hle⟩ := ht
    by_cases hb : before t = true
    . exact .inl ⟨hmem, hb⟩
    . right
      have hsplit := List.takeWhile_append_dropWhile (p := before) (l := tm.m_timers)
      rw [← hsplit, List.mem_append] at hmem
      have hnot : t ∉ tm.m_timers.takeWhile before := by
        rw [OrderedSet.mem_takeWhile_iff hmono]
        intro hcontra
        exact hb hcontra.2
      refine ⟨hmem.resolve_left hnot, ?_⟩
      rw [hbefore t timer hget] at hb
      simp only [hget, Option.any_some, beq_iff_eq]
      omega

theorem first_le (h : Held tm.heap tm.m_timers []) {first timer : Timer Cb} {t : Nat}
    (hfirst : tm.m_timers.head?.bind (fun t => tm.heap[t]?) = some first) (ht : t ∈ tm.m_timers)
    (hget : tm.heap[t]? = some timer) : first.m_next ≤ timer.m_next := by
  have hpair := h.pairwise_next
  cases htm : tm.m_timers with
  | nil =>
    rw [htm] at ht
    cases ht
  | cons a as =>
    rw [htm] at hfirst hpair ht
    rw [List.head?_cons, Option.bind_some] at hfirst
    rcases List.mem_cons.mp ht with rfl | ht
    . rw [hfirst] at hget
      injection hget with hget
      rw [hget]
    . obtain ⟨x, y, hx, hy, hlt⟩ := (List.pairwise_cons.mp hpair).1 t ht
      rw [hfirst] at hx
      rw [hget] at hy
      injection hx with hx
      injection hy with hy
      subst hx hy
      omega

theorem take_expiredEnd_rollover (tm : TimerManager Cb) (now_ms addr : Nat)
    : tm.m_timers.take (tm.expiredEnd true now_ms addr) = tm.m_timers := by
  apply List.take_of_length_le
  unfold expiredEnd
  dsimp only
  rw [if_pos rfl]
  omega

end End

def fired (now_ms : Nat) (timer : Timer Cb) : Timer Cb :=
  if timer.m_recurring then
    { timer with m_next := wrap64 (now_ms + timer.m_ms) }
  else
    { timer with m_cb := none }

section Collect

theorem collect_untouched (now_ms : Nat) (tm : TimerManager Cb) {expired : List Nat} {t : Nat}
    (ht : t ∉ expired) : (collect now_ms tm expired).1.heap[t]? = tm.heap[t]? := by
  induction expired generalizing tm with
  | nil => rfl
  | cons a expired ih =>
    rw [List.mem_cons, not_or] at ht
    unfold collect
    split
    . exact ih tm ht.2
    . simp only
      rw [ih _ ht.2]
      split
      . exact List.getElem?_set_ne (Ne.symm ht.1)
      . exact List.getElem?_set_ne (Ne.symm ht.1)

theorem collect_fired (now_ms : Nat) (tm : TimerManager Cb) {expired : List Nat} {t : Nat}
    {timer : Timer Cb} (hnodup : expired.Nodup) (ht : t ∈ expired) (hget : tm.heap[t]? = some timer)
    : (collect now_ms tm expired).1.heap[t]? = some (fired now_ms timer) := by
  induction expired generalizing tm with
  | nil => cases ht
  | cons a expired ih =>
    have hcons := List.nodup_cons.mp hnodup
    by_cases hat : a = t
    . subst hat
      have hlt := (List.getElem?_eq_some_iff.mp hget).1
      unfold collect fired
      rw [hget]
      dsimp only
      rw [collect_untouched now_ms _ hcons.1]
      split
      . exact List.getElem?_set_self hlt
      . exact List.getElem?_set_self hlt
    . have hmem := (List.mem_cons.mp ht).resolve_left (Ne.symm hat)
      unfold collect
      split
      . exact ih tm hcons.2 hmem hget
      . simp only
        apply ih _ hcons.2 hmem
        split
        . rw [← hget]
          exact List.getElem?_set_ne hat
        . rw [← hget]
          exact List.getElem?_set_ne hat

theorem collect_held (now_ms : Nat) (tm : TimerManager Cb) {expired : List Nat}
    (h : Held tm.heap tm.m_timers expired)
    : Held (collect now_ms tm expired).1.heap (collect now_ms tm expired).1.m_timers [] := by
  induction expired generalizing tm with
  | nil => exact h
  | cons t expired ih =>
    have hget := List.getElem?_eq_getElem (h.lt_length t (.inr List.mem_cons_self))
    unfold collect
    rw [hget]
    dsimp only
    apply ih
    split
    . apply Held.insert
      apply h.update hget
      rfl
    . exact h.drop

theorem mem_collect (now_ms : Nat) (tm : TimerManager Cb) {expired : List Nat}
    (h : Held tm.heap tm.m_timers expired) (a : Nat)
    : a ∈ (collect now_ms tm expired).1.m_timers
      ↔ a ∈ tm.m_timers
        ∨ a ∈ expired ∧ tm.heap[a]?.any (fun timer => timer.m_recurring) = true := by
  induction expired generalizing tm with
  | nil => simp [collect]
  | cons t expired ih =>
    have hlt := h.lt_length t (.inr List.mem_cons_self)
    have hget := List.getElem?_eq_getElem hlt
    generalize tm.heap[t] = timer at hget
    have hother : ∀ timer' : Timer Cb, a ∈ expired → (tm.heap.set t timer')[a]? = tm.heap[a]? := by
      intro timer' ha
      apply List.getElem?_set_ne
      exact h.ne_of_mem (.inr ha)
    unfold collect
    rw [hget]
    dsimp only
    split
    . next hrec =>
      have hheld := h.update hget { timer with m_next := wrap64 (now_ms + timer.m_ms) } rfl
      rw [ih _ hheld.insert, hheld.mem_insert, List.mem_cons]
      constructor
      . rintro ((rfl | ha) | ⟨ha, hany⟩)
        . right
          simp [hget, hrec]
        . exact .inl ha
        . rw [hother _ ha] at hany
          exact .inr ⟨.inr ha, hany⟩
      . rintro (ha | ⟨rfl | ha, hany⟩)
        . exact .inl (.inr ha)
        . exact .inl (.inl rfl)
        . rw [← hother _ ha] at hany
          exact .inr ⟨ha, hany⟩
    . next hrec =>
      rw [ih _ h.drop, List.mem_cons]
      constructor
      . rintro (ha | ⟨ha, hany⟩)
        . exact .inl ha
        . rw [hother _ ha] at hany
          exact .inr ⟨.inr ha, hany⟩
      . rintro (ha | ⟨rfl | ha, hany⟩)
        . exact .inl ha
        . rw [hget] at hany
          exact absurd hany hrec
        . rw [← hother _ ha] at hany
          exact .inr ⟨ha, hany⟩

theorem collect_cbs (now_ms : Nat) (tm : TimerManager Cb) {expired : List Nat}
    (hnodup : expired.Nodup) (hlt : ∀ t ∈ expired, t < tm.heap.length)
    : (collect now_ms tm expired).2 = expired.map (fun t => tm.heap[t]?.bind Timer.m_cb) := by
  induction expired generalizing tm with
  | nil => rfl
  | cons t expired ih =>
    have hcons := List.nodup_cons.mp hnodup
    have hget := List.getElem?_eq_getElem (hlt t List.mem_cons_self)
    have hcbs : ∀ timer', expired.map (fun a => (tm.heap.set t timer')[a]?.bind Timer.m_cb)
        = expired.map (fun a => tm.heap[a]?.bind Timer.m_cb) := by
      intro timer'
      apply List.map_congr_left
      intro a ha
      rw [List.getElem?_set_ne]
      intro heq
      rw [heq] at hcons
      exact hcons.1 ha
    unfold collect
    rw [List.map_cons, hget, Option.bind_some]
    dsimp only
    rw [ih _ hcons.2]
    . split
      . rw [hcbs]
      . rw [hcbs]
    . intro a ha
      have := hlt a (List.mem_cons_of_mem t ha)
      split
      . rw [List.length_set]
        exact this
      . rw [List.length_set]
        exact this

end Collect

-- the timers that `listExpiredTimer` takes out, with the state of the clock before the call
def due (tm : TimerManager Cb) (now_ms t : Nat) : Bool :=
  (tm.detectClockRollover now_ms).2 || tm.heap[t]?.any (fun timer => timer.m_next ≤ now_ms)

theorem due_iff (tm : TimerManager Cb) (now_ms t : Nat)
    : tm.due now_ms t = true ↔ Due tm now_ms t := by
  unfold due Due
  cases tm.heap[t]? with
  | none => simp
  | some timer => simp

theorem expiredEnd_eq_filter (h : Held tm.heap tm.m_timers [])
    : tm.m_timers.take (tm.expiredEnd (tm.detectClockRollover now_ms).2 now_ms addr)
        = tm.m_timers.filter (tm.due now_ms)
      ∧ tm.m_timers.drop (tm.expiredEnd (tm.detectClockRollover now_ms).2 now_ms addr)
        = tm.m_timers.filter (fun t => !tm.due now_ms t) := by
  have hmem : ∀ t, t ∈ tm.m_timers.take
        (tm.expiredEnd (tm.detectClockRollover now_ms).2 now_ms addr)
      ↔ t ∈ tm.m_timers ∧ tm.due now_ms t = true := by
    intro t
    rw [due_iff]
    unfold Due
    cases (tm.detectClockRollover now_ms).2 with
    | true =>
      rw [take_expiredEnd_rollover]
      simp
    | false =>
      rw [mem_take_expiredEnd h]
      simp
  have hnodup := h.sorted.nodup
  generalize tm.expiredEnd (tm.detectClockRollover now_ms).2 now_ms addr = it at *
  rw [← List.take_append_drop it tm.m_timers, List.nodup_append] at hnodup
  apply OrderedSet.split_eq_filter
  . intro t ht
    exact ((hmem t).mp ht).2
  . intro t ht
    apply Bool.eq_false_iff.mpr
    intro hdue
    have htake := (hmem t).mpr ⟨List.mem_of_mem_drop ht, hdue⟩
    exact hnodup.2.2 t htake t ht rfl

theorem takeExpired_eq (h : Held tm.heap tm.m_timers []) (hne : tm.m_timers ≠ [])
    : tm.takeExpired now_ms addr
        = .ok (
            (collect now_ms
              { tm with
                m_previouseTime := now_ms
                m_timers := tm.m_timers.filter (fun t => !tm.due now_ms t)
              }
              (tm.m_timers.filter (tm.due now_ms))).1,
            tm.m_timers.filter (tm.due now_ms),
            (collect now_ms
              { tm with
                m_previouseTime := now_ms
                m_timers := tm.m_timers.filter (fun t => !tm.due now_ms t)
              }
              (tm.m_timers.filter (tm.due now_ms))).2) := by
  obtain ⟨a, ha⟩ := List.exists_mem_of_ne_nil _ hne
  have hhead : ∃ first : Timer Cb,
      tm.m_timers.head?.bind (fun t => tm.heap[t]?) = some first := by
    cases htm : tm.m_timers with
    | nil => exact absurd htm hne
    | cons t ts =>
      have hlt := h.lt_length t (.inl (by rw [htm]; exact List.mem_cons_self))
      exact ⟨_, List.getElem?_eq_getElem hlt⟩
  obtain ⟨first, hfirst⟩ := hhead
  have hfilter := @expiredEnd_eq_filter _ tm now_ms addr h
  have hend : ∀ rollover, (tm.detectClockRollover now_ms).1.expiredEnd rollover now_ms addr
      = tm.expiredEnd rollover now_ms addr := fun _ => rfl
  have hroll : tm.detectClockRollover now_ms
      = ({ tm with m_previouseTime := now_ms }, (tm.detectClockRollover now_ms).2) := rfl
  unfold takeExpired
  rw [hroll]
  dsimp only
  rw [hfirst]
  dsimp only
  split
  . next hearly =>
    rw [Bool.and_eq_true, Bool.not_eq_true', decide_eq_true_eq] at hearly
    have hnone : ∀ t ∈ tm.m_timers, tm.due now_ms t = false := by
      intro t ht
      have hget := List.getElem?_eq_getElem (h.lt_length t (.inl ht))
      have hle := first_le h hfirst ht hget
      unfold due
      rw [hearly.1, hget]
      simp only [Bool.false_or, Option.any_some, decide_eq_false_iff_not]
      omega
    have hnil : tm.m_timers.filter (tm.due now_ms) = [] := by
      rw [List.filter_eq_nil_iff]
      intro t ht
      rw [hnone t ht]
      decide
    have hall : tm.m_timers.filter (fun t => !tm.due now_ms t) = tm.m_timers := by
      rw [List.filter_eq_self]
      intro t ht
      rw [hnone t ht]
      rfl
    rw [hnil, hall]
    rfl
  . rw [hroll] at hend
    rw [hend, hfilter.1, hfilter.2]

theorem takeExpired_nil {ts : List Nat} {cbs : List (Option Cb)} (hnil : tm.m_timers = [])
    (hcall : tm.takeExpired now_ms addr = .ok (tm', ts, cbs)) : ts = [] := by
  unfold takeExpired detectClockRollover at hcall
  dsimp only at hcall
  rw [hnil] at hcall
  dsimp only [List.head?_nil, Option.bind_none] at hcall
  split at hcall
  . injection hcall with hcall
    simp only [Prod.mk.injEq] at hcall
    exact hcall.2.1.symm
  . cases hcall

theorem mem_takeExpired_iff (h : Held tm.heap tm.m_timers []) {ts : List Nat}
    {cbs : List (Option Cb)} (hcall : tm.takeExpired now_ms addr = .ok (tm', ts, cbs)) (t : Nat)
    : t ∈ ts ↔ t ∈ tm.m_timers ∧ Due tm now_ms t := by
  by_cases hnil : tm.m_timers = []
  . rw [takeExpired_nil hnil hcall, hnil]
    simp
  . rw [takeExpired_eq h hnil] at hcall
    injection hcall with hcall
    simp only [Prod.mk.injEq] at hcall
    rw [← hcall.2.1, List.mem_filter, due_iff]

theorem held_filter_due (h : Held tm.heap tm.m_timers [])
    : Held tm.heap (tm.m_timers.filter (fun t => !tm.due now_ms t))
        (tm.m_timers.filter (tm.due now_ms)) := by
  obtain ⟨htake, hdrop⟩ := @expiredEnd_eq_filter _ tm now_ms 0 h
  rw [← htake, ← hdrop]
  apply h.takeFront

theorem takeExpired_fired (h : Held tm.heap tm.m_timers []) {ts : List Nat} {cbs : List (Option Cb)}
    (hcall : tm.takeExpired now_ms addr = .ok (tm', ts, cbs)) {t : Nat} {timer : Timer Cb}
    (ht : t ∈ ts) (hget : tm.heap[t]? = some timer) : tm'.heap[t]? = some (fired now_ms timer) := by
  by_cases hnil : tm.m_timers = []
  . rw [takeExpired_nil hnil hcall] at ht
    cases ht
  . rw [takeExpired_eq h hnil] at hcall
    injection hcall with hcall
    simp only [Prod.mk.injEq] at hcall
    rw [← hcall.2.1] at ht
    rw [← hcall.1]
    apply collect_fired
    . exact (@held_filter_due _ tm now_ms h).out_nodup
    . exact ht
    . exact hget

theorem takeExpired_untouched {ts : List Nat} {cbs : List (Option Cb)}
    (hcall : tm.takeExpired now_ms addr = .ok (tm', ts, cbs)) {t : Nat} (ht : t ∉ ts)
    : tm'.heap[t]? = tm.heap[t]? := by
  rcases takeExpired_cases hcall with ⟨rfl, -, -⟩ | ⟨it, rfl, hcollect⟩
  . rfl
  . rw [(Prod.mk.inj hcollect).1]
    exact collect_untouched now_ms _ ht

/--
`ts` are the timers that a call of `listExpiredTimer` at `now_ms` collects and `cbs` what it appends
to the vector of callbacks. The sum in `rearmed` is one of type `uint64_t`.
-/
structure Expires (tm : TimerManager Cb) (now_ms : Nat) (tm' : TimerManager Cb) (ts : List Nat)
    (cbs : List (Option Cb)) : Prop where
  collected : ∀ t, t ∈ ts ↔ t ∈ tm.m_timers ∧ Due tm now_ms t
  once : ts.Nodup
  ordered : ts.Pairwise (fun a b => ∃ x y : Timer Cb,
    tm.heap[a]? = some x ∧ tm.heap[b]? = some y ∧ x.m_next ≤ y.m_next)
  callbacks : cbs = ts.map (fun t => tm.heap[t]?.bind Timer.m_cb)
  timers : ∀ t, t ∈ tm'.m_timers
    ↔ t ∈ tm.m_timers ∧ ¬Due tm now_ms t
      ∨ t ∈ ts ∧ tm.heap[t]?.any (fun timer => timer.m_recurring) = true
  held : Held tm'.heap tm'.m_timers []
  unchanged : ∀ t, t ∉ ts → tm'.heap[t]? = tm.heap[t]?
  rearmed : ∀ t timer, t ∈ ts → tm.heap[t]? = some timer → timer.m_recurring = true
    → tm'.heap[t]? = some { timer with m_next := wrap64 (now_ms + timer.m_ms) }
  cleared : ∀ t timer, t ∈ ts → tm.heap[t]? = some timer → timer.m_recurring = false
    → tm'.heap[t]? = some { timer with m_cb := none }

theorem listExpiredTimer_expires (tm : TimerManager Cb) (h : Held tm.heap tm.m_timers [])
    (hne : tm.m_timers ≠ []) (now_ms addr : Nat)
    : ∃ tm' ts cbs, tm.listExpiredTimer now_ms addr = .ok (tm', ts, cbs)
        ∧ Expires tm now_ms tm' ts cbs := by
  have hout := @held_filter_due _ tm now_ms h
  have hcall := @takeExpired_eq _ tm now_ms addr h hne
  have hlist : tm.listExpiredTimer now_ms addr = tm.takeExpired now_ms addr := by
    unfold listExpiredTimer
    rw [if_neg (by simpa using hne)]
  refine ⟨_, _, _, hlist.trans hcall, ?_⟩
  constructor
  . exact mem_takeExpired_iff h hcall
  . exact hout.out_nodup
  . apply List.Pairwise.imp _ (h.pairwise_next.sublist List.filter_sublist)
    intro a b hab
    obtain ⟨x, y, hx, hy, hlt⟩ := hab
    exact ⟨x, y, hx, hy, by omega⟩
  . apply collect_cbs now_ms _ hout.out_nodup
    intro t ht
    exact hout.lt_length t (.inr ht)
  . intro t
    rw [mem_collect now_ms _ hout, ← due_iff]
    simp
  . exact collect_held now_ms _ hout
  . intro t ht
    exact takeExpired_untouched hcall ht
  . intro t timer ht hget hrec
    rw [takeExpired_fired h hcall ht hget]
    unfold fired
    rw [if_pos hrec]
  . intro t timer ht hget hrec
    rw [takeExpired_fired h hcall ht hget]
    unfold fired
    rw [if_neg (by simp [hrec])]

def dueTogether : TimerManager Nat where
  heap := [
    { addr := 30, m_recurring := true, m_ms := 0, m_next := 10, m_cb := some 7 },
    { addr := 10, m_recurring := false, m_ms := 4, m_next := 10, m_cb := some 8 },
    { addr := 20, m_recurring := false, m_ms := 4, m_next := 11, m_cb := some 9 }
  ]
  m_timers := [1, 0, 2]
  m_tickled := false
  m_previouseTime := 9

theorem held_dueTogether : Held dueTogether.heap dueTogether.m_timers [] where
  sorted := by
    unfold OrderedSet.Sorted dueTogether
    simp [key, WithBot.coe_lt_coe, Prod.Lex.toLex_lt_toLex]
  out_nodup := List.nodup_nil
  disjoint := by simp
  lt_length := by simp [dueTogether]
  addr_inj := by
    intro a b x y ha hb hx hy hxy
    simp only [dueTogether, List.mem_cons, List.not_mem_nil, or_false] at ha hb hx hy
    rcases ha with rfl | rfl | rfl <;> rcases hb with rfl | rfl | rfl
      <;> cases hx <;> cases hy <;> first | rfl | cases hxy

theorem listExpiredTimer_expires_together
    : ∃ tm' ts cbs, dueTogether.listExpiredTimer 10 15 = .ok (tm', ts, cbs)
        ∧ Expires dueTogether 10 tm' ts cbs :=
  listExpiredTimer_expires dueTogether held_dueTogether (by decide) 10 15

example : (dueTogether.listExpiredTimer 10 15).map (fun r => (r.1.m_timers, r.2))
    = .ok ([0, 2], [1, 0], [some 8, some 7]) := by rfl

end TimerManager
end CXS
