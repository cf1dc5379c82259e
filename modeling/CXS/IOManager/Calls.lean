import CXS.IOManager.Invariant

namespace CXS

variable {S F C : Type}

def Events.single : Event → Events
  | .READ => ⟨true, false⟩
  | .WRITE => ⟨false, true⟩

theorem Events.count_diff {es real : Events} (h : ∀ e, real.has e = true → es.has e = true)
    : (es.diff real).count + real.count = es.count := by
  have hread := h .READ
  have hwrite := h .WRITE
  rcases es with ⟨_ | _, _ | _⟩ <;> rcases real with ⟨_ | _, _ | _⟩ <;> simp_all [has, diff, count]

theorem Events.has_single (e e' : Event) : (single e).has e' = (e == e') := by
  cases e <;> cases e' <;> rfl

theorem Events.diff_single (es : Events) (e : Event) : es.diff (single e) = es.remove e := by
  cases e <;> simp [diff, single, remove]

theorem Events.diff_self (es : Events) : es.diff es = .NONE := by
  rcases es with ⟨_ | _, _ | _⟩ <;> rfl

section Ctl

variable {epoll epoll' : InterestList} {fd : Nat} {event : Interest} {ctl : Bool}

theorem epoll_ctl_add (h : epoll_ctl epoll .ADD fd event ctl = some epoll')
    : epoll fd = none ∧ epoll' = Function.update epoll fd (some event) := by
  unfold epoll_ctl at h
  split at h
  . cases hfd : epoll fd with
    | none =>
      rw [hfd] at h
      injection h with h
      exact ⟨rfl, h.symm⟩
    | some i =>
      rw [hfd] at h
      cases h
  . cases h

theorem epoll_ctl_mod (h : epoll_ctl epoll .MOD fd event ctl = some epoll')
    : epoll' = Function.update epoll fd (some event) := by
  unfold epoll_ctl at h
  split at h
  . cases hfd : epoll fd with
    | none =>
      rw [hfd] at h
      cases h
    | some i =>
      rw [hfd] at h
      injection h with h
      exact h.symm
  . cases h

theorem epoll_ctl_del (h : epoll_ctl epoll .DEL fd event ctl = some epoll')
    : epoll' = Function.update epoll fd none := by
  unfold epoll_ctl at h
  split at h
  . cases hfd : epoll fd with
    | none =>
      rw [hfd] at h
      cases h
    | some i =>
      rw [hfd] at h
      injection h with h
      exact h.symm
  . cases h

theorem epoll_ctl_left {left : Events} {data : EpollData}
    (h : epoll_ctl epoll (if left = .NONE then .DEL else .MOD) fd ⟨left, data⟩ ctl = some epoll')
    : epoll' = Function.update epoll fd (if left = .NONE then none else some ⟨left, data⟩) := by
  split at h
  . next hleft =>
    rw [if_pos hleft]
    apply epoll_ctl_del h
  . next hleft =>
    rw [if_neg hleft]
    apply epoll_ctl_mod h

theorem epoll_ctl_isSome (left : Events) (event : Interest) (ctl : Bool) {interest : Interest}
    (hfd : epoll fd = some interest)
    : (epoll_ctl epoll (if left = .NONE then .DEL else .MOD) fd event ctl).isSome = ctl := by
  unfold epoll_ctl
  rw [hfd]
  cases ctl with
  | false => rfl
  | true =>
    by_cases hleft : left = .NONE
    . simp [hleft]
    . simp [hleft]

end Ctl

namespace FdContext

def clearIf (ctx : FdContext S F C) (b : Bool) (e : Event) : FdContext S F C :=
  if b then ctx.clear e else ctx

def clearAll (ctx : FdContext S F C) (es : Events) : FdContext S F C :=
  (ctx.clearIf es.read .READ).clearIf es.write .WRITE

def entry (ctx : FdContext S F C) (e : Event) : List (Scheduled S F C) :=
  match (ctx.getContext e).scheduler, (ctx.getContext e).take.1 with
  | some scheduler, some task => [⟨ctx.fd, e, scheduler, task⟩]
  | _, _ => []

def entries (ctx : FdContext S F C) (es : Events) : List (Scheduled S F C) :=
  (if es.read then ctx.entry .READ else []) ++ (if es.write then ctx.entry .WRITE else [])

variable {ctx : FdContext S F C} {e : Event}

theorem wf_clearAll (h : ctx.Wf) (es : Events) : (ctx.clearAll es).Wf := by
  unfold clearAll clearIf
  split
  . split
    . apply wf_clear
      apply wf_clear h
    . apply wf_clear h
  . split
    . apply wf_clear h
    . apply h

@[simp]
theorem clearAll_fd (ctx : FdContext S F C) (es : Events) : (ctx.clearAll es).fd = ctx.fd := by
  rcases es with ⟨_ | _, _ | _⟩ <;> simp [clearAll, clearIf]

@[simp]
theorem clearAll_events (ctx : FdContext S F C) (es : Events)
    : (ctx.clearAll es).events = ctx.events.diff es := by
  rcases es with ⟨_ | _, _ | _⟩ <;> simp [clearAll, clearIf, Events.remove, Events.diff]

@[simp]
theorem getContext_clearAll (ctx : FdContext S F C) (es : Events) (e : Event)
    : (ctx.clearAll es).getContext e = if es.has e then .empty else ctx.getContext e := by
  rcases es with ⟨_ | _, _ | _⟩ <;> cases e <;> simp [clearAll, clearIf, Events.has]

theorem clearAll_single (ctx : FdContext S F C) (e : Event)
    : ctx.clearAll (.single e) = ctx.clear e := by
  cases e <;> rfl

theorem entries_single (ctx : FdContext S F C) (e : Event)
    : ctx.entries (.single e) = ctx.entry e := by
  cases e <;> simp [entries, Events.single]

theorem entry_eq {scheduler : S} {task : Task F C}
    (h : ctx.getContext e = task.context (some scheduler))
    : ctx.entry e = [⟨ctx.fd, e, scheduler, task⟩] := by
  unfold entry
  rw [h, Task.scheduler_context, Task.take_context]

theorem entry_clear (ctx : FdContext S F C) {e e' : Event} (h : e ≠ e')
    : (ctx.clear e).entry e' = ctx.entry e' := by
  unfold entry
  rw [getContext_clear, if_neg h, clear_fd]

end FdContext

namespace IOManager

variable {m m' : IOManager S F C}

def triggered (m : IOManager S F C) (i : Nat) (ctx : FdContext S F C) (es : Events)
    : IOManager S F C :=
  { m with
    m_fdContexts := m.m_fdContexts.set i (ctx.clearAll es)
    m_pendingEventCount := m.m_pendingEventCount - es.count
    scheduled := m.scheduled ++ ctx.entries es
  }

section Trigger

variable {i : Nat} {ctx : FdContext S F C} {e : Event} {trigger : Events → Bool}

theorem triggerIf_eq_ok (h : m.triggerIf i trigger e = .ok m')
    (hget : m.m_fdContexts[i]? = some ctx) (hwf : ctx.Wf)
    : trigger ctx.events = false ∧ m' = m
      ∨ trigger ctx.events = true ∧ ctx.events.has e = true
        ∧ (ctx.getContext e).scheduler.isSome = true
        ∧ m' = { m with
            m_fdContexts := m.m_fdContexts.set i (ctx.clear e)
            m_pendingEventCount := decrement m.m_pendingEventCount
            scheduled := m.scheduled ++ ctx.entry e
          } := by
  unfold triggerIf at h
  rw [hget] at h
  simp only at h
  split at h
  . next htrigger =>
    right
    obtain ⟨⟨ctx', out⟩, hret, heq⟩ := Except.map_eq_ok h
    obtain ⟨hhas, scheduler, task, hslot, rfl, rfl⟩ := FdContext.triggerEvent_eq_ok hwf hret
    refine ⟨htrigger, hhas, ?_, ?_⟩
    . rw [hslot, Task.scheduler_context]
      rfl
    . rw [← heq, FdContext.entry_eq hslot]
  . next htrigger =>
    left
    injection h with h
    refine ⟨?_, h.symm⟩
    simpa using htrigger

theorem triggerIf_ok (trigger : Events → Bool) (e : Event)
    (hget : m.m_fdContexts[i]? = some ctx) (hwf : ctx.Wf)
    (hhas : trigger ctx.events = true → ctx.events.has e = true
      ∧ (ctx.getContext e).scheduler.isSome = true)
    : ∃ m', m.triggerIf i trigger e = .ok m' := by
  unfold triggerIf
  rw [hget]
  simp only
  split
  . next htrigger =>
    obtain ⟨hhas, hscheduler⟩ := hhas htrigger
    have hslot := hwf e
    rw [if_pos hhas] at hslot
    obtain ⟨scheduler, task, hslot⟩ := hslot
    rw [hslot, Task.scheduler_context] at hscheduler
    cases scheduler with
    | none => cases hscheduler
    | some scheduler =>
      rw [FdContext.triggerEvent_eq hhas hslot]
      exact ⟨_, rfl⟩
  . exact ⟨m, rfl⟩

theorem decrement_eq {n : Nat} (hpos : 0 < n) (hlt : n < 2 ^ 64) : decrement n = n - 1 := by
  unfold decrement
  rw [show n + 2 ^ 64 - 1 = n - 1 + 2 ^ 64 by omega, Nat.add_mod_right, Nat.mod_eq_of_lt]
  omega

theorem triggers_eq_ok {m1 : IOManager S F C} {read write : Events → Bool}
    (h1 : m.triggerIf i read .READ = .ok m1) (h2 : m1.triggerIf i write .WRITE = .ok m')
    (hget : m.m_fdContexts[i]? = some ctx) (hwf : ctx.Wf)
    (hwrite : write (ctx.events.remove .READ) = write ctx.events)
    (hcount : ctx.events.count ≤ m.m_pendingEventCount) (hlt : m.m_pendingEventCount < 2 ^ 64)
    : m' = m.triggered i ctx ⟨read ctx.events, write ctx.events⟩
      ∧ ∀ e, Events.has ⟨read ctx.events, write ctx.events⟩ e = true
          → ctx.events.has e = true ∧ (ctx.getContext e).scheduler.isSome = true := by
  have hilt := (List.getElem?_eq_some_iff.mp hget).1
  have hself : m.m_fdContexts.set i ctx = m.m_fdContexts := by
    apply List.ext_getElem?
    intro j
    by_cases hij : i = j
    . subst hij
      rw [List.getElem?_set_self hilt, hget]
    . rw [List.getElem?_set_ne hij]
  rcases triggerIf_eq_ok h1 hget hwf with ⟨hr, rfl⟩ | ⟨hr, hrhas, hrsched, rfl⟩
  . rcases triggerIf_eq_ok h2 hget hwf with ⟨hw, rfl⟩ | ⟨hw, hwhas, hwsched, rfl⟩
    . rw [hr, hw]
      refine ⟨?_, ?_⟩
      . simp [triggered, FdContext.clearAll, FdContext.clearIf, hself, Events.count,
          FdContext.entries]
      . intro e he
        cases e <;> cases he
    . rw [hr, hw]
      have := Events.count_remove hwhas
      refine ⟨?_, ?_⟩
      . rw [decrement_eq (by omega) hlt]
        simp [triggered, FdContext.clearAll, FdContext.clearIf, Events.count, FdContext.entries]
      . intro e he
        cases e with
        | READ => cases he
        | WRITE => exact ⟨hwhas, hwsched⟩
  . have hget' := List.getElem?_set_self hilt (a := ctx.clear .READ)
    have hcount' := Events.count_remove hrhas
    rcases triggerIf_eq_ok h2 hget' (ctx.wf_clear hwf .READ)
      with ⟨hw, rfl⟩ | ⟨hw, hwhas, hwsched, rfl⟩
    . rw [FdContext.clear_events, hwrite] at hw
      rw [hr, hw]
      refine ⟨?_, ?_⟩
      . rw [decrement_eq (by omega) hlt]
        simp [triggered, FdContext.clearAll, FdContext.clearIf, Events.count, FdContext.entries]
      . intro e he
        cases e with
        | READ => exact ⟨hrhas, hrsched⟩
        | WRITE => cases he
    . rw [FdContext.clear_events, hwrite] at hw
      rw [FdContext.clear_events] at hwhas
      rw [FdContext.getContext_clear, if_neg (by decide)] at hwsched
      have hcount'' := Events.count_remove hwhas
      rw [hr, hw]
      refine ⟨?_, ?_⟩
      . have hdec : decrement (decrement m.m_pendingEventCount) = m.m_pendingEventCount - 2 := by
          rw [decrement_eq (by omega) hlt, decrement_eq (by omega) (by omega), Nat.sub_sub]
        simp [triggered, FdContext.clearAll, FdContext.clearIf, Events.count, FdContext.entries,
          FdContext.entry_clear, hdec]
      . intro e he
        cases e with
        | READ => exact ⟨hrhas, hrsched⟩
        | WRITE =>
          rw [Events.has_remove] at hwhas
          exact ⟨by simpa using hwhas, hwsched⟩

end Trigger

theorem withdraw_eq_ok {fd : Int} {registered : Events → Bool} {left : Events → Events} {ctl : Bool}
    {k : FdContext S F C → IOManager S F C → Except Fault (IOManager S F C × Bool)} {ret : Bool}
    (h : m.withdraw fd registered left ctl k = .ok (m', ret))
    : m' = m ∧ ret = false
      ∨ ∃ (i : Nat) (ctx : FdContext S F C), fd = i ∧ m.m_fdContexts[i]? = some ctx
        ∧ registered ctx.events = true
        ∧ k ctx { m with
              epoll := Function.update m.epoll i
                (if left ctx.events = .NONE then none else some ⟨left ctx.events, .ptr i⟩)
            } = .ok (m', ret) := by
  unfold withdraw at h
  split at h
  . cases h
    exact .inl ⟨rfl, rfl⟩
  . split at h
    . cases h
    . next hneg =>
      obtain ⟨i, rfl⟩ := Int.eq_ofNat_of_zero_le (Int.not_lt.mp hneg)
      split at h
      . cases h
      . next ctx hget =>
        split at h
        . cases h
          exact .inl ⟨rfl, rfl⟩
        . next hregistered =>
          simp only at h
          split at h
          . cases h
            exact .inl ⟨rfl, rfl⟩
          . next epoll hctl =>
            rw [epoll_ctl_left hctl] at h
            right
            exact ⟨i, ctx, rfl, hget, by simpa using hregistered, h⟩

/--
Everything a call that returns `r` can do.
-/
inductive Effect (m m' : IOManager S F C) : Call S F C → Result → Prop where
  | keep {c : Call S F C} {r : Result} (hr : r ≠ .int 0 ∧ r ≠ .bool true) (hframe : Frame m m')
    : Effect m m' c r
  | register {m1 : IOManager S F C} {caller : Caller S F} {i : Nat} {e : Event} {cb : Option C}
      {garbage : Nat → Event → Option S} {ctl : Bool} {ctx : FdContext S F C}
      (hframe : Frame m m1) (hhas : ctx.events.has e = false)
      (hedit : Edit m1 m' i ctx
        ({ ctx with events := ctx.events.add e }.setContext (caller.context cb) e) [])
    : Effect m m' (.addEvent caller i e cb garbage ctl) (.int 0)
  | del {i : Nat} {e : Event} {ctl : Bool} {ctx : FdContext S F C} (hhas : ctx.events.has e = true)
      (hedit : Edit m m' i ctx (ctx.clearAll (.single e)) [])
    : Effect m m' (.delEvent i e ctl) (.bool true)
  | trigger {c : Call S F C} {r : Result} {m1 : IOManager S F C} {i : Nat} {es : Events}
      {ctx : FdContext S F C} (hframe : Frame m m1)
      (hc : (∃ e ctl, c = .cancelEvent i e ctl ∧ r = .bool true ∧ es = .single e)
        ∨ (∃ ctl, c = .cancelAll i ctl ∧ r = .bool true ∧ es = ctx.events)
        ∨ (∃ thread ctl, c = .handleResult thread ctl ∧ r = .triggered es))
      (hes : ∀ e, es.has e = true → ctx.events.has e = true
        ∧ (ctx.getContext e).scheduler.isSome = true)
      (hedit : Edit m1 m' i ctx (ctx.clearAll es) (ctx.entries es))
    : Effect m m' c r

theorem Inv.count_le (h : m.Inv) {i : Nat} {ctx : FdContext S F C}
    (hget : m.m_fdContexts[i]? = some ctx) : ctx.events.count ≤ m.m_pendingEventCount := by
  have := sum_map_set (fun ctx => ctx.events.count) (.new i (fun _ => none)) hget
  rw [← h.count] at this
  simp only [FdContext.new, show Events.NONE.count = 0 from rfl] at this
  omega

theorem Inv.count_lt (h : m.Inv) : m.m_pendingEventCount < 2 ^ 33 := by
  have := h.size.2
  have := sum_map_le m.m_fdContexts (fun ctx => ctx.events.count_le)
  rw [← h.count] at this
  omega

theorem Inv.ne_tickle (h : m.Inv) {i : Nat} {ctx : FdContext S F C}
    (hget : m.m_fdContexts[i]? = some ctx) (hne : ctx.events ≠ .NONE) : i ≠ m.m_tickleFd := by
  intro heq
  rw [heq] at hget
  apply hne
  apply h.tickle_events ctx hget

theorem edit_triggered (h : m.Inv) {i : Nat} {ctx : FdContext S F C} {es : Events}
    (hget : m.m_fdContexts[i]? = some ctx) (hne : ctx.events ≠ .NONE)
    (hes : ∀ e, es.has e = true → ctx.events.has e = true)
    : Edit m ({ m with
          epoll := Function.update m.epoll i
            (if ctx.events.diff es = Events.NONE then none else some ⟨ctx.events.diff es, .ptr i⟩)
        }.triggered i ctx es) i ctx (ctx.clearAll es) (ctx.entries es) where
  get := hget
  ne_tickle := h.ne_tickle hget hne
  contexts := rfl
  epoll := by
    simp only [triggered, FdContext.interest, FdContext.clearAll_events, FdContext.clearAll_fd,
      (h.fd i ctx hget).1]
  count := by
    have := h.count_le hget
    have := Events.count_diff hes
    simp only [triggered, FdContext.clearAll_events]
    omega
  scheduled := rfl
  tickle := rfl
  results := rfl

theorem addEventAt_effect (h : m.Inv) {m0 : IOManager S F C} (hframe : Frame m0 m)
    {caller : Caller S F} {i : Nat} {e : Event} {cb : Option C} {ctl : Bool} {rt : Int}
    (garbage : Nat → Event → Option S) (hcall : m.addEventAt caller i e cb ctl = .ok (m', rt))
    : Effect m0 m' (.addEvent caller i e cb garbage ctl) (.int rt) := by
  unfold addEventAt at hcall
  split at hcall
  . cases hcall
  . next ctx hget =>
    split at hcall
    . cases hcall
    . next hhas =>
      rw [Bool.not_eq_true] at hhas
      simp only at hcall
      split at hcall
      . cases hcall
        apply Effect.keep _ hframe
        simp
      . next epoll hctl =>
        split at hcall
        . cases hcall
        . split at hcall
          . cases hcall
          . cases hcall
            apply Effect.register hframe hhas
            constructor
            . apply hget
            . intro heq
              subst heq
              rw [if_pos (h.tickle_events ctx hget)] at hctl
              have := (epoll_ctl_add hctl).1
              rw [h.tickle] at this
              cases this
            . rfl
            . have hepoll : epoll = Function.update m.epoll i
                  (some ⟨ctx.events.add e, .ptr i⟩) := by
                split at hctl
                . apply (epoll_ctl_add hctl).2
                . apply epoll_ctl_mod hctl
              simp only [FdContext.interest, FdContext.setContext_events, FdContext.setContext_fd,
                Events.add_ne_none, if_false, (h.fd i ctx hget).1]
              apply hepoll
            . have := h.count_lt
              rw [FdContext.setContext_events, Events.count_add hhas]
              simp only [increment]
              rw [Nat.mod_eq_of_lt (by omega)]
              omega
            . simp
            . rfl
            . rfl

theorem frame_contextResize (h : m.Inv) {size : Nat} {garbage : Nat → Event → Option S}
    (hsize : m.m_fdContexts.length ≤ size) (hcall : m.contextResize size garbage = .ok m')
    : Frame m m' := by
  unfold contextResize at hcall
  split at hcall
  . next hlt =>
    cases hcall
    rw [List.take_of_length_le hsize]
    constructor
    . exact ⟨size, garbage, rfl⟩
    . simp only [List.length_append, freshContexts, List.length_map, List.length_range']
      omega
    . rfl
    . rfl
    . rfl
    . rfl
    . intro thread i bits hmem
      have := h.results thread i bits hmem
      rw [List.length_append]
      omega
  . cases hcall

theorem addEvent_effect (h : m.Inv) {caller : Caller S F} {fd : Int} {e : Event} {cb : Option C}
    {garbage : Nat → Event → Option S} {ctl : Bool} {rt : Int}
    (hcall : m.addEvent caller fd e cb garbage ctl = .ok (m', rt))
    : Effect m m' (.addEvent caller fd e cb garbage ctl) (.int rt) := by
  unfold addEvent at hcall
  split at hcall
  . split at hcall
    . cases hcall
    . next hneg =>
      obtain ⟨i, rfl⟩ := Int.eq_ofNat_of_zero_le (Int.not_lt.mp hneg)
      apply addEventAt_effect h (Frame.refl h) garbage hcall
  . next hlen =>
    obtain ⟨i, rfl⟩ := Int.eq_ofNat_of_zero_le (show 0 ≤ fd by omega)
    obtain ⟨m1, hresize, hcall⟩ := Except.bind_eq_ok hcall
    have hsize := h.size.1
    have hframe : Frame m m1 := by
      apply frame_contextResize h _ hresize
      rw [Int.toNat_natCast]
      omega
    apply addEventAt_effect (hframe.inv h) hframe garbage hcall

theorem delEvent_effect (h : m.Inv) {fd : Int} {e : Event} {ctl ret : Bool}
    (hcall : m.delEvent fd e ctl = .ok (m', ret))
    : Effect m m' (.delEvent fd e ctl) (.bool ret) := by
  rcases withdraw_eq_ok hcall with ⟨rfl, rfl⟩ | ⟨i, ctx, rfl, hget, hhas, hk⟩
  . apply Effect.keep _ (Frame.refl h)
    simp
  . cases hk
    apply Effect.del hhas
    have hle := h.count_le hget
    have hlt := h.count_lt
    have hcount := Events.count_remove hhas
    rw [FdContext.clearAll_single]
    constructor
    . apply hget
    . apply h.ne_tickle hget (Events.ne_none_of_has hhas)
    . rfl
    . simp only [FdContext.interest, FdContext.clear_events, FdContext.clear_fd,
        (h.fd i ctx hget).1]
    . rw [FdContext.clear_events]
      simp only
      rw [decrement_eq (by omega) (by omega)]
      omega
    . simp
    . rfl
    . rfl

theorem cancelEvent_effect (h : m.Inv) {fd : Int} {e : Event} {ctl ret : Bool}
    (hcall : m.cancelEvent fd e ctl = .ok (m', ret))
    : Effect m m' (.cancelEvent fd e ctl) (.bool ret) := by
  rcases withdraw_eq_ok hcall with ⟨rfl, rfl⟩ | ⟨i, ctx, rfl, hget, hhas, hk⟩
  . apply Effect.keep _ (Frame.refl h)
    simp
  . obtain ⟨m1, htrigger, heq⟩ := Except.map_eq_ok hk
    cases heq
    have hlt := h.count_lt
    have hle := h.count_le hget
    have hcount := Events.count_remove hhas
    have hes : ∀ e', (Events.single e).has e' = true → ctx.events.has e' = true := by
      intro e' he'
      rw [Events.has_single, beq_iff_eq] at he'
      rw [← he']
      apply hhas
    have hedit := edit_triggered h hget (Events.ne_none_of_has hhas) hes
    rcases triggerIf_eq_ok htrigger hget (h.fd i ctx hget).2
      with ⟨hfalse, -⟩ | ⟨-, -, hscheduler, rfl⟩
    . cases hfalse
    . apply Effect.trigger (Frame.refl h) (.inl ⟨e, ctl, rfl, rfl, rfl⟩)
      . intro e' he'
        refine ⟨hes e' he', ?_⟩
        rw [Events.has_single, beq_iff_eq] at he'
        rw [← he']
        apply hscheduler
      . simp only [triggered, Events.diff_single, FdContext.clearAll_single,
          FdContext.entries_single, show (Events.single e).count = 1 by cases e <;> rfl] at hedit
        simp only [decrement_eq (show 0 < m.m_pendingEventCount by omega) (by omega),
          FdContext.clearAll_single, FdContext.entries_single]
        apply hedit

theorem cancelAll_effect (h : m.Inv) {fd : Int} {ctl ret : Bool}
    (hcall : m.cancelAll fd ctl = .ok (m', ret))
    : Effect m m' (.cancelAll fd ctl) (.bool ret) := by
  rcases withdraw_eq_ok hcall with ⟨rfl, rfl⟩ | ⟨i, ctx, rfl, hget, hne, hk⟩
  . apply Effect.keep _ (Frame.refl h)
    simp
  . rw [decide_eq_true_eq] at hne
    obtain ⟨m1, hread, hk⟩ := Except.bind_eq_ok hk
    obtain ⟨m2, hwrite, hk⟩ := Except.bind_eq_ok hk
    split at hk
    . cases hk
      have hlt := h.count_lt
      obtain ⟨rfl, hes⟩ := triggers_eq_ok hread hwrite hget (h.fd i ctx hget).2 rfl
        (h.count_le hget) (by simp only; omega)
      apply Effect.trigger (Frame.refl h) (.inr (.inl ⟨ctl, rfl, rfl, rfl⟩)) hes
      have hall : ∀ e, ctx.events.has e = true → ctx.events.has e = true := fun _ he => he
      have hedit := edit_triggered h hget hne hall
      rw [Events.diff_self] at hedit
      apply hedit
    . cases hk

theorem dispatch_effect (h : m.Inv) {m0 : IOManager S F C} (hframe : Frame m0 m)
    {data : EpollData} {bits : EpollBits} {ctl : Bool} {es : Events} (thread : Nat)
    (hcall : m.dispatch data bits ctl = .ok (m', es))
    : Effect m0 m' (.handleResult thread ctl) (.triggered es) := by
  unfold dispatch at hcall
  split at hcall
  . cases hcall
    apply Effect.keep _ hframe
    simp
  . split at hcall
    . cases hcall
    . next i _ ctx hget =>
      simp only at hcall
      split at hcall
      . cases hcall
        apply Effect.keep _ hframe
        simp
      . next hinter =>
        split at hcall
        . cases hcall
          apply Effect.keep _ hframe
          simp
        . next epoll hctl =>
          obtain ⟨m1, hread, hcall⟩ := Except.bind_eq_ok hcall
          obtain ⟨m2, hwrite, heq⟩ := Except.map_eq_ok hcall
          cases heq
          have hlt := h.count_lt
          obtain ⟨rfl, hes⟩ := triggers_eq_ok hread hwrite hget (h.fd i ctx hget).2 rfl
            (h.count_le hget) (by simp only; omega)
          apply Effect.trigger hframe (.inr (.inr ⟨thread, ctl, rfl, rfl⟩)) hes
          have hne : ctx.events ≠ .NONE := by
            intro heq
            apply hinter
            rw [heq]
            rfl
          have hedit := edit_triggered h hget hne (fun e he => (hes e he).1)
          rw [epoll_ctl_left hctl, (h.fd i ctx hget).1]
          apply hedit

theorem Inv.interest (h : m.Inv) {fd i : Nat} {events : Events}
    (hfd : m.epoll fd = some ⟨events, .ptr i⟩)
    : i = fd ∧ ∃ ctx, m.m_fdContexts[fd]? = some ctx ∧ ctx.events = events := by
  by_cases htickle : fd = m.m_tickleFd
  . rw [htickle, h.tickle] at hfd
    cases hfd
  . rw [h.epoll fd htickle, Option.bind_eq_some_iff] at hfd
    obtain ⟨ctx, hget, hinterest⟩ := hfd
    unfold FdContext.interest at hinterest
    split at hinterest
    . cases hinterest
    . cases hinterest
      exact ⟨(h.fd fd ctx hget).1, ctx, hget, rfl⟩

theorem epoll_wait_effect (h : m.Inv) {thread n : Nat} {ready : List (Nat × EpollBits)}
    (hcall : m.epoll_wait thread ready = .ok (m', n))
    : Effect m m' (.epoll_wait thread ready) (.ready n) := by
  unfold epoll_wait at hcall
  split at hcall
  . cases hcall
    have hframe := Frame.refl h
    apply Effect.keep
    . simp
    . constructor
      . apply hframe.contexts
      . apply hframe.size
      . rfl
      . rfl
      . rfl
      . rfl
      . intro thread' i bits hmem
        by_cases heq : thread' = thread
        . subst heq
          simp only [Function.update_self, List.mem_filterMap, Option.map_eq_some_iff] at hmem
          obtain ⟨⟨fd, bits'⟩, -, ⟨events, data⟩, hfd, hpair⟩ := hmem
          cases hpair
          obtain ⟨rfl, ctx, hget, -⟩ := h.interest hfd
          exact (List.getElem?_eq_some_iff.mp hget).1
        . simp only [Function.update_of_ne heq] at hmem
          apply h.results thread' i bits hmem
  . cases hcall

theorem frame_pop (h : m.Inv) {thread : Nat} {result : EpollData × EpollBits}
    {rest : List (EpollData × EpollBits)} (hresults : m.results thread = result :: rest)
    : Frame m { m with results := Function.update m.results thread rest } := by
  have hframe := Frame.refl h
  constructor
  . apply hframe.contexts
  . apply hframe.size
  . rfl
  . rfl
  . rfl
  . rfl
  . intro thread' i bits hmem
    by_cases heq : thread' = thread
    . subst heq
      simp only [Function.update_self] at hmem
      apply h.results thread' i bits
      rw [hresults]
      apply List.mem_cons_of_mem _ hmem
    . simp only [Function.update_of_ne heq] at hmem
      apply h.results thread' i bits hmem

theorem handleResult_effect (h : m.Inv) {thread : Nat} {ctl : Bool} {es : Events}
    (hcall : m.handleResult thread ctl = .ok (m', es))
    : Effect m m' (.handleResult thread ctl) (.triggered es) := by
  unfold handleResult at hcall
  split at hcall
  . cases hcall
  . next hresults =>
    have hpop := frame_pop h hresults
    apply dispatch_effect (hpop.inv h) hpop thread hcall

theorem call_effect (h : m.Inv) {c : Call S F C} {r : Result} (hcall : m.call c = .ok (m', r))
    : Effect m m' c r := by
  cases c with
  | addEvent caller fd event cb garbage ctl =>
    obtain ⟨⟨m1, rt⟩, hret, heq⟩ := Except.map_eq_ok hcall
    cases heq
    apply addEvent_effect h hret
  | delEvent fd event ctl =>
    obtain ⟨⟨m1, ret⟩, hret, heq⟩ := Except.map_eq_ok hcall
    cases heq
    apply delEvent_effect h hret
  | cancelEvent fd event ctl =>
    obtain ⟨⟨m1, ret⟩, hret, heq⟩ := Except.map_eq_ok hcall
    cases heq
    apply cancelEvent_effect h hret
  | cancelAll fd ctl =>
    obtain ⟨⟨m1, ret⟩, hret, heq⟩ := Except.map_eq_ok hcall
    cases heq
    apply cancelAll_effect h hret
  | epoll_wait thread ready =>
    obtain ⟨⟨m1, n⟩, hret, heq⟩ := Except.map_eq_ok hcall
    cases heq
    apply epoll_wait_effect h hret
  | handleResult thread ctl =>
    obtain ⟨⟨m1, es⟩, hret, heq⟩ := Except.map_eq_ok hcall
    cases heq
    apply handleResult_effect h hret

theorem Effect.inv {c : Call S F C} {r : Result} (h : Effect m m' c r) (hinv : m.Inv)
    : m'.Inv := by
  cases h with
  | keep _ hframe => apply hframe.inv hinv
  | register hframe _ hedit =>
    have hinv1 := hframe.inv hinv
    apply hedit.inv hinv1
    . rw [FdContext.setContext_fd]
    . rw [Caller.context_eq]
      apply FdContext.wf_setContext (hinv1.fd _ _ hedit.get).2
  | del _ hedit =>
    apply hedit.inv hinv
    . apply FdContext.clearAll_fd
    . apply FdContext.wf_clearAll (hinv.fd _ _ hedit.get).2
  | trigger hframe _ _ hedit =>
    have hinv1 := hframe.inv hinv
    apply hedit.inv hinv1
    . apply FdContext.clearAll_fd
    . apply FdContext.wf_clearAll (hinv1.fd _ _ hedit.get).2

end IOManager
end CXS
