import CXS.IOManager.Kernel

namespace CXS

variable {S F C : Type}

def Scheduled.isFor (i : Nat) (e : Event) (x : Scheduled S F C) : Bool :=
  x.fd == i && x.event == e

theorem FdContext.filter_entry (ctx : FdContext S F C) (i : Nat) (e e' : Event)
    (h : ctx.fd ≠ i ∨ e' ≠ e)
    : (ctx.entry e').filter (Scheduled.isFor i e) = [] := by
  rw [List.filter_eq_nil_iff]
  intro x hx
  unfold entry at hx
  split at hx
  . rw [List.mem_singleton] at hx
    rw [hx, Scheduled.isFor, Bool.and_eq_true, beq_iff_eq, beq_iff_eq]
    intro hcontra
    exact h.elim (fun hne => hne hcontra.1) (fun hne => hne hcontra.2)
  . cases hx

theorem FdContext.filter_entry_self (ctx : FdContext S F C) {i : Nat} (h : ctx.fd = i) (e : Event)
    : (ctx.entry e).filter (Scheduled.isFor i e) = ctx.entry e := by
  rw [List.filter_eq_self]
  intro x hx
  unfold entry at hx
  split at hx
  . rw [List.mem_singleton] at hx
    rw [hx, Scheduled.isFor, Bool.and_eq_true, beq_iff_eq, beq_iff_eq]
    exact ⟨h, rfl⟩
  . cases hx

namespace IOManager

variable {m m' : IOManager S F C} {i : Nat} {e : Event} {scheduler : S} {task : Task F C}

def slot (m : IOManager S F C) (i : Nat) (e : Event) : Option (Bool × EventContext S F C) :=
  m.m_fdContexts[i]?.map (fun fd_ctx => (fd_ctx.events.has e, fd_ctx.getContext e))

def Pending (m : IOManager S F C) (i : Nat) (e : Event) (scheduler : S) (task : Task F C) : Prop :=
  m.slot i e = some (true, task.context (some scheduler))

def Vacant (m : IOManager S F C) (i : Nat) (e : Event) : Prop :=
  m.slot i e = some (false, .empty)

def scheduledFor (m : IOManager S F C) (i : Nat) (e : Event) : List (Scheduled S F C) :=
  m.scheduled.filter (Scheduled.isFor i e)

def Registers (i : Nat) (e : Event) (l : Call S F C × Result) : Prop :=
  ∃ caller cb garbage ctl, l = (.addEvent caller i e cb garbage ctl, .int 0)

def Deletes (i : Nat) (e : Event) (l : Call S F C × Result) : Prop :=
  ∃ ctl, l = (.delEvent i e ctl, .bool true)

def Wakes (i : Nat) (e : Event) (l : Call S F C × Result) : Prop :=
  (∃ ctl, l = (.cancelEvent i e ctl, .bool true)) ∨ (∃ ctl, l = (.cancelAll i ctl, .bool true))
    ∨ ∃ thread ctl es, l = (.handleResult thread ctl, .triggered es) ∧ es.has e = true

theorem slot_eq {ctx : FdContext S F C} (h : m.m_fdContexts[i]? = some ctx)
    : m.slot i e = some (ctx.events.has e, ctx.getContext e) := by
  unfold slot
  rw [h, Option.map_some]

theorem Frame.slot (h : Frame m m') {x : Bool × EventContext S F C} (hslot : m.slot i e = some x)
    : m'.slot i e = some x := by
  unfold IOManager.slot at hslot
  rw [Option.map_eq_some_iff] at hslot
  obtain ⟨ctx, hget, hx⟩ := hslot
  rw [slot_eq (h.get_old hget), hx]

theorem Frame.scheduledFor (h : Frame m m') : m'.scheduledFor i e = m.scheduledFor i e := by
  unfold IOManager.scheduledFor
  rw [h.scheduled]

namespace Edit

variable {j : Nat} {ctx ctx' : FdContext S F C} {out : List (Scheduled S F C)}

theorem scheduledFor (h : Edit m m' j ctx ctx' out)
    : m'.scheduledFor i e = m.scheduledFor i e ++ out.filter (Scheduled.isFor i e) := by
  unfold IOManager.scheduledFor
  rw [h.scheduled, List.filter_append]

theorem slot_ne (h : Edit m m' j ctx ctx' out) (hne : j ≠ i) : m'.slot i e = m.slot i e := by
  unfold IOManager.slot
  rw [h.get_ne hne]

end Edit

theorem Events.has_diff (es real : Events) (e : Event)
    : (es.diff real).has e = (es.has e && !real.has e) := by
  cases e <;> rfl

section Clear

variable {j : Nat} {ctx : FdContext S F C} {es : Events} {out : List (Scheduled S F C)}

theorem slot_clear_of_not (h : Edit m m' j ctx (ctx.clearAll es) out)
    (hnot : ¬(j = i ∧ es.has e = true)) : m'.slot i e = m.slot i e := by
  by_cases hij : j = i
  . subst hij
    have hes : es.has e = false := by simpa using hnot
    rw [slot_eq h.get_self, slot_eq h.get, FdContext.clearAll_events, Events.has_diff,
      FdContext.getContext_clearAll, hes]
    simp
  . apply h.slot_ne hij

theorem vacant_clear (h : Edit m m' i ctx (ctx.clearAll es) out) (hes : es.has e = true)
    : Vacant m' i e := by
  unfold Vacant
  rw [slot_eq h.get_self, FdContext.clearAll_events, Events.has_diff,
    FdContext.getContext_clearAll, hes]
  simp

theorem filter_entries (ctx : FdContext S F C) (es : Events) (i : Nat) (e : Event)
    : (ctx.entries es).filter (Scheduled.isFor i e)
      = if ctx.fd = i ∧ es.has e = true then ctx.entry e else [] := by
  unfold FdContext.entries
  rw [List.filter_append]
  by_cases hfd : ctx.fd = i
  . have hself := FdContext.filter_entry_self ctx hfd e
    cases e with
    | READ =>
      have hother := ctx.filter_entry i .READ .WRITE (.inr (by decide))
      cases hread : es.read <;> cases hwrite : es.write <;>
        simp [Events.has, hfd, hread, hself, hother]
    | WRITE =>
      have hother := ctx.filter_entry i .WRITE .READ (.inr (by decide))
      cases hread : es.read <;> cases hwrite : es.write <;>
        simp [Events.has, hfd, hwrite, hself, hother]
  . have hread := ctx.filter_entry i e .READ (.inl hfd)
    have hwrite := ctx.filter_entry i e .WRITE (.inl hfd)
    cases es.read <;> cases es.write <;> simp [hfd, hread, hwrite]

end Clear

theorem slot_register {j : Nat} {ctx : FdContext S F C} {e' : Event}
    {slot : EventContext S F C} {out : List (Scheduled S F C)}
    (h : Edit m m' j ctx ({ ctx with events := ctx.events.add e' }.setContext slot e') out)
    (hnot : ¬(j = i ∧ e' = e)) : m'.slot i e = m.slot i e := by
  by_cases hij : j = i
  . subst hij
    have hne : e' ≠ e := by simpa using hnot
    rw [slot_eq h.get_self, slot_eq h.get, FdContext.setContext_events, Events.has_add,
      FdContext.getContext_setContext, if_neg hne, FdContext.getContext_events]
    simp [hne]
  . apply h.slot_ne hij

section Step

variable {c : Call S F C} {r : Result}

theorem pending_step (hinv : m.Inv) (h : Effect m m' c r) (hp : Pending m i e scheduler task)
    : Pending m' i e scheduler task ∧ m'.scheduledFor i e = m.scheduledFor i e
      ∨ Vacant m' i e
        ∧ (Deletes i e (c, r) ∧ m'.scheduledFor i e = m.scheduledFor i e
          ∨ Wakes i e (c, r)
            ∧ m'.scheduledFor i e = m.scheduledFor i e ++ [⟨i, e, scheduler, task⟩]) := by
  cases h with
  | keep _ hframe =>
    left
    exact ⟨hframe.slot hp, hframe.scheduledFor⟩
  | @register m1 caller j e' cb garbage ctl ctx hframe hhas hedit =>
    left
    have hp1 : m1.slot i e = _ := hframe.slot hp
    have hnot : ¬(j = i ∧ e' = e) := by
      intro hcontra
      obtain ⟨rfl, rfl⟩ := hcontra
      rw [slot_eq hedit.get, hhas] at hp1
      cases hp1
    refine ⟨?_, ?_⟩
    . unfold Pending
      rw [slot_register hedit hnot, hp1]
    . rw [hedit.scheduledFor, hframe.scheduledFor]
      simp
  | @del j e' ctl ctx hhas hedit =>
    have hscheduled : m'.scheduledFor i e = m.scheduledFor i e := by
      rw [hedit.scheduledFor]
      simp
    by_cases heq : j = i ∧ (Events.single e').has e = true
    . right
      obtain ⟨rfl, hes⟩ := heq
      refine ⟨vacant_clear hedit hes, .inl ⟨?_, hscheduled⟩⟩
      rw [Events.has_single, beq_iff_eq] at hes
      rw [hes]
      exact ⟨ctl, rfl⟩
    . left
      refine ⟨?_, hscheduled⟩
      unfold Pending
      rw [slot_clear_of_not hedit heq]
      apply hp
  | @trigger c r m1 j es ctx hframe hc hes hedit =>
    have hp1 : m1.slot i e = _ := hframe.slot hp
    have hfd := ((hframe.inv hinv).fd j ctx hedit.get).1
    have hscheduled : m'.scheduledFor i e = _ := hedit.scheduledFor
    rw [filter_entries, hfd, hframe.scheduledFor] at hscheduled
    by_cases heq : j = i ∧ es.has e = true
    . right
      rw [if_pos heq] at hscheduled
      obtain ⟨rfl, hhas⟩ := heq
      rw [slot_eq hedit.get] at hp1
      injection hp1 with hp1
      injection hp1 with _ hslot
      rw [FdContext.entry_eq hslot, hfd] at hscheduled
      refine ⟨vacant_clear hedit hhas, .inr ⟨?_, hscheduled⟩⟩
      rcases hc with ⟨e', ctl, rfl, rfl, rfl⟩ | ⟨ctl, rfl, rfl, rfl⟩ | ⟨thread, ctl, rfl, rfl⟩
      . rw [Events.has_single, beq_iff_eq] at hhas
        rw [hhas]
        exact .inl ⟨ctl, rfl⟩
      . exact .inr (.inl ⟨ctl, rfl⟩)
      . exact .inr (.inr ⟨thread, ctl, es, rfl, hhas⟩)
    . left
      rw [if_neg heq, List.append_nil] at hscheduled
      refine ⟨?_, hscheduled⟩
      unfold Pending
      rw [slot_clear_of_not hedit heq, hp1]

theorem vacant_step (hinv : m.Inv) (h : Effect m m' c r) (hv : Vacant m i e)
    (hnot : ¬Registers i e (c, r))
    : Vacant m' i e ∧ m'.scheduledFor i e = m.scheduledFor i e := by
  cases h with
  | keep _ hframe => exact ⟨hframe.slot hv, hframe.scheduledFor⟩
  | @register m1 caller j e' cb garbage ctl ctx hframe hhas hedit =>
    have hother : ¬(j = i ∧ e' = e) := by
      intro hcontra
      obtain ⟨rfl, rfl⟩ := hcontra
      apply hnot
      exact ⟨caller, cb, garbage, ctl, rfl⟩
    refine ⟨?_, ?_⟩
    . unfold Vacant
      rw [slot_register hedit hother, hframe.slot hv]
    . rw [hedit.scheduledFor, hframe.scheduledFor]
      simp
  | @del j e' ctl ctx hhas hedit =>
    refine ⟨?_, ?_⟩
    . by_cases heq : j = i ∧ (Events.single e').has e = true
      . obtain ⟨rfl, hes⟩ := heq
        apply vacant_clear hedit hes
      . unfold Vacant
        rw [slot_clear_of_not hedit heq]
        apply hv
    . rw [hedit.scheduledFor]
      simp
  | @trigger c r m1 j es ctx hframe hc hes hedit =>
    have hv1 : m1.slot i e = _ := hframe.slot hv
    have hfd := ((hframe.inv hinv).fd j ctx hedit.get).1
    have hother : ¬(j = i ∧ es.has e = true) := by
      intro hcontra
      obtain ⟨rfl, hhas⟩ := hcontra
      rw [slot_eq hedit.get, (hes e hhas).1] at hv1
      cases hv1
    refine ⟨?_, ?_⟩
    . unfold Vacant
      rw [slot_clear_of_not hedit hother, hv1]
    . rw [hedit.scheduledFor, filter_entries, hfd, if_neg hother, hframe.scheduledFor]
      simp

end Step

theorem vacant_run {ls : List (Call S F C × Result)} (h : (lts S F C).Run m ls m') (hinv : m.Inv)
    (hv : Vacant m i e) (hnot : ∀ l ∈ ls, ¬Registers i e l)
    : Vacant m' i e ∧ m'.scheduledFor i e = m.scheduledFor i e := by
  induction h with
  | nil => exact ⟨hv, rfl⟩
  | @cons s t u l ls hstep _ ih =>
    have heffect := call_effect hinv hstep
    obtain ⟨hv', heq⟩ := vacant_step hinv heffect hv (hnot l List.mem_cons_self)
    obtain ⟨hv'', heq'⟩ := ih (heffect.inv hinv) hv' (fun l hl => hnot l (List.mem_cons_of_mem _ hl))
    exact ⟨hv'', heq'.trans heq⟩

-- one call of the run consumes the registration. Nothing is put on a queue for it before or after.
def ConsumedOnce (m : IOManager S F C) (ls : List (Call S F C × Result)) (m' : IOManager S F C)
    (i : Nat) (e : Event) (scheduler : S) (task : Task F C) : Prop :=
  ∃ before l after u v, ls = before ++ l :: after
    ∧ (lts S F C).Run m before u ∧ (lts S F C).step u l v ∧ (lts S F C).Run v after m'
    ∧ Pending u i e scheduler task ∧ u.scheduledFor i e = m.scheduledFor i e
    ∧ Vacant v i e
    ∧ (Deletes i e l ∧ v.scheduledFor i e = u.scheduledFor i e
      ∨ Wakes i e l ∧ v.scheduledFor i e = u.scheduledFor i e ++ [⟨i, e, scheduler, task⟩])
    ∧ Vacant m' i e ∧ m'.scheduledFor i e = v.scheduledFor i e

theorem pending_run {ls : List (Call S F C × Result)} (h : (lts S F C).Run m ls m') (hinv : m.Inv)
    (hp : Pending m i e scheduler task) (hnot : ∀ l ∈ ls, ¬Registers i e l)
    : Pending m' i e scheduler task ∧ m'.scheduledFor i e = m.scheduledFor i e
      ∨ ConsumedOnce m ls m' i e scheduler task := by
  induction h with
  | nil => exact .inl ⟨hp, rfl⟩
  | @cons s t u l ls hstep hrun ih =>
    have heffect := call_effect hinv hstep
    have hnot' : ∀ l ∈ ls, ¬Registers i e l := fun l hl => hnot l (List.mem_cons_of_mem _ hl)
    rcases pending_step hinv heffect hp with ⟨hp', heq⟩ | ⟨hv, hconsumed⟩
    . rcases ih (heffect.inv hinv) hp' hnot' with ⟨hp'', heq'⟩ | hconsumed
      . exact .inl ⟨hp'', heq'.trans heq⟩
      . right
        obtain ⟨before, l', after, x, y, rfl, hbefore, hl', hafter, hx, hxeq, hrest⟩ := hconsumed
        exact ⟨l :: before, l', after, x, y, rfl, .cons hstep hbefore, hl', hafter, hx,
          hxeq.trans heq, hrest⟩
    . right
      obtain ⟨hv', heq'⟩ := vacant_run hrun (heffect.inv hinv) hv hnot'
      exact ⟨[], l, ls, s, t, rfl, .nil s, hstep, hrun, hp, rfl, hv, hconsumed, hv', heq'⟩

theorem addEvent_pending (hinv : m.Inv) {caller : Caller S F} {fd : Int} {cb : Option C}
    {garbage : Nat → Event → Option S} {ctl : Bool}
    (h : m.call (.addEvent caller fd e cb garbage ctl) = .ok (m', .int 0))
    (hcaller : caller.scheduler = some scheduler)
    : Pending m' fd.toNat e scheduler (caller.task cb)
      ∧ m'.scheduledFor fd.toNat e = m.scheduledFor fd.toNat e := by
  cases call_effect hinv h with
  | keep hr _ => exact absurd rfl hr.1
  | register hframe hhas hedit =>
    rw [Int.toNat_natCast]
    refine ⟨?_, ?_⟩
    . unfold Pending
      rw [slot_eq hedit.get_self, FdContext.setContext_events, Events.has_add,
        FdContext.getContext_setContext, if_pos rfl, Caller.context_eq, hcaller]
      simp
    . rw [hedit.scheduledFor, hframe.scheduledFor]
      simp
  | trigger _ hc _ _ =>
    rcases hc with ⟨_, _, hc, _⟩ | ⟨_, hc, _⟩ | ⟨_, _, hc, _⟩
    . cases hc
    . cases hc
    . cases hc

theorem registration_consumed_once {m0 m1 m2 : IOManager S F C} {caller : Caller S F} {fd : Int}
    {cb : Option C} {garbage : Nat → Event → Option S} {ctl : Bool}
    {ls : List (Call S F C × Result)} (h0 : (lts S F C).Reachable Init m0)
    (hadd : (lts S F C).step m0 (.addEvent caller fd e cb garbage ctl, .int 0) m1)
    (hcaller : caller.scheduler = some scheduler) (hrun : (lts S F C).Run m1 ls m2)
    (hnot : ∀ l ∈ ls, ¬Registers fd.toNat e l)
    : m1.scheduledFor fd.toNat e = m0.scheduledFor fd.toNat e
      ∧ (Pending m2 fd.toNat e scheduler (caller.task cb)
          ∧ m2.scheduledFor fd.toNat e = m1.scheduledFor fd.toNat e
        ∨ ConsumedOnce m1 ls m2 fd.toNat e scheduler (caller.task cb)) := by
  have hinv := reachable_inv h0
  obtain ⟨hp, heq⟩ := addEvent_pending hinv hadd hcaller
  have hinv1 := (call_effect hinv hadd).inv hinv
  exact ⟨heq, pending_run hrun hinv1 hp hnot⟩

theorem registration_consumed_once_cancelled
    : ∃ m1 m2 : IOManager Unit Nat Nat,
        ConsumedOnce m1 [(.delEvent 7 .WRITE true, .bool false), (.cancelEvent 7 .READ true, .bool true)]
            m2 7 .READ () (.cb 3)
          ∧ m1.scheduled = [] ∧ m2.scheduled = [⟨7, .READ, (), .cb 3⟩] := by
  let caller : Caller Unit Nat := ⟨some (), 0, true⟩
  have hadd : ∃ m1 : IOManager Unit Nat Nat,
      (new 4 (fun _ _ => none)).call (.addEvent caller 7 .READ (some 3) (fun _ _ => none) true)
        = .ok (m1, .int 0)
      ∧ m1.scheduled = []
      ∧ ∃ m2, LTS.replay call m1
            [(.delEvent 7 .WRITE true, .bool false), (.cancelEvent 7 .READ true, .bool true)]
          = some m2
        ∧ m2.scheduled = [⟨7, .READ, (), .cb 3⟩] ∧ m2.slot 7 .READ = some (false, .empty) :=
    ⟨_, rfl, rfl, _, rfl, rfl, rfl⟩
  obtain ⟨m1, hadd, hm1, m2, hrun, hm2, hslot⟩ := hadd
  refine ⟨m1, m2, ?_, hm1, hm2⟩
  have hreach : (lts Unit Nat Nat).Reachable Init (new 4 (fun _ _ => none)) :=
    ⟨_, [], ⟨4, fun _ _ => none, rfl⟩, .nil _⟩
  have hnot : ∀ l ∈ [(Call.delEvent 7 .WRITE true, Result.bool false),
      (.cancelEvent 7 .READ true, .bool true)], ¬Registers (S := Unit) (F := Nat) (C := Nat)
        (7 : Int).toNat .READ l := by
    intro l hl hcontra
    obtain ⟨caller, cb, garbage, ctl, rfl⟩ := hcontra
    simp at hl
  have honce := registration_consumed_once hreach hadd rfl (LTS.run_of_replay hrun) hnot
  apply honce.2.resolve_left
  intro hpending
  have heq := hpending.1.symm.trans hslot
  cases heq

end IOManager
end CXS
