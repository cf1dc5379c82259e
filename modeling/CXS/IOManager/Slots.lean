import CXS.IOManager.Calls

/-!
This module contains the slots of events that are not registered. All operations that take an event
out of `events` empty its slot, and `addEvent` asserts that the slot is empty before it fills it. The
contexts that `contextResize` creates have no registered event, and what their slots hold is up to
`new FdContext`.
-/

namespace CXS

variable {S F C : Type}

namespace FdContext

variable {ctx : FdContext S F C}

def Clean (ctx : FdContext S F C) : Prop :=
  ∀ e, ctx.events.has e = false → (ctx.getContext e).isEmpty = true

theorem clean_new_iff (fd : Nat) (garbage : Event → Option S)
    : (new fd garbage : FdContext S F C).Clean ↔ ∀ e, garbage e = none := by
  constructor
  . intro h e
    have hempty := h e (by cases e <;> rfl)
    cases e with
    | READ => simpa [new, getContext, EventContext.new, EventContext.isEmpty] using hempty
    | WRITE => simpa [new, getContext, EventContext.new, EventContext.isEmpty] using hempty
  . intro h e _
    cases e with
    | READ => simp [new, getContext, EventContext.new, EventContext.isEmpty, h .READ]
    | WRITE => simp [new, getContext, EventContext.new, EventContext.isEmpty, h .WRITE]

theorem clean_clear (h : ctx.Clean) (e : Event) : (ctx.clear e).Clean := by
  intro e' he'
  rw [getContext_clear]
  split
  . rfl
  . next hne =>
    rw [clear_events, Events.has_remove, bne_iff_ne.mpr hne, Bool.true_and] at he'
    exact h e' he'

theorem clean_clearAll (h : ctx.Clean) (es : Events) : (ctx.clearAll es).Clean := by
  unfold clearAll clearIf
  split
  . split
    . apply clean_clear
      apply clean_clear h
    . apply clean_clear h
  . split
    . apply clean_clear h
    . apply h

theorem clean_register_iff (slot : EventContext S F C) {e : Event}
    (hempty : (ctx.getContext e).isEmpty = true)
    : ({ ctx with events := ctx.events.add e }.setContext slot e).Clean ↔ ctx.Clean := by
  have hother : ∀ e', e ≠ e' →
      (({ ctx with events := ctx.events.add e }.setContext slot e).events.has e'
          = ctx.events.has e'
        ∧ ({ ctx with events := ctx.events.add e }.setContext slot e).getContext e'
          = ctx.getContext e') := by
    intro e' hne
    have hbeq : (e == e') = false := beq_false_of_ne hne
    simp [Events.has_add, hbeq, hne]
  constructor
  . intro h e' he'
    by_cases heq : e = e'
    . rw [← heq]
      exact hempty
    . rw [← (hother e' heq).2]
      apply h
      rw [(hother e' heq).1]
      exact he'
  . intro h e' he'
    by_cases heq : e = e'
    . subst heq
      simp [Events.has_add] at he'
    . rw [(hother e' heq).1] at he'
      rw [(hother e' heq).2]
      exact h e' he'

end FdContext

namespace IOManager

variable {m m' : IOManager S F C}

def SlotsEmpty (m : IOManager S F C) : Prop :=
  ∀ (i : Nat) (ctx : FdContext S F C), m.m_fdContexts[i]? = some ctx → ctx.Clean

theorem SlotsEmpty.of_set (h : m.SlotsEmpty) {i : Nat} {ctx : FdContext S F C} (hclean : ctx.Clean)
    (hcontexts : m'.m_fdContexts = m.m_fdContexts.set i ctx) : m'.SlotsEmpty := by
  intro j x hx
  rw [hcontexts] at hx
  by_cases hij : i = j
  . subst hij
    have hlt := (List.getElem?_eq_some_iff.mp hx).1
    rw [List.length_set] at hlt
    rw [List.getElem?_set_self hlt] at hx
    injection hx with hx
    rw [← hx]
    exact hclean
  . rw [List.getElem?_set_ne hij] at hx
    exact h j x hx

theorem contextResize_slotsEmpty_iff {size : Nat} {garbage : Nat → Event → Option S}
    (hsize : m.m_fdContexts.length ≤ size) (hcall : m.contextResize size garbage = .ok m')
    : m'.SlotsEmpty ↔ m.SlotsEmpty
        ∧ ∀ i, m.m_fdContexts.length ≤ i → i < size → ∀ e, garbage i e = none := by
  have hcontexts : m'.m_fdContexts
      = m.m_fdContexts ++ freshContexts m.m_fdContexts size garbage := by
    unfold contextResize at hcall
    split at hcall
    . cases hcall
      rw [List.take_of_length_le hsize]
    . cases hcall
  have hfresh : ∀ i, m.m_fdContexts.length ≤ i → i < size
      → m'.m_fdContexts[i]? = some (.new i (garbage i)) := by
    intro i hle hlt
    rw [hcontexts, List.getElem?_append_right hle]
    unfold freshContexts
    rw [List.getElem?_map, List.getElem?_range' (by omega), Nat.one_mul, Nat.add_sub_cancel' hle]
    rfl
  constructor
  . intro h
    constructor
    . intro i ctx hget
      apply h i ctx
      rw [hcontexts, List.getElem?_append_left (List.getElem?_eq_some_iff.mp hget).1]
      exact hget
    . intro i hle hlt
      rw [← FdContext.clean_new_iff (F := F) (C := C) i]
      exact h i _ (hfresh i hle hlt)
  . intro h i ctx hget
    by_cases hlt : i < m.m_fdContexts.length
    . rw [hcontexts, List.getElem?_append_left hlt] at hget
      exact h.1 i ctx hget
    . have hlen := (List.getElem?_eq_some_iff.mp hget).1
      rw [hcontexts, List.length_append] at hlen
      unfold freshContexts at hlen
      rw [List.length_map, List.length_range'] at hlen
      rw [hfresh i (by omega) (by omega)] at hget
      injection hget with hget
      rw [← hget, FdContext.clean_new_iff]
      exact h.2 i (by omega) (by omega)

section Length

theorem triggerIf_length {i : Nat} {trigger : Events → Bool} {e : Event}
    (h : m.triggerIf i trigger e = .ok m') : m'.m_fdContexts.length = m.m_fdContexts.length := by
  unfold triggerIf at h
  split at h
  . cases h
  . split at h
    . obtain ⟨⟨ctx', out⟩, -, heq⟩ := Except.map_eq_ok h
      cases heq
      exact List.length_set
    . cases h
      rfl

theorem triggers_length {i : Nat} {m1 : IOManager S F C} {read write : Events → Bool}
    (h1 : m.triggerIf i read .READ = .ok m1) (h2 : m1.triggerIf i write .WRITE = .ok m')
    : m'.m_fdContexts.length = m.m_fdContexts.length := by
  rw [triggerIf_length h2, triggerIf_length h1]

theorem dispatch_length {data : EpollData} {bits : EpollBits} {ctl : Bool} {es : Events}
    (h : m.dispatch data bits ctl = .ok (m', es))
    : m'.m_fdContexts.length = m.m_fdContexts.length := by
  unfold dispatch at h
  split at h
  . cases h
    rfl
  . split at h
    . cases h
    . simp only at h
      split at h
      . cases h
        rfl
      . split at h
        . cases h
          rfl
        . obtain ⟨m1, hread, h⟩ := Except.bind_eq_ok h
          obtain ⟨m2, hwrite, heq⟩ := Except.map_eq_ok h
          cases heq
          have hlen := triggers_length hread hwrite
          exact hlen

theorem addEventAt_length {caller : Caller S F} {i : Nat} {e : Event} {cb : Option C} {ctl : Bool}
    {rt : Int} (h : m.addEventAt caller i e cb ctl = .ok (m', rt))
    : m'.m_fdContexts.length = m.m_fdContexts.length := by
  unfold addEventAt at h
  split at h
  . cases h
  . split at h
    . cases h
    . simp only at h
      split at h
      . cases h
        rfl
      . split at h
        . cases h
        . split at h
          . cases h
          . cases h
            exact List.length_set

theorem call_length {c : Call S F C} {r : Result} (hcall : m.call c = .ok (m', r))
    (hc : ∀ caller fd e cb garbage ctl, c = .addEvent caller fd e cb garbage ctl
      → fd < m.m_fdContexts.length)
    : m'.m_fdContexts.length = m.m_fdContexts.length := by
  cases c with
  | addEvent caller fd event cb garbage ctl =>
    obtain ⟨⟨m1, rt⟩, hret, heq⟩ := Except.map_eq_ok hcall
    cases heq
    unfold addEvent at hret
    rw [if_pos (hc _ _ _ _ _ _ rfl)] at hret
    split at hret
    . cases hret
    . exact addEventAt_length hret
  | delEvent fd event ctl =>
    obtain ⟨⟨m1, ret⟩, hret, heq⟩ := Except.map_eq_ok hcall
    cases heq
    rcases withdraw_eq_ok hret with ⟨rfl, -⟩ | ⟨i, ctx, rfl, hget, -, hk⟩
    . rfl
    . cases hk
      exact List.length_set
  | cancelEvent fd event ctl =>
    obtain ⟨⟨m1, ret⟩, hret, heq⟩ := Except.map_eq_ok hcall
    cases heq
    rcases withdraw_eq_ok hret with ⟨rfl, -⟩ | ⟨i, ctx, rfl, hget, -, hk⟩
    . rfl
    . obtain ⟨m2, htrigger, heq⟩ := Except.map_eq_ok hk
      cases heq
      have hlen := triggerIf_length htrigger
      exact hlen
  | cancelAll fd ctl =>
    obtain ⟨⟨m1, ret⟩, hret, heq⟩ := Except.map_eq_ok hcall
    cases heq
    rcases withdraw_eq_ok hret with ⟨rfl, -⟩ | ⟨i, ctx, rfl, hget, -, hk⟩
    . rfl
    . obtain ⟨m2, hread, hk⟩ := Except.bind_eq_ok hk
      obtain ⟨m3, hwrite, hk⟩ := Except.bind_eq_ok hk
      split at hk
      . cases hk
        have hlen := triggers_length hread hwrite
        exact hlen
      . cases hk
  | epoll_wait thread ready =>
    obtain ⟨⟨m1, n⟩, hret, heq⟩ := Except.map_eq_ok hcall
    cases heq
    unfold epoll_wait at hret
    split at hret
    . cases hret
      rfl
    . cases hret
  | handleResult thread ctl =>
    obtain ⟨⟨m1, es⟩, hret, heq⟩ := Except.map_eq_ok hcall
    cases heq
    unfold handleResult at hret
    split at hret
    . cases hret
    . have hlen := dispatch_length hret
      exact hlen

end Length

section Step

theorem Frame.contexts_eq (h : Frame m m') (hlen : m'.m_fdContexts.length = m.m_fdContexts.length)
    : m'.m_fdContexts = m.m_fdContexts := by
  obtain ⟨size, garbage, heq⟩ := h.contexts
  rw [heq, List.length_append] at hlen
  have hnil := List.eq_nil_of_length_eq_zero (show (freshContexts m.m_fdContexts size garbage).length
    = 0 by omega)
  rw [heq, hnil, List.append_nil]

theorem SlotsEmpty.frame (h : m.SlotsEmpty) (hframe : Frame m m')
    (hlen : m'.m_fdContexts.length = m.m_fdContexts.length) : m'.SlotsEmpty := by
  unfold SlotsEmpty
  rw [hframe.contexts_eq hlen]
  exact h

theorem SlotsEmpty.edit (h : m.SlotsEmpty) {i : Nat} {ctx ctx' : FdContext S F C}
    {out : List (Scheduled S F C)} (hedit : Edit m m' i ctx ctx' out)
    (hclean : ctx.Clean → ctx'.Clean) : m'.SlotsEmpty :=
  h.of_set (hclean (h i ctx hedit.get)) hedit.contexts

theorem Edit.length_eq {i : Nat} {ctx ctx' : FdContext S F C} {out : List (Scheduled S F C)}
    (h : Edit m m' i ctx ctx' out) : m'.m_fdContexts.length = m.m_fdContexts.length := by
  rw [h.contexts, List.length_set]

theorem Effect.slotsEmpty {c : Call S F C} {r : Result} (h : Effect m m' c r)
    (hlen : m'.m_fdContexts.length = m.m_fdContexts.length) (hslots : m.SlotsEmpty)
    : m'.SlotsEmpty := by
  cases h with
  | keep _ hframe => exact hslots.frame hframe hlen
  | register hframe hhas hedit =>
    have hslots1 := hslots.frame hframe (hedit.length_eq.symm.trans hlen)
    apply hslots1.edit hedit
    intro hclean
    exact (FdContext.clean_register_iff _ (hclean _ hhas)).mpr hclean
  | del _ hedit =>
    apply hslots.edit hedit
    intro hclean
    exact FdContext.clean_clearAll hclean _
  | trigger hframe _ _ hedit =>
    have hslots1 := hslots.frame hframe (hedit.length_eq.symm.trans hlen)
    apply hslots1.edit hedit
    intro hclean
    exact FdContext.clean_clearAll hclean _

theorem addEventAt_slotsEmpty {caller : Caller S F} {i : Nat} {e : Event} {cb : Option C} {ctl : Bool}
    {rt : Int} (hcall : m.addEventAt caller i e cb ctl = .ok (m', rt))
    : m'.SlotsEmpty ↔ m.SlotsEmpty := by
  unfold addEventAt at hcall
  split at hcall
  . cases hcall
  . next ctx hget =>
    split at hcall
    . cases hcall
    . simp only at hcall
      split at hcall
      . cases hcall
        rfl
      . split at hcall
        . cases hcall
        . next hempty =>
          rw [Bool.not_eq_true, Bool.not_eq_false'] at hempty
          have hiff := FdContext.clean_register_iff (caller.context cb) hempty
          split at hcall
          . cases hcall
          . cases hcall
            have hlt := (List.getElem?_eq_some_iff.mp hget).1
            constructor
            . intro h j x hx
              by_cases hij : i = j
              . subst hij
                rw [hget] at hx
                injection hx with hx
                rw [← hx, ← hiff]
                exact h i _ (List.getElem?_set_self hlt)
              . apply h j x
                rw [← hx]
                exact List.getElem?_set_ne hij
            . intro h
              exact h.of_set (hiff.mpr (h i ctx hget)) rfl

/--
The pointers that `new FdContext` leaves uninitialized are null in the contexts that a call creates.
-/
def NullContexts (m : IOManager S F C) (c : Call S F C) : Prop :=
  ∀ caller fd e cb garbage ctl, c = .addEvent caller fd e cb garbage ctl
    → m.m_fdContexts.length ≤ fd
    → ∀ i, m.m_fdContexts.length ≤ i → i < fd.toNat * 3 / 2 → ∀ e, garbage i e = none

theorem call_slotsEmpty_iff (hinv : m.Inv) {c : Call S F C} {r : Result}
    (hcall : m.call c = .ok (m', r)) (hslots : m.SlotsEmpty)
    : m'.SlotsEmpty ↔ NullContexts m c := by
  by_cases hresize : ∃ caller fd e cb garbage ctl, c = .addEvent caller fd e cb garbage ctl
      ∧ m.m_fdContexts.length ≤ fd
  . obtain ⟨caller, fd, e, cb, garbage, ctl, rfl, hfd⟩ := hresize
    obtain ⟨⟨m1, rt⟩, hret, heq⟩ := Except.map_eq_ok hcall
    cases heq
    unfold addEvent at hret
    rw [if_neg (by omega)] at hret
    obtain ⟨m2, hcreate, hret⟩ := Except.bind_eq_ok hret
    have hsize := hinv.size.1
    rw [addEventAt_slotsEmpty hret, contextResize_slotsEmpty_iff (by omega) hcreate]
    constructor
    . rintro ⟨-, hnull⟩ caller' fd' e' cb' garbage' ctl' heq _
      cases heq
      exact hnull
    . intro hnull
      exact ⟨hslots, hnull _ _ _ _ _ _ rfl hfd⟩
  . have hlen := call_length hcall (by
      intro caller fd e cb garbage ctl heq
      by_contra hcontra
      exact hresize ⟨caller, fd, e, cb, garbage, ctl, heq, by omega⟩)
    have hafter := (call_effect hinv hcall).slotsEmpty hlen hslots
    simp only [hafter, true_iff]
    intro caller fd e cb garbage ctl heq hfd
    exact absurd ⟨caller, fd, e, cb, garbage, ctl, heq, hfd⟩ hresize

theorem slotsEmpty_new_iff (tickleFd : Nat) (garbage : Nat → Event → Option S)
    : (new tickleFd garbage : IOManager S F C).SlotsEmpty ↔ ∀ i < 32, ∀ e, garbage i e = none := by
  have hresize : contextResize { (new tickleFd garbage : IOManager S F C) with m_fdContexts := [] } 32
      garbage = .ok (new tickleFd garbage) := rfl
  rw [contextResize_slotsEmpty_iff (Nat.zero_le 32) hresize]
  constructor
  . intro h i hi
    exact h.2 i (Nat.zero_le i) hi
  . intro h
    constructor
    . intro i ctx hget
      cases hget
    . intro i _ hi
      exact h i hi

def SlotAssertHolds (m : IOManager S F C) : Prop :=
  ∀ caller fd e cb garbage ctl, NullContexts m (.addEvent caller fd e cb garbage ctl)
    → (∀ ctx : FdContext S F C, m.m_fdContexts[fd.toNat]? = some ctx → ctx.events.has e = false)
    → cb.isSome = true ∨ caller.exec = true
    → m.addEvent caller fd e cb garbage ctl ≠ .error .assertion

theorem addEventAt_ne_assertion (hslots : m.SlotsEmpty) {caller : Caller S F} {i : Nat} {e : Event}
    {cb : Option C} (ctl : Bool)
    (hhas : ∀ ctx : FdContext S F C, m.m_fdContexts[i]? = some ctx → ctx.events.has e = false)
    (hexec : cb.isSome = true ∨ caller.exec = true)
    : m.addEventAt caller i e cb ctl ≠ .error .assertion := by
  unfold addEventAt
  split
  . simp
  . next ctx hget =>
    have hempty := hslots i ctx hget e (hhas ctx hget)
    have hrunning : (cb.isNone && !caller.exec) = false := by
      cases cb with
      | none => simpa using hexec
      | some cb => rfl
    simp only [hhas ctx hget, hempty, hrunning, Bool.false_eq_true, if_false, Bool.not_true]
    split
    . simp
    . simp

theorem SlotsEmpty.slotAssertHolds (hinv : m.Inv) (hslots : m.SlotsEmpty) : m.SlotAssertHolds := by
  intro caller fd e cb garbage ctl hnull hhas hexec hcall
  unfold addEvent at hcall
  split at hcall
  . split at hcall
    . cases hcall
    . exact addEventAt_ne_assertion hslots ctl hhas hexec hcall
  . next hfd =>
    cases hresize : m.contextResize (fd.toNat * 3 / 2) garbage with
    | error fault =>
      rw [hresize] at hcall
      unfold contextResize at hresize
      split at hresize
      . cases hresize
      . cases hresize
        cases hcall
    | ok m1 =>
      rw [hresize] at hcall
      have hsize := hinv.size.1
      have hslots1 := (contextResize_slotsEmpty_iff (by omega) hresize).mpr
        ⟨hslots, hnull _ _ _ _ _ _ rfl (by omega)⟩
      refine addEventAt_ne_assertion hslots1 ctl ?_ hexec hcall
      intro ctx hget
      rcases (frame_contextResize hinv (by omega) hresize).get hget with hold | ⟨-, garbage', rfl⟩
      . exact hhas ctx hold
      . cases e <;> rfl

end Step

theorem run_slotsEmpty_iff {tickleFd : Nat} {garbage : Nat → Event → Option S}
    {trace : List (Call S F C × Result)}
    (h : (lts S F C).Run (new tickleFd garbage) trace m)
    : (∀ pre post u, trace = pre ++ post → (lts S F C).Run (new tickleFd garbage) pre u
        → u.SlotsEmpty ∧ u.SlotAssertHolds)
      ↔ (∀ i < 32, ∀ e, garbage i e = none)
        ∧ ((lts S F C).restrict (fun u l => NullContexts u l.1)).Run (new tickleFd garbage) trace m
    := by
  have hstep_inv : ∀ (u : IOManager S F C) l v, u.Inv → (lts S F C).step u l v → v.Inv := by
    intro u l v hinv hstep
    exact (call_effect hinv hstep).inv hinv
  rw [← slotsEmpty_new_iff (F := F) (C := C) tickleFd garbage]
  have hdet : ∀ (u : IOManager S F C) l v v', (lts S F C).step u l v → (lts S F C).step u l v'
      → v = v' := LTS.ofExcept_det
  have hiff := h.always_iff (P := SlotsEmpty) hdet hstep_inv
    (fun u l v hinv hstep hslots => call_slotsEmpty_iff hinv hstep hslots) (inv_new tickleFd garbage)
  rw [← hiff]
  constructor
  . intro hall pre post u heq hrun
    exact (hall pre post u heq hrun).1
  . intro hall pre post u heq hrun
    have hslots := hall pre post u heq hrun
    exact ⟨hslots, hslots.slotAssertHolds (hrun.invariant hstep_inv (inv_new tickleFd garbage))⟩

theorem run_slotsEmpty_iff_resized
    : let trace : List (Call Unit Nat Nat × Result) :=
        [
          (.addEvent ⟨some (), 0, true⟩ 40 .READ none (fun _ _ => none) true, .int 0),
          (.cancelEvent 40 .READ true, .bool true)
        ]
      ∃ m : IOManager Unit Nat Nat,
        (lts Unit Nat Nat).Run (new 4 (fun _ _ => none)) trace m ∧ m.SlotsEmpty := by
  intro trace
  have hrun : ∃ m : IOManager Unit Nat Nat,
      ((lts Unit Nat Nat).restrict (fun u l => NullContexts u l.1)).Run (new 4 (fun _ _ => none))
        trace m := by
    refine LTS.Run.exists_cons ⟨?_, rfl⟩ ?_
    . intro caller fd e cb garbage ctl heq
      cases heq
      intros
      rfl
    refine LTS.Run.exists_cons ⟨?_, rfl⟩ ?_
    . intro caller fd e cb garbage ctl heq
      cases heq
    exact ⟨_, .nil _⟩
  obtain ⟨m, hrun⟩ := hrun
  have hlts := hrun.of_restrict
  have hall := (run_slotsEmpty_iff hlts).mpr ⟨fun _ _ _ => rfl, hrun⟩
  exact ⟨m, hlts, (hall trace [] m (List.append_nil trace).symm hlts).1⟩

theorem uninitialized_scheduler_asserts
    : let garbage : Nat → Event → Option Unit := fun i _ => if i = 5 then some () else none
      ∃ m : IOManager Unit Nat Nat, (lts Unit Nat Nat).Run (new 4 garbage) [] m ∧ ¬m.SlotsEmpty
        ∧ m.addEvent ⟨some (), 0, true⟩ 5 .READ none (fun _ _ => none) true
          = .error .assertion := by
  intro garbage
  refine ⟨new 4 garbage, .nil _, ?_, rfl⟩
  rw [slotsEmpty_new_iff]
  intro h
  have hnull := h 5 (by decide) .READ
  cases hnull

end IOManager
end CXS
