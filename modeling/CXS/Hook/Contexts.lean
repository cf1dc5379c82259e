import CXS.Hook.Basic

/-!
This module contains the calls of `FdManager` by several threads, where what a thread does under one
acquisition of `m_mutex` is one step. `get(fd, true)` looks for the context under a read lock, lets go
of the lock and stores a new context under a write lock. The members of a returned context are set
without a lock.
-/

namespace CXS
namespace FdManager

inductive Setter where
  | setTimeout (type : TimeoutSo) (v : Nat)
  | setUserNonblock (v : Bool)
  | setSysNonblock (v : Bool)
  deriving DecidableEq, Repr

namespace Setter

def apply (ctx : FdCtx) : Setter → FdCtx
  | .setTimeout type v => ctx.setTimeout type v
  | .setUserNonblock v => { ctx with m_userNonblock := v }
  | .setSysNonblock v => { ctx with m_sysNonbool := v }

def sameMember : Setter → Setter → Bool
  | .setTimeout type _, .setTimeout type' _ => type == type'
  | .setUserNonblock _, .setUserNonblock _ => true
  | .setSysNonblock _, .setSysNonblock _ => true
  | _, _ => false

theorem apply_apply (ctx : FdCtx) (w : Setter) : w.apply (w.apply ctx) = w.apply ctx := by
  cases w with
  | setTimeout type v => cases type <;> rfl
  | setUserNonblock v => rfl
  | setSysNonblock v => rfl

theorem apply_comm (ctx : FdCtx) {w w' : Setter} (h : w.sameMember w' = false)
    : w.apply (w'.apply ctx) = w'.apply (w.apply ctx) := by
  cases w with
  | setTimeout type v =>
    cases w' with
    | setTimeout type' v' => cases type <;> cases type' <;> first | rfl | cases h
    | _ => cases type <;> rfl
  | setUserNonblock v =>
    cases w' with
    | setTimeout type' v' => cases type' <;> rfl
    | setUserNonblock v' => cases h
    | setSysNonblock v' => rfl
  | setSysNonblock v =>
    cases w' with
    | setTimeout type' v' => cases type' <;> rfl
    | setUserNonblock v' => rfl
    | setSysNonblock v' => cases h

end Setter

structure Threads where
  m : FdManager
  creating : Nat → Option Int

inductive Section where
  | get (th : Nat) (fd : Int) (auto_create : Bool)
  | create (th : Nat) (fd : Int) (stat : Option File)
  | del (fd : Int)
  | set (p : Nat) (w : Setter)
  deriving DecidableEq, Repr

inductive Outcome where
  | silent
  | ret (p : Option Nat)
  deriving DecidableEq, Repr

namespace Threads

def start : Threads where
  m := .new
  creating _ := none

def setCreating (s : Threads) (th : Nat) (fd : Option Int) : Threads :=
  { s with creating := fun i => if i = th then fd else s.creating i }

def exec (s : Threads) : Section → Except Fault (Threads × Outcome)
  | .get th fd auto_create =>
    if (s.creating th).isSome then
      .error .noResult
    else
      match s.m.get fd with
      | .error e => .error e
      | .ok (some p) => .ok (s, .ret (some p))
      | .ok none =>
        if auto_create then .ok (s.setCreating th (some fd), .silent) else .ok (s, .ret none)
  | .create th fd stat =>
    if s.creating th = some fd then
      match s.m.create fd stat with
      | .error e => .error e
      | .ok m => .ok ({ s with m := m }.setCreating th none, .ret (some s.m.ctxs.length))
    else
      .error .noResult
  | .del fd =>
    match s.m.del fd with
    | .error e => .error e
    | .ok m => .ok ({ s with m := m }, .silent)
  | .set p w =>
    if p < s.m.ctxs.length then
      .ok ({ s with m := { s.m with ctxs := s.m.ctxs.modify p w.apply } }, .silent)
    else
      .error .noResult

end Threads

def sections : LTS Threads (Section × Outcome) :=
  LTS.ofExcept Threads.exec

def slot (m : FdManager) (fd : Int) : Option Nat :=
  if fd < 0 then none else m.m_datas[fd.toNat]?.join

def returns (fd : Int) (p : Nat) : Section × Outcome → Prop
  | (.get _ fd' _, o) => fd' = fd ∧ o = .ret (some p)
  | (.create _ fd' _, o) => fd' = fd ∧ o = .ret (some p)
  | _ => False

def isDel (fd : Int) : Section × Outcome → Bool
  | (.del fd', _) => fd' == fd
  | _ => false

def overwrites (p : Nat) (w : Setter) : Section × Outcome → Bool
  | (.set p' w', _) => p' == p && w.sameMember w'
  | _ => false

/--
While there is no `del(fd)`, every `get` on `fd` returns the same context, it stays the stored one,
and what is set on it is what a later `get` finds.
-/
structure KeepsContext (trace : List (Section × Outcome)) : Prop where
  same : ∀ pre l mid l' post fd p q, trace = pre ++ l :: (mid ++ l' :: post)
    → returns fd p l → returns fd q l' → (∀ x ∈ mid, isDel fd x = false) → p = q
  stored : ∀ pre l mid post fd p s, trace = pre ++ l :: (mid ++ post)
    → sections.Run .start (pre ++ l :: mid) s → returns fd p l → (∀ x ∈ mid, isDel fd x = false)
    → s.m.slot fd = some p
  kept : ∀ pre l mid w o mid' post fd p s,
    trace = pre ++ l :: (mid ++ (.set p w, o) :: (mid' ++ post))
    → sections.Run .start (pre ++ l :: (mid ++ (.set p w, o) :: mid')) s → returns fd p l
    → (∀ x ∈ mid, isDel fd x = false) → (∀ x ∈ mid', isDel fd x = false)
    → (∀ x ∈ mid', overwrites p w x = false)
    → ∃ ctx, s.m.slot fd = some p ∧ s.m.ctxs[p]? = some ctx ∧ w.apply ctx = ctx

-- the write-locked section of `get(fd, true)` finds no context
def createsInEmpty (s : Threads) : Section → Bool
  | .create _ fd _ => (s.m.slot fd).isNone
  | _ => true

def sectionsInEmpty : LTS Threads (Section × Outcome) :=
  sections.restrict fun s l => createsInEmpty s l.1 = true

section Slot

variable {m m' : FdManager} {fd fd' : Int}

theorem get_eq_slot {r : Option Nat} (h : m.get fd = .ok r) : r = m.slot fd := by
  unfold get at h
  unfold slot
  split at h
  . next hle =>
    injection h with h
    rw [if_neg (by omega), List.getElem?_eq_none (by omega)]
    exact h.symm
  . split at h
    . cases h
    . next hneg =>
      injection h with h
      rw [if_neg hneg]
      exact h.symm

theorem slot_set {i : Nat} {p : Option Nat} (hi : i < m.m_datas.length) (fd : Int)
    : { m with m_datas := m.m_datas.set i p }.slot fd = if fd = i then p else m.slot fd := by
  unfold slot
  dsimp only
  split
  . next hneg => rw [if_neg (by omega)]
  . next hneg =>
    split
    . next heq =>
      subst heq
      rw [Int.toNat_natCast, List.getElem?_set_self hi]
      rfl
    . next hne => rw [List.getElem?_set_ne (by omega)]

theorem slot_grow (n : Nat) (fd : Int)
    : { m with m_datas := m.m_datas ++ List.replicate n none }.slot fd = m.slot fd := by
  unfold slot
  dsimp only
  split
  . rfl
  . by_cases hlt : fd.toNat < m.m_datas.length
    . rw [List.getElem?_append_left hlt]
    . rw [List.getElem?_append_right (by omega), List.getElem?_replicate,
        List.getElem?_eq_none (by omega)]
      split <;> rfl

theorem del_spec (h : m.del fd = .ok m')
    : m'.ctxs = m.ctxs ∧ m'.m_datas.length = m.m_datas.length
      ∧ ∀ fd', m'.slot fd' = if fd' = fd then none else m.slot fd' := by
  unfold del at h
  split at h
  . next hle =>
    injection h with h
    subst h
    refine ⟨rfl, rfl, ?_⟩
    intro fd'
    split
    . next heq =>
      subst heq
      unfold slot
      rw [if_neg (by omega), List.getElem?_eq_none (by omega)]
      rfl
    . rfl
  . split at h
    . cases h
    . next hle hneg =>
      injection h with h
      subst h
      refine ⟨rfl, List.length_set, ?_⟩
      intro fd'
      rw [slot_set (by omega), Int.toNat_of_nonneg (by omega)]

theorem create_spec {stat : Option File} (h : m.create fd stat = .ok m')
    (hlen : 64 ≤ m.m_datas.length)
    : m'.ctxs = m.ctxs ++ [.new fd stat] ∧ m.m_datas.length ≤ m'.m_datas.length
      ∧ ∀ fd', m'.slot fd' = if fd' = fd then some m.ctxs.length else m.slot fd' := by
  unfold create at h
  split at h
  . cases h
  . next hneg =>
    injection h with h
    subst h
    refine ⟨rfl, ?_, ?_⟩
    . dsimp only
      rw [List.length_set]
      split
      . rw [List.length_append]
        omega
      . omega
    . intro fd'
      split
      . next hle =>
        have hset := @slot_set
          { m with m_datas := m.m_datas ++ List.replicate (fd.toNat * 3 / 2 - m.m_datas.length) none }
          fd.toNat (some m.ctxs.length)
          (by
            dsimp only
            rw [List.length_append, List.length_replicate]
            omega) fd'
        rw [slot_grow, Int.toNat_of_nonneg (by omega)] at hset
        exact hset
      . have hset := @slot_set m fd.toNat (some m.ctxs.length) (by omega) fd'
        rw [Int.toNat_of_nonneg (by omega)] at hset
        exact hset

end Slot

section Step

variable {s s' : Threads} {l : Section × Outcome} {fd : Int}

def slotAfter (m : FdManager) (fd : Int) : Section → Option Nat
  | .create _ fd' _ => if fd = fd' then some m.ctxs.length else m.slot fd
  | .del fd' => if fd = fd' then none else m.slot fd
  | _ => m.slot fd

def ctxsAfter (m : FdManager) : Section → List FdCtx
  | .create _ fd stat => m.ctxs ++ [.new fd stat]
  | .set p w => m.ctxs.modify p w.apply
  | _ => m.ctxs

theorem step_spec (h : sections.step s l s') (hlen : 64 ≤ s.m.m_datas.length)
    : (∀ fd, s'.m.slot fd = slotAfter s.m fd l.1) ∧ s'.m.ctxs = ctxsAfter s.m l.1
      ∧ 64 ≤ s'.m.m_datas.length
      ∧ ∀ fd p, returns fd p l → s'.m.slot fd = some p := by
  obtain ⟨c, o⟩ := l
  have h : s.exec c = .ok (s', o) := h
  unfold Threads.exec at h
  split at h
  . next th fd auto_create =>
    split at h
    . cases h
    . split at h
      . cases h
      . next p hget =>
        injection h with h
        cases h
        refine ⟨fun _ => rfl, rfl, hlen, ?_⟩
        intro fd' q hret
        obtain ⟨rfl, hq⟩ := hret
        injection hq with hq
        rw [← get_eq_slot hget, hq]
      . split at h
        . injection h with h
          cases h
          refine ⟨fun _ => rfl, rfl, hlen, ?_⟩
          intro fd' q hret
          cases hret.2
        . injection h with h
          cases h
          refine ⟨fun _ => rfl, rfl, hlen, ?_⟩
          intro fd' q hret
          cases hret.2
  . next th fd stat =>
    split at h
    . split at h
      . cases h
      . next m hcreate =>
        injection h with h
        cases h
        obtain ⟨hctxs, hle, hslot⟩ := create_spec hcreate hlen
        refine ⟨hslot, hctxs, Nat.le_trans hlen hle, ?_⟩
        intro fd' q hret
        obtain ⟨rfl, hq⟩ := hret
        injection hq with hq
        rw [← hq]
        apply (hslot _).trans
        rw [if_pos rfl]
    . cases h
  . next fd =>
    split at h
    . cases h
    . next m hdel =>
      injection h with h
      cases h
      obtain ⟨hctxs, hsame, hslot⟩ := del_spec hdel
      refine ⟨hslot, hctxs, by dsimp only; omega, ?_⟩
      intro fd' q hret
      exact hret.elim
  . split at h
    . injection h with h
      cases h
      refine ⟨fun _ => rfl, rfl, hlen, ?_⟩
      intro fd' q hret
      exact hret.elim
    . cases h

end Step

structure Inv (m : FdManager) : Prop where
  length : 64 ≤ m.m_datas.length
  slot_lt : ∀ fd p, m.slot fd = some p → p < m.ctxs.length

theorem inv_start : Inv Threads.start.m where
  length := by decide
  slot_lt := by
    intro fd p h
    unfold slot Threads.start new at h
    dsimp only at h
    split at h
    . cases h
    . rw [List.getElem?_replicate] at h
      split at h
      . cases h
      . cases h

theorem Inv.step {s s' : Threads} {l : Section × Outcome} (h : Inv s.m) (hstep : sections.step s l s')
    : Inv s'.m := by
  obtain ⟨hslot, hctxs, hlen, -⟩ := step_spec hstep h.length
  refine ⟨hlen, ?_⟩
  intro fd p hp
  have hlt := h.slot_lt fd p
  obtain ⟨c, o⟩ := l
  rw [hslot] at hp
  rw [hctxs]
  cases c with
  | get th fd' auto_create => exact hlt hp
  | create th fd' stat =>
    dsimp only [slotAfter, ctxsAfter] at hp ⊢
    rw [List.length_append, List.length_singleton]
    split at hp
    . injection hp with hp
      omega
    . have := hlt hp
      omega
  | del fd' =>
    dsimp only [slotAfter, ctxsAfter] at hp ⊢
    split at hp
    . cases hp
    . exact hlt hp
  | set p' w =>
    dsimp only [slotAfter, ctxsAfter] at hp ⊢
    rw [List.length_modify]
    exact hlt hp

section Run

variable {s s' : Threads} {trace : List (Section × Outcome)} {fd : Int} {p : Nat}

theorem run_inv (h : sections.Run .start trace s) : Inv s.m := by
  apply h.invariant (I := fun s => Inv s.m)
  . intro s l t hinv hstep
    exact hinv.step hstep
  . exact inv_start

theorem run_slot (h : sectionsInEmpty.Run s trace s') (hinv : Inv s.m)
    (hdel : ∀ x ∈ trace, isDel fd x = false) (hslot : s.m.slot fd = some p)
    : s'.m.slot fd = some p := by
  have hboth : Inv s'.m ∧ s'.m.slot fd = some p := by
    apply h.invariant_of (I := fun s => Inv s.m ∧ s.m.slot fd = some p)
      (P := fun x => isDel fd x = false)
    . intro s l t hs hl hstep
      refine ⟨hs.1.step hstep.2, ?_⟩
      rw [(step_spec hstep.2 hs.1.length).1]
      have hcond := hstep.1
      obtain ⟨c, o⟩ := l
      cases c with
      | get th fd' auto_create => exact hs.2
      | create th fd' stat =>
        dsimp only [slotAfter, createsInEmpty] at hcond ⊢
        split
        . next heq =>
          rw [← heq, hs.2] at hcond
          cases hcond
        . exact hs.2
      | del fd' =>
        dsimp only [slotAfter]
        rw [if_neg]
        . exact hs.2
        . intro heq
          simp [isDel, heq] at hl
      | set p' w => exact hs.2
    . exact hdel
    . exact ⟨hinv, hslot⟩
  exact hboth.2

theorem run_setter {w : Setter} (h : sections.Run s trace s') (hinv : Inv s.m)
    (hover : ∀ x ∈ trace, overwrites p w x = false)
    (hset : ∃ ctx, s.m.ctxs[p]? = some ctx ∧ w.apply ctx = ctx)
    : ∃ ctx, s'.m.ctxs[p]? = some ctx ∧ w.apply ctx = ctx := by
  have hboth : Inv s'.m ∧ ∃ ctx, s'.m.ctxs[p]? = some ctx ∧ w.apply ctx = ctx := by
    apply h.invariant_of (P := fun x => overwrites p w x = false)
      (I := fun s => Inv s.m ∧ ∃ ctx, s.m.ctxs[p]? = some ctx ∧ w.apply ctx = ctx)
    . intro s l t hs hl hstep
      refine ⟨hs.1.step hstep, ?_⟩
      rw [(step_spec hstep hs.1.length).2.1]
      obtain ⟨-, ctx, hctx, happly⟩ := hs
      obtain ⟨c, o⟩ := l
      cases c with
      | get th fd' auto_create => exact ⟨ctx, hctx, happly⟩
      | create th fd' stat =>
        refine ⟨ctx, ?_, happly⟩
        have hlt := (List.getElem?_eq_some_iff.mp hctx).1
        dsimp only [ctxsAfter]
        rw [List.getElem?_append_left hlt]
        exact hctx
      | del fd' => exact ⟨ctx, hctx, happly⟩
      | set p' w' =>
        dsimp only [ctxsAfter]
        by_cases hp : p' = p
        . subst hp
          refine ⟨w'.apply ctx, ?_, ?_⟩
          . rw [List.getElem?_modify_eq, hctx]
            rfl
          . have hother : w.sameMember w' = false := by simpa [overwrites] using hl
            rw [Setter.apply_comm ctx hother, happly]
        . refine ⟨ctx, ?_, happly⟩
          rw [List.getElem?_modify_ne _ _ hp]
          exact hctx
    . exact hover
    . exact ⟨hinv, hset⟩
  exact hboth.2

theorem step_create {th : Nat} {stat : Option File} {o : Outcome}
    (h : sections.step s (.create th fd stat, o) s') : o = .ret (some s.m.ctxs.length) := by
  have h : s.exec (.create th fd stat) = .ok (s', o) := h
  unfold Threads.exec at h
  dsimp only at h
  split at h
  . split at h
    . cases h
    . injection h with h
      cases h
      rfl
  . cases h

theorem step_set {w : Setter} {o : Outcome} (h : sections.step s (.set p w, o) s')
    (hinv : Inv s.m) : ∃ ctx, s'.m.ctxs[p]? = some ctx ∧ w.apply ctx = ctx := by
  have hctxs := (step_spec h hinv.length).2.1
  have h : s.exec (.set p w) = .ok (s', o) := h
  unfold Threads.exec at h
  dsimp only at h
  split at h
  . next hlt =>
    refine ⟨w.apply s.m.ctxs[p], ?_, Setter.apply_apply _ w⟩
    rw [hctxs]
    dsimp only [ctxsAfter]
    rw [List.getElem?_modify_eq, List.getElem?_eq_getElem hlt]
    rfl
  . cases h

def Returned (trace : List (Section × Outcome)) (m : FdManager) : Prop :=
  ∀ fd p, m.slot fd = some p
    → ∃ pre l mid, trace = pre ++ l :: mid ∧ returns fd p l ∧ ∀ x ∈ mid, isDel fd x = false

theorem Returned.step {l : Section × Outcome} (h : Returned trace s.m) (hinv : Inv s.m)
    (hstep : sections.step s l s') : Returned (trace ++ [l]) s'.m := by
  intro fd p hp
  have hcarry : isDel fd l = false → s.m.slot fd = some p
      → ∃ pre l' mid, trace ++ [l] = pre ++ l' :: mid ∧ returns fd p l'
        ∧ ∀ x ∈ mid, isDel fd x = false := by
    intro hl hold
    obtain ⟨pre, l', mid, rfl, hret, hmid⟩ := h fd p hold
    refine ⟨pre, l', mid ++ [l], by simp, hret, ?_⟩
    intro x hx
    rcases List.mem_append.mp hx with hx | hx
    . exact hmid x hx
    . rw [List.mem_singleton.mp hx]
      exact hl
  rw [(step_spec hstep hinv.length).1] at hp
  obtain ⟨c, o⟩ := l
  cases c with
  | get th fd' auto_create => exact hcarry rfl hp
  | create th fd' stat =>
    dsimp only [slotAfter] at hp
    split at hp
    . next heq =>
      refine ⟨trace, _, [], rfl, ⟨heq.symm, ?_⟩, by simp⟩
      rw [step_create hstep, hp]
    . exact hcarry rfl hp
  | del fd' =>
    dsimp only [slotAfter] at hp
    split at hp
    . cases hp
    . next hne =>
      apply hcarry _ hp
      simpa [isDel] using Ne.symm hne
  | set p' w => exact hcarry rfl hp

theorem run_returned (h : sections.Run .start trace s) : Returned trace s.m := by
  have hstart : Inv Threads.start.m ∧ Returned [] Threads.start.m := by
    refine ⟨inv_start, ?_⟩
    intro fd p hp
    exact absurd (inv_start.slot_lt fd p hp) (Nat.not_lt_zero p)
  have hboth := h.history (I := fun trace s => Inv s.m ∧ Returned trace s.m)
    (by
      intro trace s l t hs hstep
      exact ⟨hs.1.step hstep, hs.2.step hs.1 hstep⟩)
    hstart
  exact hboth.2

theorem restrict_of_keepsContext (h : sections.Run .start trace s) (hkeeps : KeepsContext trace)
    : sectionsInEmpty.Run .start trace s := by
  apply h.restrict_of
  intro pre l post u u' heq hrun hstep
  obtain ⟨c, o⟩ := l
  cases c with
  | create th fd stat =>
    apply Option.isNone_iff_eq_none.mpr
    apply Option.eq_none_iff_forall_ne_some.mpr
    intro p hp
    obtain ⟨pre', l', mid, rfl, hret, hmid⟩ := run_returned hrun fd p hp
    have hsame := hkeeps.same pre' l' mid (.create th fd stat, o) post fd p u.m.ctxs.length
      (by rw [heq]; simp) hret ⟨rfl, step_create hstep⟩ hmid
    have hlt := (run_inv hrun).slot_lt fd p hp
    omega
  | _ => rfl

theorem stored_of_restrict {pre mid : List (Section × Outcome)} {l : Section × Outcome}
    (h : sectionsInEmpty.Run .start (pre ++ l :: mid) s) (hret : returns fd p l)
    (hmid : ∀ x ∈ mid, isDel fd x = false) : s.m.slot fd = some p := by
  obtain ⟨u, hpre, hrest⟩ := h.of_append
  cases hrest with
  | cons hstep hrun =>
    have hinv := run_inv hpre.of_restrict
    have hslot := (step_spec hstep.2 hinv.length).2.2.2 fd p hret
    exact run_slot hrun (hinv.step hstep.2) hmid hslot

theorem keepsContext_of_restrict (h : sectionsInEmpty.Run .start trace s)
    : KeepsContext trace := by
  constructor
  . intro pre l mid l' post fd p q heq hret hret' hmid
    have heq' : trace = (pre ++ l :: mid) ++ l' :: post := by
      rw [heq]
      simp
    rw [heq'] at h
    obtain ⟨u, hpre, hrest⟩ := h.of_append
    cases hrest with
    | cons hstep hrun =>
      have hstored := stored_of_restrict hpre hret hmid
      have hinv := run_inv hpre.of_restrict
      have hdel : isDel fd l' = false := by
        obtain ⟨c, o⟩ := l'
        cases c with
        | del fd' => exact hret'.elim
        | _ => rfl
      have hstored' := run_slot (.cons hstep (.nil _)) hinv (by simpa using hdel) hstored
      rw [(step_spec hstep.2 hinv.length).2.2.2 fd q hret'] at hstored'
      injection hstored' with hstored'
      exact hstored'.symm
  . intro pre l mid post fd p s' heq hrun hret hmid
    have heq' : trace = (pre ++ l :: mid) ++ post := by
      rw [heq]
      simp
    rw [heq'] at h
    exact stored_of_restrict (h.restrict_prefix LTS.ofExcept_det hrun) hret hmid
  . intro pre l mid w o mid' post fd p s' heq hrun hret hmid hmid' hover
    have heq' : trace = (pre ++ l :: (mid ++ (.set p w, o) :: mid')) ++ post := by
      rw [heq]
      simp
    rw [heq'] at h
    have hrun' := h.restrict_prefix LTS.ofExcept_det hrun
    have hslot : s'.m.slot fd = some p := by
      apply stored_of_restrict hrun' hret
      intro x hx
      rcases List.mem_append.mp hx with hx | hx
      . exact hmid x hx
      . rcases List.mem_cons.mp hx with rfl | hx
        . rfl
        . exact hmid' x hx
    have hsplit : pre ++ l :: (mid ++ (.set p w, o) :: mid')
        = (pre ++ l :: mid) ++ (.set p w, o) :: mid' := by simp
    rw [hsplit] at hrun
    obtain ⟨u, hpre, hrest⟩ := hrun.of_append
    cases hrest with
    | cons hstep hrest =>
      have hinv := run_inv hpre
      obtain ⟨ctx, hctx, happly⟩ := run_setter hrest (hinv.step hstep) hover (step_set hstep hinv)
      exact ⟨ctx, hslot, hctx, happly⟩

theorem run_keepsContext_iff (h : sections.Run .start trace s)
    : KeepsContext trace ↔ sectionsInEmpty.Run .start trace s := by
  constructor
  . apply restrict_of_keepsContext h
  . apply keepsContext_of_restrict

end Run

def getAgain : List (Section × Outcome) :=
  [
    (.get 0 70 true, .silent),
    (.create 0 70 (some ⟨0, true⟩), .ret (some 0)),
    (.set 0 (.setTimeout .SO_RCVTIMEO 1000), .silent),
    (.get 1 70 true, .ret (some 0))
  ]

theorem run_keepsContext_getAgain : ∃ s, sections.Run .start getAgain s ∧ KeepsContext getAgain := by
  have hreplay : (LTS.replayIf Threads.exec createsInEmpty .start getAgain).isSome = true := by
    decide +kernel
  obtain ⟨s, hs⟩ := Option.isSome_iff_exists.mp hreplay
  have hrun : sectionsInEmpty.Run .start getAgain s := LTS.run_of_replayIf hs
  exact ⟨s, hrun.of_restrict, (run_keepsContext_iff hrun.of_restrict).mpr hrun⟩

-- both threads find no context, and the second one stores its own over the first
def getTwice : List (Section × Outcome) :=
  [
    (.get 0 5 true, .silent),
    (.get 1 5 true, .silent),
    (.create 0 5 (some ⟨0, true⟩), .ret (some 0)),
    (.set 0 (.setTimeout .SO_RCVTIMEO 1000), .silent),
    (.create 1 5 (some ⟨0, true⟩), .ret (some 1)),
    (.get 2 5 false, .ret (some 1))
  ]

theorem not_keepsContext_getTwice
    : ∃ s, sections.Run .start getTwice s
        ∧ s.m.ctxs.map (fun ctx => ctx.getTimeout .SO_RCVTIMEO) = [1000, forever]
        ∧ ¬KeepsContext getTwice := by
  have hreplay : (LTS.replay Threads.exec .start getTwice).any (fun s =>
      s.m.ctxs.map (fun ctx => ctx.getTimeout .SO_RCVTIMEO) = [1000, forever]) = true := by
    decide +kernel
  rw [Option.any_eq_true] at hreplay
  obtain ⟨s, hs, htimeout⟩ := hreplay
  refine ⟨s, LTS.run_of_replay hs, of_decide_eq_true htimeout, ?_⟩
  intro hkeeps
  have hsame := hkeeps.same (getTwice.take 2) (.create 0 5 (some ⟨0, true⟩), .ret (some 0))
    [(.set 0 (.setTimeout .SO_RCVTIMEO 1000), .silent)]
    (.create 1 5 (some ⟨0, true⟩), .ret (some 1)) [(.get 2 5 false, .ret (some 1))] 5 0 1 rfl
    ⟨rfl, rfl⟩ ⟨rfl, rfl⟩ (by decide)
  cases hsame

end FdManager
end CXS
