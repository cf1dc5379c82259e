import Mathlib.Algebra.Group.Int.Defs
import CXS.Hook.Basic

/-!
This module contains the bounds tests of `FdManager` from `code/fd_manager.cc` and of `IOManager` from
`code/iomanager.cc`, and how the two containers that they guard grow.

A size is cast to `int` before it is compared. A step is what is done under one lock: `get` and
`addEvent` give the read lock back before they take the write lock, and what they do under the second
one is a step of its own, with steps of other threads in between. There is as much memory as it takes.
-/

namespace CXS

structure Sizes where
  m_datas : Nat
  m_fdContexts : Nat
  creating : List Int32
  resizing : List Int32
  deriving DecidableEq, Repr

namespace Sizes

inductive Fault where
  | outOfBounds
  | badSize
  deriving DecidableEq, Repr

inductive Section where
  | get (fd : Int32) (auto_create occupied : Bool)
  | create (fd : Int32)
  | del (fd : Int32)
  | addEvent (fd : Int32)
  | resize (fd : Int32)
  | delEvent (fd : Int32)
  | cancelEvent (fd : Int32)
  | cancelAll (fd : Int32)
  deriving DecidableEq, Repr

def new : Sizes where
  m_datas := 64
  m_fdContexts := 32
  creating := []
  resizing := []

-- `(int)size`
def toInt (size : Nat) : Int :=
  (size : Int).bmod (2 ^ 32)

def index {α : Type} (size : Nat) (fd : Int32) (a : α) : Except Fault α :=
  if 0 ≤ fd.toInt ∧ fd.toInt < size then
    .ok a
  else
    .error .outOfBounds

-- `fd * 1.5` as a `size_t`
def grown (fd : Int32) : Except Fault Nat :=
  if fd.toInt < 0 then
    .error .badSize
  else
    .ok (fd.toInt.toNat * 3 / 2)

def guarded (s : Sizes) (size : Nat) (fd : Int32) : Except Fault Sizes :=
  if toInt size ≤ fd.toInt then
    .ok s
  else
    index size fd s

def get (s : Sizes) (fd : Int32) (auto_create occupied : Bool) : Except Fault Sizes :=
  if toInt s.m_datas ≤ fd.toInt then
    if auto_create then
      .ok { s with creating := fd :: s.creating }
    else
      .ok s
  else if occupied || !auto_create then
    index s.m_datas fd s
  else
    index s.m_datas fd { s with creating := fd :: s.creating }

def create (s : Sizes) (fd : Int32) : Except Fault Sizes :=
  if toInt s.m_datas ≤ fd.toInt then
    match grown fd with
    | .error e => .error e
    | .ok size => index size fd { s with m_datas := size, creating := s.creating.erase fd }
  else
    index s.m_datas fd { s with creating := s.creating.erase fd }

def addEvent (s : Sizes) (fd : Int32) : Except Fault Sizes :=
  if toInt s.m_fdContexts > fd.toInt then
    index s.m_fdContexts fd s
  else
    .ok { s with resizing := fd :: s.resizing }

def resize (s : Sizes) (fd : Int32) : Except Fault Sizes :=
  match grown fd with
  | .error e => .error e
  | .ok size => index size fd { s with m_fdContexts := size, resizing := s.resizing.erase fd }

def perform (s : Sizes) : Section → Option (Except Fault Sizes)
  | .get fd auto_create occupied => some (s.get fd auto_create occupied)
  | .create fd => if fd ∈ s.creating then some (s.create fd) else none
  | .del fd => some (s.guarded s.m_datas fd)
  | .addEvent fd => some (s.addEvent fd)
  | .resize fd => if fd ∈ s.resizing then some (s.resize fd) else none
  | .delEvent fd => some (s.guarded s.m_fdContexts fd)
  | .cancelEvent fd => some (s.guarded s.m_fdContexts fd)
  | .cancelAll fd => some (s.guarded s.m_fdContexts fd)

def getRecvTimeOut (m_sock : Int32) : Section :=
  .get m_sock false true

def lts : LTS Sizes Section where
  step s sec s' := s.perform sec = some (.ok s')

/-- In every order of the steps in `secs` every access is inside its container. -/
def Indexes (secs : List Section) : Prop :=
  ∀ pre sec post s, secs = pre ++ sec :: post → lts.Run new pre s
    → ∀ r, s.perform sec = some r → r.isOk

-- not negative, or turned away because the size has become negative as an `int`
def Admitted (size : Nat) (fd : Int32) : Prop :=
  0 ≤ fd.toInt ∨ (2 ^ 31 ≤ size ∧ size ≤ fd.toInt + 2 ^ 32)

def InBounds (s : Sizes) : Section → Prop
  | .get fd _ _ => Admitted s.m_datas fd
  | .create fd => 0 ≤ fd.toInt ∧ (s.m_datas < 2 ^ 31 ∨ 2 ≤ fd.toInt)
  | .del fd => Admitted s.m_datas fd
  | .addEvent fd => Admitted s.m_fdContexts fd
  | .resize fd => 2 ≤ fd.toInt
  | .delEvent fd => Admitted s.m_fdContexts fd
  | .cancelEvent fd => Admitted s.m_fdContexts fd
  | .cancelAll fd => Admitted s.m_fdContexts fd

structure Inv (s : Sizes) : Prop where
  datas_ge : 3 ≤ s.m_datas
  datas_lt : s.m_datas < 2 ^ 32
  contexts_lt : s.m_fdContexts < 2 ^ 32

theorem isOk_index {α : Type} (size : Nat) (fd : Int32) (a : α)
    : (index size fd a).isOk ↔ 0 ≤ fd.toInt ∧ fd.toInt < size := by
  unfold index
  split
  . next h => exact iff_of_true rfl h
  . next h => exact iff_of_false Bool.false_ne_true h

section Size

variable {size : Nat} (hsize : size < 2 ^ 32) (fd : Int32)

include hsize

theorem toInt_eq : toInt size = if size < 2 ^ 31 then (size : Int) else size - 2 ^ 32 := by
  unfold toInt
  rw [Int.bmod_def]
  split <;> split <;> omega

theorem admitted_of_le (h : toInt size ≤ fd.toInt) : Admitted size fd := by
  have hint := toInt_eq hsize
  unfold Admitted
  split at hint <;> omega

theorem isOk_index_of_not_le {α : Type} (a : α) (h : ¬ toInt size ≤ fd.toInt)
    : (index size fd a).isOk ↔ Admitted size fd := by
  have hint := toInt_eq hsize
  rw [isOk_index]
  unfold Admitted
  split at hint <;> omega

theorem isOk_guarded (s : Sizes) : (s.guarded size fd).isOk ↔ Admitted size fd := by
  unfold guarded
  split
  . next h => exact iff_of_true rfl (admitted_of_le hsize fd h)
  . next h => exact isOk_index_of_not_le hsize fd s h

end Size

theorem isOk_grown {α : Type} (fd : Int32) (f : Nat → α)
    : (match grown fd with
        | .error e => .error e
        | .ok size => index size fd (f size) : Except Fault α).isOk ↔ 2 ≤ fd.toInt := by
  unfold grown
  split
  . next h =>
    split at h
    . exact iff_of_false Bool.false_ne_true (by omega)
    . cases h
  . next size h =>
    split at h
    . cases h
    . injection h with h
      rw [isOk_index]
      omega

section Step

variable {s : Sizes} (hinv : Inv s) (fd : Int32)

include hinv

theorem isOk_get (auto_create occupied : Bool)
    : (s.get fd auto_create occupied).isOk ↔ Admitted s.m_datas fd := by
  unfold get
  split
  . next h =>
    split
    . exact iff_of_true rfl (admitted_of_le hinv.datas_lt fd h)
    . exact iff_of_true rfl (admitted_of_le hinv.datas_lt fd h)
  . next h =>
    split
    . exact isOk_index_of_not_le hinv.datas_lt fd _ h
    . exact isOk_index_of_not_le hinv.datas_lt fd _ h

theorem isOk_create
    : (s.create fd).isOk ↔ 0 ≤ fd.toInt ∧ (s.m_datas < 2 ^ 31 ∨ 2 ≤ fd.toInt) := by
  have hge := hinv.datas_ge
  have hlt := hinv.datas_lt
  have hint := toInt_eq hinv.datas_lt
  unfold create
  split
  . rw [isOk_grown]
    split at hint <;> omega
  . rw [isOk_index]
    split at hint <;> omega

theorem isOk_addEvent : (s.addEvent fd).isOk ↔ Admitted s.m_fdContexts fd := by
  unfold addEvent
  split
  . next h => exact isOk_index_of_not_le hinv.contexts_lt fd _ (by omega)
  . next h => exact iff_of_true rfl (admitted_of_le hinv.contexts_lt fd (by omega))

theorem perform_isOk_iff {sec : Section} {r : Except Fault Sizes} (h : s.perform sec = some r)
    : r.isOk ↔ InBounds s sec := by
  cases sec with
  | get fd auto_create occupied =>
    injection h with h
    rw [← h]
    exact isOk_get hinv fd auto_create occupied
  | create fd =>
    dsimp only [perform] at h
    split at h
    . injection h with h
      rw [← h]
      exact isOk_create hinv fd
    . cases h
  | del fd =>
    injection h with h
    rw [← h]
    exact isOk_guarded hinv.datas_lt fd s
  | addEvent fd =>
    injection h with h
    rw [← h]
    exact isOk_addEvent hinv fd
  | resize fd =>
    dsimp only [perform] at h
    split at h
    . injection h with h
      rw [← h]
      exact isOk_grown fd _
    . cases h
  | delEvent fd =>
    injection h with h
    rw [← h]
    exact isOk_guarded hinv.contexts_lt fd s
  | cancelEvent fd =>
    injection h with h
    rw [← h]
    exact isOk_guarded hinv.contexts_lt fd s
  | cancelAll fd =>
    injection h with h
    rw [← h]
    exact isOk_guarded hinv.contexts_lt fd s

end Step

theorem grown_lt {fd : Int32} {size : Nat} (h : grown fd = .ok size) : size < 2 ^ 32 := by
  have hlt := fd.toInt_lt
  unfold grown at h
  split at h
  . cases h
  . injection h with h
    omega

theorem index_eq_ok {α : Type} {size : Nat} {fd : Int32} {a b : α} (h : index size fd a = .ok b)
    : b = a ∧ 0 ≤ fd.toInt ∧ fd.toInt < size := by
  unfold index at h
  split at h
  . next hin =>
    injection h with h
    exact ⟨h.symm, hin⟩
  . cases h

section Run

variable {s s' : Sizes}

theorem guarded_eq_ok {size : Nat} {fd : Int32} (h : s.guarded size fd = .ok s') : s' = s := by
  unfold guarded at h
  split at h
  . injection h with h
    exact h.symm
  . exact (index_eq_ok h).1

theorem get_inv (hinv : Inv s) {fd : Int32} {auto_create occupied : Bool}
    (h : s.get fd auto_create occupied = .ok s') : Inv s' := by
  unfold get at h
  split at h
  . split at h
    . injection h with h
      subst h
      exact ⟨hinv.datas_ge, hinv.datas_lt, hinv.contexts_lt⟩
    . injection h with h
      subst h
      exact hinv
  . split at h
    . rw [(index_eq_ok h).1]
      exact hinv
    . rw [(index_eq_ok h).1]
      exact ⟨hinv.datas_ge, hinv.datas_lt, hinv.contexts_lt⟩

theorem create_inv (hinv : Inv s) {fd : Int32} (h : s.create fd = .ok s') : Inv s' := by
  unfold create at h
  split at h
  . split at h
    . cases h
    . next size hgrown =>
      obtain ⟨heq, hnonneg, hlt⟩ := index_eq_ok h
      have hsize := grown_lt hgrown
      rw [heq]
      refine ⟨?_, hsize, hinv.contexts_lt⟩
      unfold grown at hgrown
      split at hgrown
      . cases hgrown
      . injection hgrown with hgrown
        dsimp only
        omega
  . rw [(index_eq_ok h).1]
    exact ⟨hinv.datas_ge, hinv.datas_lt, hinv.contexts_lt⟩

theorem addEvent_inv (hinv : Inv s) {fd : Int32} (h : s.addEvent fd = .ok s') : Inv s' := by
  unfold addEvent at h
  split at h
  . rw [(index_eq_ok h).1]
    exact hinv
  . injection h with h
    subst h
    exact ⟨hinv.datas_ge, hinv.datas_lt, hinv.contexts_lt⟩

theorem resize_inv (hinv : Inv s) {fd : Int32} (h : s.resize fd = .ok s') : Inv s' := by
  unfold resize at h
  split at h
  . cases h
  . next size hgrown =>
    rw [(index_eq_ok h).1]
    exact ⟨hinv.datas_ge, hinv.datas_lt, grown_lt hgrown⟩

theorem step_inv (hinv : Inv s) {sec : Section} (h : lts.step s sec s') : Inv s' := by
  cases sec with
  | get fd auto_create occupied => exact get_inv hinv (Option.some.inj h)
  | create fd =>
    dsimp only [lts, perform] at h
    split at h
    . exact create_inv hinv (Option.some.inj h)
    . cases h
  | addEvent fd => exact addEvent_inv hinv (Option.some.inj h)
  | resize fd =>
    dsimp only [lts, perform] at h
    split at h
    . exact resize_inv hinv (Option.some.inj h)
    . cases h
  | _ =>
    rw [guarded_eq_ok (Option.some.inj h)]
    exact hinv

end Run

theorem inv_new : Inv new :=
  ⟨by decide, by decide, by decide⟩

theorem indexes_iff (secs : List Section)
    : Indexes secs
        ↔ ∀ pre sec post s, secs = pre ++ sec :: post → lts.Run new pre s
            → (s.perform sec).isSome → InBounds s sec := by
  have hreach (pre : List Section) (s : Sizes) (hrun : lts.Run new pre s) : Inv s :=
    hrun.invariant (fun _ _ _ hs hstep => step_inv hs hstep) inv_new
  constructor
  . intro h pre sec post s heq hrun hsome
    obtain ⟨r, hr⟩ := Option.isSome_iff_exists.mp hsome
    exact (perform_isOk_iff (hreach pre s hrun) hr).mp (h pre sec post s heq hrun r hr)
  . intro h pre sec post s heq hrun r hr
    rw [perform_isOk_iff (hreach pre s hrun) hr]
    apply h pre sec post s heq hrun
    rw [hr]
    rfl

theorem not_indexes_getRecvTimeOut : ¬ Indexes [getRecvTimeOut (-1)] := by
  intro h
  have hok := h [] (getRecvTimeOut (-1)) [] new rfl (.nil new) (.error .outOfBounds) (by decide)
  exact absurd hok (by decide)

section Small

def Section.fd : Section → Int32
  | .get fd _ _ => fd
  | .create fd => fd
  | .del fd => fd
  | .addEvent fd => fd
  | .resize fd => fd
  | .delEvent fd => fd
  | .cancelEvent fd => fd
  | .cancelAll fd => fd

def Section.small (sec : Section) : Prop :=
  0 ≤ sec.fd.toInt ∧ sec.fd.toInt ≤ 1431655765

structure Small (s : Sizes) : Prop where
  inv : Inv s
  datas_lt : s.m_datas < 2 ^ 31
  contexts_ge : 3 ≤ s.m_fdContexts
  contexts_lt : s.m_fdContexts < 2 ^ 31
  resizing : ∀ fd ∈ s.resizing, 2 ≤ fd.toInt

variable {s s' : Sizes} {fd : Int32}

theorem get_small (hs : Small s) {auto_create occupied : Bool}
    (h : s.get fd auto_create occupied = .ok s') : Small s' := by
  have hinv := get_inv hs.inv h
  unfold get at h
  split at h
  . split at h
    . injection h with h
      subst h
      exact ⟨hinv, hs.datas_lt, hs.contexts_ge, hs.contexts_lt, hs.resizing⟩
    . injection h with h
      subst h
      exact hs
  . split at h
    . rw [(index_eq_ok h).1]
      exact hs
    . have heq := (index_eq_ok h).1
      subst heq
      exact ⟨hinv, hs.datas_lt, hs.contexts_ge, hs.contexts_lt, hs.resizing⟩

theorem grown_small {size : Nat} (hfd : fd.toInt ≤ 1431655765) (h : grown fd = .ok size)
    : size < 2 ^ 31 := by
  unfold grown at h
  split at h
  . cases h
  . injection h with h
    omega

theorem create_small (hs : Small s) (hfd : fd.toInt ≤ 1431655765) (h : s.create fd = .ok s')
    : Small s' := by
  have hinv := create_inv hs.inv h
  unfold create at h
  split at h
  . split at h
    . cases h
    . next size hgrown =>
      have heq := (index_eq_ok h).1
      subst heq
      exact ⟨hinv, grown_small hfd hgrown, hs.contexts_ge, hs.contexts_lt, hs.resizing⟩
  . have heq := (index_eq_ok h).1
    subst heq
    exact ⟨hinv, hs.datas_lt, hs.contexts_ge, hs.contexts_lt, hs.resizing⟩

theorem addEvent_small (hs : Small s) (h : s.addEvent fd = .ok s') : Small s' := by
  have hinv := addEvent_inv hs.inv h
  have hge := hs.contexts_ge
  have hint := toInt_eq hs.inv.contexts_lt
  rw [if_pos hs.contexts_lt] at hint
  unfold addEvent at h
  split at h
  . rw [(index_eq_ok h).1]
    exact hs
  . injection h with h
    subst h
    refine ⟨hinv, hs.datas_lt, hge, hs.contexts_lt, ?_⟩
    rw [List.forall_mem_cons]
    exact ⟨by omega, hs.resizing⟩

theorem resize_small (hs : Small s) (hfd : fd.toInt ≤ 1431655765) (h : s.resize fd = .ok s')
    : Small s' := by
  have hinv := resize_inv hs.inv h
  unfold resize at h
  split at h
  . cases h
  . next size hgrown =>
    obtain ⟨heq, hnonneg, hlt⟩ := index_eq_ok h
    have hsize := grown_small hfd hgrown
    subst heq
    refine ⟨hinv, hs.datas_lt, ?_, hsize, ?_⟩
    . unfold grown at hgrown
      split at hgrown
      . cases hgrown
      . injection hgrown with hgrown
        dsimp only
        omega
    . intro fd' hfd'
      exact hs.resizing fd' (List.mem_of_mem_erase hfd')

theorem step_small (hs : Small s) {sec : Section} (hsec : sec.small) (h : lts.step s sec s')
    : Small s' := by
  cases sec with
  | get fd auto_create occupied => exact get_small hs (Option.some.inj h)
  | create fd =>
    dsimp only [lts, perform] at h
    split at h
    . exact create_small hs hsec.2 (Option.some.inj h)
    . cases h
  | addEvent fd => exact addEvent_small hs (Option.some.inj h)
  | resize fd =>
    dsimp only [lts, perform] at h
    split at h
    . exact resize_small hs hsec.2 (Option.some.inj h)
    . cases h
  | _ =>
    rw [guarded_eq_ok (Option.some.inj h)]
    exact hs

theorem small_new : Small new :=
  ⟨inv_new, by decide, by decide, by decide, by simp [new]⟩

theorem inBounds_small (hs : Small s) {sec : Section} (hsec : sec.small)
    (hsome : (s.perform sec).isSome) : InBounds s sec := by
  cases sec with
  | create fd => exact ⟨hsec.1, .inl hs.datas_lt⟩
  | resize fd =>
    dsimp only [perform] at hsome
    split at hsome
    . next hmem => exact hs.resizing fd hmem
    . cases hsome
  | _ => exact .inl hsec.1

theorem indexes_of_small (secs : List Section) (hsecs : ∀ sec ∈ secs, sec.small) : Indexes secs := by
  rw [indexes_iff]
  intro pre sec post s heq hrun hsome
  rw [heq, List.forall_mem_append, List.forall_mem_cons] at hsecs
  have hs : Small s := by
    apply hrun.invariant_of (I := Small) (P := Section.small)
    . intro s l t hs hl hstep
      exact step_small hs hl hstep
    . exact hsecs.1
    . exact small_new
  exact inBounds_small hs hsecs.2.1 hsome

end Small

section FdManager

variable (m : FdManager) {s : Sizes} (hinv : Inv s) (hsize : s.m_datas = m.m_datas.length)
  (hlt : s.m_datas < 2 ^ 31) (fd : Int32)

include hsize hlt

theorem toInt_length : toInt s.m_datas = m.m_datas.length := by
  rw [toInt_eq (by omega), if_pos hlt, hsize]

include hinv

theorem get_agrees (auto_create occupied : Bool)
    : (s.get fd auto_create occupied).isOk ↔ (m.get fd.toInt).isOk := by
  rw [isOk_get hinv]
  unfold Admitted FdManager.get
  split
  . exact iff_of_true (.inl (by omega)) rfl
  . split
    . exact iff_of_false (by omega) Bool.false_ne_true
    . exact iff_of_true (.inl (by omega)) rfl

theorem del_agrees : (s.guarded s.m_datas fd).isOk ↔ (m.del fd.toInt).isOk := by
  rw [isOk_guarded hinv.datas_lt]
  unfold Admitted FdManager.del
  split
  . exact iff_of_true (.inl (by omega)) rfl
  . split
    . exact iff_of_false (by omega) Bool.false_ne_true
    . exact iff_of_true (.inl (by omega)) rfl

omit hsize in
theorem create_agrees (stat : Option File)
    : (s.create fd).isOk ↔ (m.create fd.toInt stat).isOk := by
  rw [isOk_create hinv]
  unfold FdManager.create
  split
  . exact iff_of_false (by omega) Bool.false_ne_true
  . exact iff_of_true ⟨by omega, .inl hlt⟩ rfl

theorem create_size (stat : Option File) {s' : Sizes} {m' : FdManager} (h : s.create fd = .ok s')
    (hm : m.create fd.toInt stat = .ok m') : s'.m_datas = m'.m_datas.length := by
  have hint := toInt_length m hsize hlt
  have hge := hinv.datas_ge
  unfold FdManager.create at hm
  split at hm
  . cases hm
  . next hnonneg =>
    rw [← Except.ok.inj hm]
    dsimp only
    rw [List.length_set]
    unfold create at h
    split at h
    . next hle =>
      rw [if_pos (by omega), List.length_append, List.length_replicate]
      split at h
      . cases h
      . next size hgrown =>
        rw [(index_eq_ok h).1]
        unfold grown at hgrown
        rw [if_neg hnonneg] at hgrown
        have heq := Except.ok.inj hgrown
        dsimp only
        omega
    . next hle =>
      rw [if_neg (by omega), (index_eq_ok h).1]
      exact hsize

end FdManager

end Sizes
end CXS
