import CXS.Config.Basic
import Mathlib.Data.Finset.Basic

/-!
This module contains the calls of `ConfigVar::setValue` on one variable by several threads. `setValue`
compares the values and calls the listeners under a read lock, lets go of the lock and assigns the new
value under a write lock. Other threads can hold the read lock at the same time, so every call of a
listener is a step, and so is what a thread does under the write lock.

A listener is the key that it has in `m_cbs`. The order in which the loop over `m_cbs` calls them and
whether one of them throws are up to the arguments of the steps, and so is the key that `addListener`
takes from the counter that all variables of one type share.
-/

namespace CXS
namespace ConfigVar

variable {V : Type}

inductive SetValuePc (V : Type) where
  | out
  | notifying (value : V) (rest : Finset Nat)
  | assigning (value : V)
  deriving DecidableEq

structure Threads (V : Type) where
  m_value : V
  m_cbs : Finset Nat
  readers : Nat
  pc : Nat → SetValuePc V

inductive Section (V : Type) where
  | compare (th : Nat) (value : V)
  | notify (th key : Nat) (throws : Bool)
  | unlock (th : Nat)
  | assign (th : Nat)
  | addListener (key : Nat)
  | delListener (key : Nat)
  | clearListener
  deriving DecidableEq, Repr

def Section.isNotify : Section V → Bool
  | .notify _ _ _ => true
  | _ => false

inductive Outcome (V : Type) where
  | silent
  | called (key : Nat) (old_value new_value : V)
  deriving DecidableEq, Repr

inductive Fault where
  | locked
  | noResult
  deriving DecidableEq, Repr

namespace Threads

def start (value : V) (cbs : Finset Nat) : Threads V where
  m_value := value
  m_cbs := cbs
  readers := 0
  pc _ := .out

def setPc (s : Threads V) (th : Nat) (pc : SetValuePc V) : Threads V :=
  { s with pc := fun i => if i = th then pc else s.pc i }

def setCbs (s : Threads V) (cbs : Finset Nat) : Except Fault (Threads V × Outcome V) :=
  if s.readers = 0 then .ok ({ s with m_cbs := cbs }, .silent) else .error .locked

variable [BEq V]

def exec (s : Threads V) : Section V → Except Fault (Threads V × Outcome V)
  | .compare th value =>
    match s.pc th with
    | .out =>
      if value == s.m_value then
        .ok (s, .silent)
      else
        .ok ({ s with readers := s.readers + 1 }.setPc th (.notifying value s.m_cbs), .silent)
    | _ => .error .noResult
  | .notify th key throws =>
    match s.pc th with
    | .notifying value rest =>
      if key ∈ rest then
        if throws then
          -- the exception leaves `setValue`, and the destructor of the lock lets go of it
          .ok ({ s with readers := s.readers - 1 }.setPc th .out, .called key s.m_value value)
        else
          .ok (s.setPc th (.notifying value (rest.erase key)), .called key s.m_value value)
      else
        .error .noResult
    | _ => .error .noResult
  | .unlock th =>
    match s.pc th with
    | .notifying value rest =>
      if rest = ∅ then
        .ok ({ s with readers := s.readers - 1 }.setPc th (.assigning value), .silent)
      else
        .error .noResult
    | _ => .error .noResult
  | .assign th =>
    match s.pc th with
    | .assigning value =>
      if s.readers = 0 then
        .ok ({ s with m_value := value }.setPc th .out, .silent)
      else
        .error .locked
    | _ => .error .noResult
  | .addListener key => s.setCbs (insert key s.m_cbs)
  | .delListener key => s.setCbs (s.m_cbs.erase key)
  | .clearListener => s.setCbs ∅

def Idle (s : Threads V) : Prop :=
  ∀ th, s.pc th = .out

-- a `setValue` that changes the value starts when no other is in progress, and no listener throws
def InTurn (s : Threads V) : Section V → Prop
  | .compare _ value => (value == s.m_value) = true ∨ s.Idle
  | .notify _ _ throws => throws = false
  | _ => True

end Threads

def sections (V : Type) [BEq V] : LTS (Threads V) (Section V × Outcome V) :=
  LTS.ofExcept Threads.exec

def sectionsInTurn (V : Type) [BEq V] : LTS (Threads V) (Section V × Outcome V) :=
  (sections V).restrict fun s l => s.InTurn l.1

def hear (key : Nat) (v : Option V) : Section V × Outcome V → Option V
  | (_, .called key' _ new_value) => if key' = key then some new_value else v
  | (.addListener key', _) => if key' = key then none else v
  | (.delListener key', _) => if key' = key then none else v
  | (.clearListener, _) => none
  | _ => v

/--
The `new_value` that was most recently passed to a listener. A listener that is registered since the
start knows the value of the start until it is called, and `none` is known by one that is not
registered or has been registered later and not been called yet.
-/
def told (value : V) (cbs : Finset Nat) (key : Nat) (trace : List (Section V × Outcome V))
    : Option V :=
  trace.foldl (hear key) (if key ∈ cbs then some value else none)

/--
When no `setValue` is in progress the listeners have been told the current value, and the `old_value`
of a call of a listener is what it was told before.
-/
structure KeepsListeners [BEq V] (value : V) (cbs : Finset Nat)
    (trace : List (Section V × Outcome V)) : Prop where
  last : ∀ pre post s key v, trace = pre ++ post → (sections V).Run (.start value cbs) pre s
    → s.Idle → told value cbs key pre = some v → s.m_value = v
  chain : ∀ pre c key old_value new_value post v,
    trace = pre ++ (c, .called key old_value new_value) :: post → told value cbs key pre = some v
    → old_value = v

section Told

variable {s : Threads V}

theorem told_nil {value v : V} {cbs : Finset Nat} {key : Nat}
    (h : told value cbs key [] = some v) : key ∈ cbs ∧ v = value := by
  unfold told at h
  dsimp only [List.foldl_nil] at h
  split at h
  next hmem =>
    injection h with h
    exact ⟨hmem, h.symm⟩
  next => cases h

theorem told_append (value : V) (cbs : Finset Nat) (key : Nat) (pre : List (Section V × Outcome V))
    (l : Section V × Outcome V)
    : told value cbs key (pre ++ [l]) = hear key (told value cbs key pre) l := by
  unfold told
  rw [List.foldl_append]
  rfl

end Told

namespace Threads

section SetPc

variable {s : Threads V} {th th' : Nat} {pc : SetValuePc V}

@[simp]
theorem setPc_self : (s.setPc th pc).pc th = pc := by
  simp [setPc]

theorem setPc_of_ne (h : th' ≠ th) : (s.setPc th pc).pc th' = s.pc th' := by
  simp [setPc, h]

@[simp]
theorem setPc_cbs : (s.setPc th pc).m_cbs = s.m_cbs := by
  rfl

@[simp]
theorem setPc_readers : (s.setPc th pc).readers = s.readers := by
  rfl

end SetPc

def valueFor (s : Threads V) (key : Nat) : SetValuePc V → V
  | .out => s.m_value
  | .notifying value rest => if key ∈ rest then s.m_value else value
  | .assigning value => value

structure Heard (known : Nat → Option V) (s : Threads V) (th : Nat) : Prop where
  others : ∀ th', th' ≠ th → s.pc th' = .out
  cbs : ∀ key v, known key = some v → key ∈ s.m_cbs
  rest : ∀ value rest, s.pc th = .notifying value rest → 0 < s.readers ∧ rest ⊆ s.m_cbs
  value : ∀ key v, known key = some v → v = s.valueFor key (s.pc th)

section Step

variable {known known' : Nat → Option V} {s s' : Threads V} {th th' key : Nat} {value : V}
  {o : Outcome V}

theorem Heard.thread_eq (h : Heard known s th) {pc : SetValuePc V} (hpc : s.pc th' = pc)
    (hne : pc ≠ .out) : th' = th := by
  by_contra hth
  apply hne
  rw [← hpc]
  exact h.others th' hth

theorem heard_start (value : V) (cbs : Finset Nat)
    : Heard (fun key => told value cbs key []) (start value cbs) 0 where
  others := by
    intro th' _
    rfl
  cbs := by
    intro key v hknown
    exact (told_nil hknown).1
  rest := by
    intro value rest hpc
    cases hpc
  value := by
    intro key v hknown
    exact (told_nil hknown).2

theorem Heard.setPc (h : Heard known s th) {pc : SetValuePc V} (hcbs : s'.m_cbs = s.m_cbs)
    (hpcs : s'.pc = s.pc)
    (hknown : ∀ key v, known' key = some v → key ∈ s.m_cbs ∧ v = s'.valueFor key pc)
    (hrest : ∀ value rest, pc = .notifying value rest → 0 < s'.readers ∧ rest ⊆ s.m_cbs)
    : Heard known' (s'.setPc th pc) th := by
  constructor
  . intro th' hne
    rw [setPc_of_ne hne, hpcs]
    exact h.others th' hne
  . intro key v hv
    rw [setPc_cbs, hcbs]
    exact (hknown key v hv).1
  . intro value rest hpc
    rw [setPc_self] at hpc
    rw [setPc_cbs, setPc_readers, hcbs]
    exact hrest value rest hpc
  . intro key v hv
    rw [setPc_self]
    exact (hknown key v hv).2

theorem Heard.setCbs (h : Heard known s th) {cbs : Finset Nat}
    (hcbs : s.setCbs cbs = .ok (s', o))
    (hknown : ∀ key v, known' key = some v → known key = some v ∧ key ∈ cbs)
    : Heard known' s' th := by
  unfold Threads.setCbs at hcbs
  split at hcbs
  next hreaders =>
    cases hcbs
    constructor
    . exact h.others
    . intro key v hv
      exact (hknown key v hv).2
    . intro value rest hpc
      have := (h.rest value rest hpc).1
      omega
    . intro key v hv
      exact h.value key v (hknown key v hv).1
  next => cases hcbs

variable [BEq V]

theorem exec_notify {throws : Bool} (hexec : s.exec (.notify th key throws) = .ok (s', o))
    : ∃ value rest, s.pc th = .notifying value rest ∧ key ∈ rest ∧ o = .called key s.m_value value
      ∧ (throws = false → s' = s.setPc th (.notifying value (rest.erase key))) := by
  unfold exec at hexec
  dsimp only at hexec
  split at hexec
  next value rest hpc =>
    split at hexec
    next hmem =>
      refine ⟨value, rest, hpc, hmem, ?_⟩
      split at hexec
      next hthrows =>
        cases hexec
        rw [hthrows]
        exact ⟨rfl, nofun⟩
      next =>
        cases hexec
        exact ⟨rfl, fun _ => rfl⟩
    next => cases hexec
  next => cases hexec

theorem exec_silent {c : Section V} (hc : c.isNotify = false)
    (hexec : s.exec c = .ok (s', o)) : o = .silent := by
  cases c with
  | compare th value =>
    dsimp only [exec] at hexec
    split at hexec
    . split at hexec <;> cases hexec <;> rfl
    . cases hexec
  | notify th key throws => cases hc
  | unlock th =>
    dsimp only [exec] at hexec
    split at hexec
    . split at hexec <;> cases hexec
      rfl
    . cases hexec
  | assign th =>
    dsimp only [exec] at hexec
    split at hexec
    . split at hexec <;> cases hexec
      rfl
    . cases hexec
  | addListener key =>
    dsimp only [exec, setCbs] at hexec
    split at hexec <;> cases hexec
    rfl
  | delListener key =>
    dsimp only [exec, setCbs] at hexec
    split at hexec <;> cases hexec
    rfl
  | clearListener =>
    dsimp only [exec, setCbs] at hexec
    split at hexec <;> cases hexec
    rfl

theorem Heard.compare (h : Heard known s th) (hturn : s.InTurn (.compare th' value))
    (hexec : s.exec (.compare th' value) = .ok (s', o))
    : ∃ th, Heard known s' th := by
  unfold exec at hexec
  dsimp only at hexec
  split at hexec
  next =>
    split at hexec
    next =>
      cases hexec
      exact ⟨th, h⟩
    next hne =>
      cases hexec
      have hidle := hturn.resolve_left hne
      have hth' : Heard known s th' := by
        constructor
        . intro th'' _
          exact hidle th''
        . exact h.cbs
        . intro value rest hpc
          rw [hidle th'] at hpc
          cases hpc
        . intro key v hv
          rw [hidle th', ← hidle th]
          exact h.value key v hv
      refine ⟨th', hth'.setPc rfl rfl ?_ ?_⟩
      . intro key v hv
        refine ⟨h.cbs key v hv, ?_⟩
        rw [h.value key v hv, hidle th]
        exact (if_pos (h.cbs key v hv)).symm
      . intro value rest hpc
        cases hpc
        exact ⟨Nat.succ_pos _, Finset.Subset.refl _⟩
  next => cases hexec

theorem Heard.notify (h : Heard known s th) (hexec : s.exec (.notify th' key false) = .ok (s', o))
    : Heard (fun key' => hear key' (known key') (.notify th' key false, o)) s' th := by
  obtain ⟨value, rest, hpc, hmem, rfl, hs'⟩ := exec_notify hexec
  cases h.thread_eq hpc nofun
  have hreading := h.rest value rest hpc
  rw [hs' rfl]
  apply h.setPc rfl rfl
  . intro key' v hv
    dsimp only [hear] at hv
    dsimp only [valueFor]
    split at hv
    next heq =>
      injection hv with hv
      rw [← heq, if_neg (Finset.notMem_erase key rest)]
      exact ⟨hreading.2 hmem, hv.symm⟩
    next hne =>
      refine ⟨h.cbs key' v hv, ?_⟩
      rw [h.value key' v hv, hpc]
      simp [valueFor, Ne.symm hne]
  . intro value' rest' hpc'
    cases hpc'
    exact ⟨hreading.1, (Finset.erase_subset key rest).trans hreading.2⟩

theorem Heard.unlock (h : Heard known s th) (hexec : s.exec (.unlock th') = .ok (s', o))
    : Heard known s' th := by
  unfold exec at hexec
  dsimp only at hexec
  split at hexec
  next value rest hpc =>
    cases h.thread_eq hpc nofun
    split at hexec
    next hempty =>
      cases hexec
      refine h.setPc rfl rfl ?_ ?_
      . intro key v hv
        refine ⟨h.cbs key v hv, ?_⟩
        rw [h.value key v hv, hpc, hempty]
        simp [valueFor]
      . intro value' rest' hpc'
        cases hpc'
    next => cases hexec
  next => cases hexec

theorem Heard.assign (h : Heard known s th) (hexec : s.exec (.assign th') = .ok (s', o))
    : Heard known s' th := by
  unfold exec at hexec
  dsimp only at hexec
  split at hexec
  next value hpc =>
    cases h.thread_eq hpc nofun
    split at hexec
    next =>
      cases hexec
      refine h.setPc rfl rfl ?_ ?_
      . intro key v hv
        refine ⟨h.cbs key v hv, ?_⟩
        rw [h.value key v hv, hpc]
        rfl
      . intro value' rest' hpc'
        cases hpc'
    next => cases hexec
  next => cases hexec

theorem Heard.step (h : Heard known s th) {c : Section V} (hturn : s.InTurn c)
    (hexec : s.exec c = .ok (s', o))
    : ∃ th, Heard (fun key => hear key (known key) (c, o)) s' th := by
  cases c with
  | compare th' value =>
    cases exec_silent rfl hexec
    exact h.compare hturn hexec
  | notify th' key throws =>
    cases hturn
    exact ⟨th, h.notify hexec⟩
  | unlock th' =>
    cases exec_silent rfl hexec
    exact ⟨th, h.unlock hexec⟩
  | assign th' =>
    cases exec_silent rfl hexec
    exact ⟨th, h.assign hexec⟩
  | addListener key =>
    cases exec_silent rfl hexec
    refine ⟨th, h.setCbs hexec ?_⟩
    intro key' v hv
    dsimp only [hear] at hv
    split at hv
    next => cases hv
    next => exact ⟨hv, Finset.mem_insert_of_mem (h.cbs key' v hv)⟩
  | delListener key =>
    cases exec_silent rfl hexec
    refine ⟨th, h.setCbs hexec ?_⟩
    intro key' v hv
    dsimp only [hear] at hv
    split at hv
    next => cases hv
    next hne => exact ⟨hv, Finset.mem_erase_of_ne_of_mem (Ne.symm hne) (h.cbs key' v hv)⟩
  | clearListener =>
    cases exec_silent rfl hexec
    refine ⟨th, h.setCbs hexec ?_⟩
    intro key' v hv
    cases hv

theorem Heard.called (h : Heard known s th) {c : Section V} {old_value new_value v : V}
    (hexec : s.exec c = .ok (s', .called key old_value new_value)) (hv : known key = some v)
    : old_value = v := by
  cases c with
  | notify th' key' throws =>
    obtain ⟨value, rest, hpc, hmem, ho, -⟩ := exec_notify hexec
    cases ho
    cases h.thread_eq hpc nofun
    rw [h.value key v hv, hpc]
    exact (if_pos hmem).symm
  | _ => cases exec_silent rfl hexec

end Step

end Threads

section Run

variable [BEq V] {value : V} {cbs : Finset Nat} {trace : List (Section V × Outcome V)}
  {s : Threads V}

theorem run_heard (h : (sectionsInTurn V).Run (.start value cbs) trace s)
    : ∃ th, Threads.Heard (fun key => told value cbs key trace) s th := by
  rw [← List.nil_append trace]
  apply h.history
    (I := fun trace s => ∃ th, Threads.Heard (fun key => told value cbs key trace) s th)
  . exact ⟨0, Threads.heard_start value cbs⟩
  . intro pre s l t hs hstep
    obtain ⟨th, hheard⟩ := hs
    simp only [told_append]
    exact hheard.step hstep.1 hstep.2

theorem run_keepsListeners (h : (sectionsInTurn V).Run (.start value cbs) trace s)
    : KeepsListeners value cbs trace := by
  constructor
  . intro pre post s' key v heq hpre hidle hv
    rw [heq] at h
    obtain ⟨th, hheard⟩ := run_heard (h.restrict_prefix LTS.ofExcept_det hpre)
    rw [hheard.value key v hv, hidle th]
    rfl
  . intro pre c key old_value new_value post v heq hv
    rw [heq] at h
    obtain ⟨u, hpre, hrest⟩ := h.of_append
    obtain ⟨th, hheard⟩ := run_heard hpre
    cases hrest with
    | cons hstep _ => exact hheard.called hstep.2 hv

theorem run_keepsListeners_one_by_one
    : KeepsListeners 0 {1} [(.compare 0 5, .silent), (.notify 0 1 false, .called 1 0 5),
      (.unlock 0, .silent), (.assign 0, .silent), (.compare 2 7, .silent),
      (.notify 2 1 false, .called 1 5 7), (.unlock 2, .silent), (.assign 2, .silent)] := by
  refine run_keepsListeners (.cons ⟨.inr fun _ => rfl, rfl⟩ <| .cons ⟨rfl, rfl⟩ <|
    .cons ⟨trivial, rfl⟩ <| .cons ⟨trivial, rfl⟩ <| .cons ⟨.inr ?_, rfl⟩ <| .cons ⟨rfl, rfl⟩ <|
    .cons ⟨trivial, rfl⟩ <| .cons ⟨trivial, rfl⟩ <| .nil _)
  intro th
  by_cases h : th = 0 <;> simp [Threads.setPc, Threads.start, h]

def overlapping : List (Section Nat × Outcome Nat) :=
  [(.compare 0 5, .silent), (.compare 2 7, .silent), (.notify 0 1 false, .called 1 0 5),
    (.notify 2 1 false, .called 1 0 7), (.unlock 0, .silent), (.unlock 2, .silent),
    (.assign 2, .silent), (.assign 0, .silent)]

def throwing : List (Section Nat × Outcome Nat) :=
  [(.compare 0 5, .silent), (.notify 0 1 false, .called 1 0 5), (.notify 0 2 true, .called 2 0 5)]

theorem overlapping_run
    : ∃ s, (sections Nat).Run (.start 0 {1}) overlapping s ∧ s.Idle ∧ s.m_value = 5 := by
  refine ⟨_, .cons rfl <| .cons rfl <| .cons rfl <| .cons rfl <| .cons rfl <| .cons rfl <|
    .cons rfl <| .cons rfl <| .nil _, ?_, rfl⟩
  intro th
  by_cases h0 : th = 0 <;> by_cases h2 : th = 2 <;> simp [Threads.setPc, Threads.start, h0, h2]

theorem throwing_run
    : ∃ s, (sections Nat).Run (.start 0 {1, 2}) throwing s ∧ s.Idle ∧ s.m_value = 0 := by
  refine ⟨_, .cons rfl <| .cons rfl <| .cons rfl <| .nil _, ?_, rfl⟩
  intro th
  by_cases h0 : th = 0 <;> simp [Threads.setPc, Threads.start, h0]

theorem not_keepsListeners_overlapping
    : (∃ s, (sections Nat).Run (.start 0 {1}) overlapping s)
      ∧ ¬ KeepsListeners 0 {1} overlapping
      ∧ (∃ s, (sections Nat).Run (.start 0 {1, 2}) throwing s)
      ∧ ¬ KeepsListeners 0 {1, 2} throwing := by
  obtain ⟨s, hrun, hidle, hvalue⟩ := overlapping_run
  obtain ⟨s', hrun', hidle', hvalue'⟩ := throwing_run
  refine ⟨⟨s, hrun⟩, ?_, ⟨s', hrun'⟩, ?_⟩
  . intro h
    have := h.last overlapping [] s 1 7 rfl hrun hidle rfl
    omega
  . intro h
    have := h.last throwing [] s' 1 5 rfl hrun' hidle' rfl
    omega

end Run

end ConfigVar
end CXS
