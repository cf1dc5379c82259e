import Mathlib.Data.List.Basic

universe u v w x y

theorem Except.map_eq_ok {α : Type u} {β : Type v} {ε : Type w} {f : α → β} {x : Except ε α} {b : β}
    (h : x.map f = .ok b) : ∃ a, x = .ok a ∧ f a = b := by
  cases x with
  | error e => cases h
  | ok a =>
    injection h with h
    exact ⟨a, rfl, h⟩

theorem Except.bind_eq_ok {α : Type u} {β : Type v} {ε : Type w} {f : α → Except ε β}
    {x : Except ε α} {b : β} (h : x.bind f = .ok b) : ∃ a, x = .ok a ∧ f a = .ok b := by
  cases x with
  | error e => cases h
  | ok a => exact ⟨a, rfl, h⟩

/--
A labelled transition system. A label carries both what the environment chose for the step and what
the step returned.
-/
structure LTS (σ : Type u) (ℓ : Type v) where
  step : σ → ℓ → σ → Prop

namespace LTS

variable {σ : Type u} {ℓ : Type v} {τ : Type w}

inductive Run (M : LTS σ ℓ) : σ → List ℓ → σ → Prop where
  | nil (s : σ) : Run M s [] s
  | cons {s t u : σ} {l : ℓ} {ls : List ℓ} (hstep : M.step s l t) (hrun : Run M t ls u)
    : Run M s (l :: ls) u

def Reachable (M : LTS σ ℓ) (init : σ → Prop) (t : σ) : Prop :=
  ∃ s ls, init s ∧ M.Run s ls t

/--
The system that takes only those steps of `M` that meet a condition on the state before the step.
-/
def restrict (M : LTS σ ℓ) (C : σ → ℓ → Prop) : LTS σ ℓ where
  step s l t := C s l ∧ M.step s l t

def observe {γ : Type x} (M : LTS σ ℓ) (next : σ → ℓ → γ → γ) : LTS (σ × γ) ℓ where
  step p l q := M.step p.1 l q.1 ∧ q.2 = next p.1 l p.2

-- the system of a function that computes a step, where an error ends the run
def ofExcept {ι : Type x} {ο : Type y} {ε : Type v} (f : σ → ι → Except ε (σ × ο))
    : LTS σ (ι × ο) where
  step s l t := f s l.1 = .ok (t, l.2)

variable {M : LTS σ ℓ}

namespace Run

theorem append {s t u : σ} {ls ls' : List ℓ} (h : M.Run s ls t) (h' : M.Run t ls' u)
    : M.Run s (ls ++ ls') u := by
  induction h with
  | nil => exact h'
  | cons hstep _ ih => exact .cons hstep (ih h')

theorem snoc {s t u : σ} {ls : List ℓ} {l : ℓ} (h : M.Run s ls t) (hstep : M.step t l u)
    : M.Run s (ls ++ [l]) u :=
  h.append (.cons hstep (.nil u))

theorem of_append {s u : σ} {ls ls' : List ℓ} (h : M.Run s (ls ++ ls') u)
    : ∃ t, M.Run s ls t ∧ M.Run t ls' u := by
  induction ls generalizing s with
  | nil => exact ⟨s, .nil s, h⟩
  | cons l ls ih =>
    cases h with
    | cons hstep hrun =>
      obtain ⟨t, hfst, hsnd⟩ := ih hrun
      exact ⟨t, .cons hstep hfst, hsnd⟩

theorem invariant {I : σ → Prop} (hinv : ∀ s l t, I s → M.step s l t → I t) {s t : σ}
    {ls : List ℓ} (h : M.Run s ls t) (hs : I s) : I t := by
  induction h with
  | nil => exact hs
  | cons hstep _ ih => exact ih (hinv _ _ _ hs hstep)

theorem history {I : List ℓ → σ → Prop}
    (hinv : ∀ pre s l t, I pre s → M.step s l t → I (pre ++ [l]) t) {s t : σ} {pre ls : List ℓ}
    (h : M.Run s ls t) (hs : I pre s) : I (pre ++ ls) t := by
  induction h generalizing pre with
  | nil =>
    rw [List.append_nil]
    exact hs
  | cons hstep _ ih =>
    rw [List.append_cons]
    exact ih (hinv _ _ _ _ hs hstep)

theorem invariant_of {I : σ → Prop} {P : ℓ → Prop}
    (hinv : ∀ s l t, I s → P l → M.step s l t → I t) {s t : σ} {ls : List ℓ} (h : M.Run s ls t)
    (hls : ∀ l ∈ ls, P l) (hs : I s) : I t := by
  induction h with
  | nil => exact hs
  | cons hstep _ ih =>
    rw [List.forall_mem_cons] at hls
    exact ih hls.2 (hinv _ _ _ hs hls.1 hstep)

theorem of_restrict {C : σ → ℓ → Prop} {s t : σ} {ls : List ℓ} (h : (M.restrict C).Run s ls t)
    : M.Run s ls t := by
  induction h with
  | nil => exact .nil _
  | cons hstep _ ih => exact .cons hstep.2 ih

theorem restrict_of {C : σ → ℓ → Prop} {s t : σ} {ls : List ℓ} (h : M.Run s ls t)
    (hcond : ∀ pre l post u u', ls = pre ++ l :: post → M.Run s pre u → M.step u l u' → C u l)
    : (M.restrict C).Run s ls t := by
  induction h with
  | nil => exact .nil _
  | cons hstep _ ih =>
    apply Run.cons
    . exact ⟨hcond [] _ _ _ _ rfl (.nil _) hstep, hstep⟩
    . apply ih
      intro pre l post u u' heq hrun
      apply hcond (_ :: pre) l post u u'
      . rw [heq]
        rfl
      . exact .cons hstep hrun

theorem unique (hdet : ∀ s l t t', M.step s l t → M.step s l t' → t = t') {s t t' : σ}
    {ls : List ℓ} (h : M.Run s ls t) (h' : M.Run s ls t') : t = t' := by
  induction h with
  | nil =>
    cases h'
    rfl
  | cons hstep _ ih =>
    cases h' with
    | cons hstep' hrun' =>
      rw [hdet _ _ _ _ hstep' hstep] at hrun'
      exact ih hrun'

theorem restrict_prefix {C : σ → ℓ → Prop}
    (hdet : ∀ s l t t', M.step s l t → M.step s l t' → t = t') {s t u : σ} {pre post : List ℓ}
    (h : (M.restrict C).Run s (pre ++ post) t) (hpre : M.Run s pre u)
    : (M.restrict C).Run s pre u := by
  obtain ⟨v, hpre', -⟩ := h.of_append
  rw [hpre.unique hdet hpre'.of_restrict]
  exact hpre'

theorem restrict_part {C : σ → ℓ → Prop} (hdet : ∀ s l t t', M.step s l t → M.step s l t' → t = t')
    {s t u u' : σ} {pre mid post : List ℓ} (h : (M.restrict C).Run s (pre ++ (mid ++ post)) t)
    (hpre : M.Run s pre u) (hmid : M.Run u mid u') : (M.restrict C).Run u mid u' := by
  obtain ⟨v, hpre', hrest⟩ := h.of_append
  rw [← hpre.unique hdet hpre'.of_restrict] at hrest
  exact hrest.restrict_prefix hdet hmid

theorem restrict_iff {C : σ → ℓ → Prop} {I : σ → Prop} {P : ℓ → Prop}
    (hinv : ∀ s l t, I s → M.step s l t → I t)
    (hcond : ∀ s l t, I s → M.step s l t → (C s l ↔ P l)) {s t : σ} {ls : List ℓ}
    (h : M.Run s ls t) (hs : I s) : (M.restrict C).Run s ls t ↔ ∀ l ∈ ls, P l := by
  constructor
  . intro hrun
    clear h
    induction hrun with
    | nil =>
      intro l hl
      cases hl
    | cons hstep _ ih =>
      rw [List.forall_mem_cons]
      exact ⟨(hcond _ _ _ hs hstep.2).mp hstep.1, ih (hinv _ _ _ hs hstep.2)⟩
  . intro hall
    induction h with
    | nil => exact .nil _
    | cons hstep _ ih =>
      rw [List.forall_mem_cons] at hall
      exact .cons ⟨(hcond _ _ _ hs hstep).mpr hall.1, hstep⟩ (ih (hinv _ _ _ hs hstep) hall.2)

theorem restrict_congr {C D : σ → ℓ → Prop} {I : σ → Prop}
    (hinv : ∀ s l t, I s → M.step s l t → I t)
    (hcond : ∀ s l t, I s → M.step s l t → (C s l ↔ D s l)) {s t : σ} {ls : List ℓ} (hs : I s)
    : (M.restrict C).Run s ls t ↔ (M.restrict D).Run s ls t := by
  constructor
  . intro hrun
    induction hrun with
    | nil => exact .nil _
    | cons hstep _ ih =>
      exact .cons ⟨(hcond _ _ _ hs hstep.2).mp hstep.1, hstep.2⟩ (ih (hinv _ _ _ hs hstep.2))
  . intro hrun
    induction hrun with
    | nil => exact .nil _
    | cons hstep _ ih =>
      exact .cons ⟨(hcond _ _ _ hs hstep.2).mpr hstep.1, hstep.2⟩ (ih (hinv _ _ _ hs hstep.2))

theorem always_iff {P I : σ → Prop} {C : σ → ℓ → Prop}
    (hdet : ∀ s l t t', M.step s l t → M.step s l t' → t = t')
    (hinv : ∀ s l t, I s → M.step s l t → I t)
    (hiff : ∀ s l t, I s → M.step s l t → P s → (P t ↔ C s l)) {s t : σ} {ls : List ℓ}
    (h : M.Run s ls t) (hs : I s)
    : (∀ pre post u, ls = pre ++ post → M.Run s pre u → P u)
      ↔ P s ∧ (M.restrict C).Run s ls t := by
  induction h with
  | nil s =>
    constructor
    . intro hall
      exact ⟨hall [] [] s rfl (.nil s), .nil s⟩
    . intro hcond pre post u heq hrun
      rw [List.nil_eq_append_iff] at heq
      rw [heq.1] at hrun
      cases hrun
      exact hcond.1
  | @cons s v t l ls hstep hrun ih =>
    have ih := ih (hinv _ _ _ hs hstep)
    constructor
    . intro hall
      have hp : P s := hall [] _ s rfl (.nil s)
      have hrest : P v ∧ (M.restrict C).Run v ls t := by
        apply ih.mp
        intro pre post u heq hpre
        apply hall (l :: pre) post u
        . rw [heq, List.cons_append]
        . exact .cons hstep hpre
      exact ⟨hp, .cons ⟨(hiff _ _ _ hs hstep hp).mp hrest.1, hstep⟩ hrest.2⟩
    . intro hcond pre post u heq hpre
      obtain ⟨hp, hrestrict⟩ := hcond
      cases hrestrict with
      | cons hstep' hrun' =>
        cases hdet _ _ _ _ hstep hstep'.2
        cases pre with
        | nil =>
          cases hpre
          exact hp
        | cons l' pre =>
          rw [List.cons_append] at heq
          injection heq with hl heq
          subst hl
          cases hpre with
          | cons hstep'' hpre =>
            cases hdet _ _ _ _ hstep hstep''
            exact ih.mpr ⟨(hiff _ _ _ hs hstep hp).mpr hstep'.1, hrun'⟩ pre post u heq hpre

theorem simulation {N : LTS τ ℓ} {R : σ → τ → Prop}
    (hsim : ∀ s l s' t, R s t → M.step s l s' → ∃ t', N.step t l t' ∧ R s' t')
    {s s' : σ} {t : τ} {ls : List ℓ} (h : M.Run s ls s') (hr : R s t)
    : ∃ t', N.Run t ls t' ∧ R s' t' := by
  induction h generalizing t with
  | nil => exact ⟨t, .nil t, hr⟩
  | cons hstep _ ih =>
    obtain ⟨t1, h1, hr1⟩ := hsim _ _ _ _ hr hstep
    obtain ⟨t2, h2, hr2⟩ := ih hr1
    exact ⟨t2, .cons h1 h2, hr2⟩

theorem exists_cons {s t : σ} {l : ℓ} {ls : List ℓ} (hstep : M.step s l t)
    (h : ∃ u, M.Run t ls u) : ∃ u, M.Run s (l :: ls) u := by
  obtain ⟨u, hrun⟩ := h
  exact ⟨u, .cons hstep hrun⟩

theorem exists_of_total (htotal : ∀ s l, ∃ t, M.step s l t) (s : σ) (ls : List ℓ)
    : ∃ t, M.Run s ls t := by
  induction ls generalizing s with
  | nil => exact ⟨s, .nil s⟩
  | cons l ls ih =>
    obtain ⟨t, hstep⟩ := htotal s l
    exact exists_cons hstep (ih t)

theorem exists_and_cons {P : σ → Prop} {s t : σ} {l : ℓ} {ls : List ℓ} (hstep : M.step s l t)
    (h : ∃ u, M.Run t ls u ∧ P u) : ∃ u, M.Run s (l :: ls) u ∧ P u := by
  obtain ⟨u, hrun, hu⟩ := h
  exact ⟨u, .cons hstep hrun, hu⟩

end Run

/--
A sequence of inputs has a run whose steps all meet `P` iff each of them meets `C` in the state in
which the inputs before it end, where `C` says for one input when there is such a step.
-/
theorem run_inputs_iff {ι : Type x} (input : ℓ → ι) {P : ℓ → Prop} {C : σ → ι → Prop}
    (hdet : ∀ s l l' t t', input l = input l' → M.step s l t → M.step s l' t' → t = t')
    (hstep : ∀ s i, (∃ l t, M.step s l t ∧ input l = i ∧ P l) ↔ C s i) (s : σ) (is : List ι)
    : (∃ ls t, M.Run s ls t ∧ ls.map input = is ∧ ∀ l ∈ ls, P l)
      ↔ ∀ pre i post, is = pre ++ i :: post
        → ∀ ls u, M.Run s ls u → ls.map input = pre → C u i := by
  induction is generalizing s with
  | nil => exact iff_of_true ⟨[], s, .nil s, rfl, nofun⟩ (by simp)
  | cons i is ih =>
    constructor
    . rintro ⟨ls, t, hrun, hmap, hall⟩ pre j post heq ls' u hrun' hmap'
      cases hrun with
      | nil => cases hmap
      | @cons _ v _ l ls hfst hrest =>
        rw [List.map_cons, List.cons.injEq] at hmap
        rw [List.forall_mem_cons] at hall
        cases hrun' with
        | nil =>
          rw [← hmap', List.map_nil, List.nil_append, List.cons.injEq] at heq
          rw [← heq.1]
          exact (hstep s i).mp ⟨l, v, hfst, hmap.1, hall.1⟩
        | @cons _ v' _ l' ls' hfst' hrest' =>
          rw [← hmap', List.map_cons, List.cons_append, List.cons.injEq] at heq
          have hv := hdet s l l' v v' (hmap.1.trans heq.1) hfst hfst'
          rw [← hv] at hrest'
          exact (ih v).mp ⟨ls, t, hrest, hmap.2, hall.2⟩ _ j post heq.2 ls' u hrest' rfl
    . intro hall
      obtain ⟨l, v, hfst, hl, hp⟩ := (hstep s i).mpr (hall [] i is rfl [] s (.nil s) rfl)
      have hrest : ∀ pre j post, is = pre ++ j :: post
          → ∀ ls u, M.Run v ls u → ls.map input = pre → C u j := by
        intro pre j post heq ls u hrun hmap
        apply hall (i :: pre) j post (by rw [heq, List.cons_append]) (l :: ls) u
        . exact .cons hfst hrun
        . rw [List.map_cons, hl, hmap]
      obtain ⟨ls, t, hrun, hmap, hps⟩ := (ih v).mpr hrest
      refine ⟨l :: ls, t, .cons hfst hrun, ?_, ?_⟩
      . rw [List.map_cons, hl, hmap]
      . exact List.forall_mem_cons.mpr ⟨hp, hps⟩

theorem ofExcept_det {ι : Type x} {ο : Type y} {ε : Type v} {f : σ → ι → Except ε (σ × ο)} (s : σ)
    (l : ι × ο) (t t' : σ) (h : (ofExcept f).step s l t) (h' : (ofExcept f).step s l t')
    : t = t' := by
  have hsame := h.symm.trans h'
  injection hsame with hsame
  injection hsame

section Replay

variable {ι : Type x} {ο : Type y} {ε : Type v} [DecidableEq ο] {f : σ → ι → Except ε (σ × ο)}

def replay (f : σ → ι → Except ε (σ × ο)) (s : σ) : List (ι × ο) → Option σ
  | [] => some s
  | l :: ls =>
    match f s l.1 with
    | .error _ => none
    | .ok (t, o) => if o = l.2 then replay f t ls else none

theorem run_of_replay {s t : σ} {ls : List (ι × ο)} (h : replay f s ls = some t)
    : (ofExcept f).Run s ls t := by
  induction ls generalizing s with
  | nil =>
    injection h with h
    rw [h]
    apply Run.nil
  | cons l ls ih =>
    unfold replay at h
    split at h
    . cases h
    . next u o heq =>
      split at h
      . next ho =>
        rw [ho] at heq
        apply Run.cons heq
        apply ih h
      . cases h

def replayIf (f : σ → ι → Except ε (σ × ο)) (C : σ → ι → Bool) (s : σ) : List (ι × ο) → Option σ
  | [] => some s
  | l :: ls =>
    if C s l.1 then
      match f s l.1 with
      | .error _ => none
      | .ok (t, o) => if o = l.2 then replayIf f C t ls else none
    else
      none

theorem run_of_replayIf {C : σ → ι → Bool} {s t : σ} {ls : List (ι × ο)}
    (h : replayIf f C s ls = some t)
    : ((ofExcept f).restrict (fun s l => C s l.1 = true)).Run s ls t := by
  induction ls generalizing s with
  | nil =>
    injection h with h
    rw [h]
    apply Run.nil
  | cons l ls ih =>
    unfold replayIf at h
    split at h
    . next hcond =>
      split at h
      . cases h
      . next u o heq =>
        split at h
        . next ho =>
          rw [ho] at heq
          apply Run.cons
          . exact ⟨hcond, heq⟩
          . apply ih h
        . cases h
    . cases h

end Replay

theorem Reachable.invariant {init : σ → Prop} {I : σ → Prop} (hinit : ∀ s, init s → I s)
    (hinv : ∀ s l t, I s → M.step s l t → I t) {t : σ} (h : M.Reachable init t) : I t := by
  obtain ⟨s, ls, hs, hrun⟩ := h
  exact hrun.invariant hinv (hinit s hs)

end LTS
