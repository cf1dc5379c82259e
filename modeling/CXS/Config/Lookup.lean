import CXS.Config.Basic

namespace CXS
namespace Config

variable {T V : Type}

inductive Call (T V : Type) where
  | LookupBase (name : List Char)
  | Lookup (type : T) (name : List Char)
  | LookupDefault (type : T) (name : List Char) (default_value : V)
  deriving DecidableEq, Repr

def Call.name : Call T V → List Char
  | .LookupBase name => name
  | .Lookup _ name => name
  | .LookupDefault _ name _ => name

section Registry

variable {cfg : Config T V}

structure Inv (cfg : Config T V) : Prop where
  datas_lt : ∀ name p, cfg.s_datas name = some p → p < cfg.vars.length
  names : ∀ name p, cfg.s_datas name = some p → hasInvalidChar name = false

theorem inv_new : Inv (new : Config T V) where
  datas_lt := by
    intro name p h
    cases h
  names := by
    intro name p h
    cases h

theorem create_datas_self (type : T) (name : List Char) (default_value : V)
    : (cfg.create type name default_value).s_datas name = some cfg.vars.length := by
  unfold create
  dsimp only
  rw [Function.update_self]

theorem create_datas_of_ne {type : T} {name name' : List Char} {default_value : V}
    (hne : name' ≠ name) : (cfg.create type name default_value).s_datas name' = cfg.s_datas name' := by
  unfold create
  dsimp only
  rw [Function.update_of_ne hne]

theorem Inv.create (h : Inv cfg) {type : T} {name : List Char} {default_value : V}
    (hvalid : hasInvalidChar name = false) : Inv (cfg.create type name default_value) := by
  have hlength : (cfg.create type name default_value).vars.length = cfg.vars.length + 1 := by
    simp [Config.create]
  constructor
  . intro name' p hp
    rw [hlength]
    by_cases hname : name' = name
    . rw [hname, create_datas_self] at hp
      injection hp with hp
      omega
    . rw [create_datas_of_ne hname] at hp
      have := h.datas_lt name' p hp
      omega
  . intro name' p hp
    by_cases hname : name' = name
    . rw [hname]
      exact hvalid
    . rw [create_datas_of_ne hname] at hp
      exact h.names name' p hp

end Registry

variable [DecidableEq T]

def call (cfg : Config T V) : Call T V → Config T V × Result
  | .LookupBase name => (cfg, .ptr (cfg.LookupBase name))
  | .Lookup type name => (cfg, .ptr (cfg.Lookup type name))
  | .LookupDefault type name default_value => cfg.LookupDefault type name default_value

def exec (cfg : Config T V) (c : Call T V) : Except Empty (Config T V × Result) :=
  .ok (cfg.call c)

def lts (T V : Type) [DecidableEq T] : LTS (Config T V) (Call T V × Result) :=
  LTS.ofExcept exec

def sameType (cfg : Config T V) : Call T V → Bool
  | .LookupDefault type name _ => (cfg.s_datas name).all fun p => (cfg.cast type p).isSome
  | _ => true

def ltsSameType (T V : Type) [DecidableEq T] : LTS (Config T V) (Call T V × Result) :=
  (lts T V).restrict fun cfg l => cfg.sameType l.1 = true

/--
A variable that is registered under a name stays so: `LookupBase` and `LoadFromYaml` find it, and a
later `Lookup` of the name returns it or fails.
-/
structure KeepsVariables (trace : List (Call T V × Result)) : Prop where
  resolves : ∀ pre mid post cfg cfg' name p, trace = pre ++ (mid ++ post)
    → (lts T V).Run new pre cfg → (lts T V).Run cfg mid cfg' → cfg.LookupBase name = some p
    → cfg'.LookupBase name = some p
  loads : ∀ pre mid post cfg cfg' name p emit root (i : List Char × NodeRef) call,
    trace = pre ++ (mid ++ post) → (lts T V).Run new pre cfg → (lts T V).Run cfg mid cfg'
    → cfg.LookupBase name = some p → i ∈ ListAllMember [] [] root → tolower i.1 = name
    → cfg'.loadNode emit i = some call → call.var = p
  returns : ∀ pre mid c r post cfg name p, trace = pre ++ (mid ++ (c, r) :: post)
    → (lts T V).Run new pre cfg → cfg.LookupBase name = some p → c.name = name
    → r = .ptr (some p) ∨ r = .ptr none ∨ r = .invalidArgument name

section Call

variable {cfg : Config T V}

theorem cast_eq_some {type : T} {p q : Nat} (h : cfg.cast type p = some q) : q = p := by
  unfold cast at h
  split at h
  . injection h with h
    exact h.symm
  . cases h

theorem lookupDefault_cases (cfg : Config T V) (type : T) (name : List Char) (default_value : V)
    : (cfg.LookupDefault type name default_value).1 = cfg
        ∧ ((cfg.LookupDefault type name default_value).2 = .ptr (cfg.s_datas name)
          ∨ (cfg.LookupDefault type name default_value).2 = .invalidArgument name)
      ∨ (∀ p, cfg.s_datas name = some p → cfg.cast type p = none) ∧ hasInvalidChar name = false
        ∧ cfg.LookupDefault type name default_value
          = (cfg.create type name default_value, .ptr (some cfg.vars.length)) := by
  unfold LookupDefault
  split
  . next temp htemp =>
    obtain ⟨p, hp, hcast⟩ := Option.bind_eq_some_iff.mp htemp
    left
    rw [cast_eq_some hcast, hp]
    exact ⟨rfl, .inl rfl⟩
  . next hnone =>
    split
    . exact .inl ⟨rfl, .inr rfl⟩
    . next hvalid =>
      right
      refine ⟨?_, by simpa using hvalid, rfl⟩
      intro p hp
      rw [hp] at hnone
      exact hnone

theorem Inv.call (h : Inv cfg) (c : Call T V) : Inv (cfg.call c).1 := by
  cases c with
  | LookupBase name => exact h
  | Lookup type name => exact h
  | LookupDefault type name default_value =>
    rcases lookupDefault_cases cfg type name default_value with hsame | hcreate
    . unfold Config.call
      dsimp only
      rw [hsame.1]
      exact h
    . unfold Config.call
      dsimp only
      rw [hcreate.2.2]
      apply h.create hcreate.2.1

theorem call_datas {c : Call T V} (htype : cfg.sameType c = true) {name : List Char} {p : Nat}
    (hp : cfg.s_datas name = some p) : (cfg.call c).1.s_datas name = some p := by
  cases c with
  | LookupBase name' => exact hp
  | Lookup type name' => exact hp
  | LookupDefault type name' default_value =>
    unfold Config.call
    dsimp only
    rcases lookupDefault_cases cfg type name' default_value with hsame | hcreate
    . rw [hsame.1]
      exact hp
    . rw [hcreate.2.2]
      dsimp only
      by_cases hname : name = name'
      . rw [← hname] at htype hcreate
        simp only [sameType, hp, Option.all_some, hcreate.1 p hp] at htype
        cases htype
      . rw [create_datas_of_ne hname]
        exact hp

theorem call_returns {c : Call T V} (htype : cfg.sameType c = true) {p : Nat}
    (hp : cfg.s_datas c.name = some p)
    : (cfg.call c).2 = .ptr (some p) ∨ (cfg.call c).2 = .ptr none
      ∨ (cfg.call c).2 = .invalidArgument c.name := by
  cases c with
  | LookupBase name =>
    left
    exact congrArg Result.ptr hp
  | Lookup type name =>
    have hp : cfg.s_datas name = some p := hp
    unfold Config.call Lookup
    dsimp only
    rw [hp, Option.bind_some]
    unfold cast
    split
    . exact .inl rfl
    . exact .inr (.inl rfl)
  | LookupDefault type name default_value =>
    have hp : cfg.s_datas name = some p := hp
    unfold Config.call Call.name
    dsimp only
    rcases lookupDefault_cases cfg type name default_value with hsame | hcreate
    . rw [hp] at hsame
      rcases hsame.2 with hret | hret
      . exact .inl hret
      . exact .inr (.inr hret)
    . simp only [sameType, hp, Option.all_some, hcreate.1 p hp] at htype
      cases htype

theorem call_replaces (hinv : Inv cfg) {c : Call T V} (htype : cfg.sameType c = false)
    : ∃ p, cfg.s_datas c.name = some p ∧ (cfg.call c).1.s_datas c.name ≠ some p := by
  cases c with
  | LookupBase name => cases htype
  | Lookup type name => cases htype
  | LookupDefault type name default_value =>
    have hex : ∃ p, cfg.s_datas name = some p ∧ cfg.cast type p = none := by
      unfold sameType at htype
      dsimp only at htype
      cases hp : cfg.s_datas name with
      | none =>
        rw [hp] at htype
        cases htype
      | some p =>
        rw [hp] at htype
        simp only [Option.all_some, Option.isSome_eq_false_iff, Option.isNone_iff_eq_none] at htype
        exact ⟨p, rfl, htype⟩
    obtain ⟨p, hp, hcast⟩ := hex
    refine ⟨p, hp, ?_⟩
    have hcall : cfg.call (.LookupDefault type name default_value)
        = (cfg.create type name default_value, .ptr (some cfg.vars.length)) := by
      unfold Config.call LookupDefault
      dsimp only
      rw [hp, Option.bind_some, hcast]
      dsimp only
      rw [hinv.names name p hp]
      rfl
    rw [hcall]
    dsimp only [Call.name]
    rw [create_datas_self]
    intro heq
    injection heq with heq
    have := hinv.datas_lt name p hp
    omega

end Call

section Run

variable {cfg cfg' : Config T V} {trace : List (Call T V × Result)}

theorem step_eq {l : Call T V × Result} (h : (lts T V).step cfg l cfg') : cfg.call l.1 = (cfg', l.2) := by
  injection h with h

theorem run_inv (h : (lts T V).Run new trace cfg) : Inv cfg := by
  apply h.invariant (I := Inv)
  . intro s l t hs hstep
    have hcall := hs.call l.1
    rw [step_eq hstep] at hcall
    exact hcall
  . exact inv_new

theorem run_datas (h : (ltsSameType T V).Run cfg trace cfg') {name : List Char} {p : Nat}
    (hp : cfg.s_datas name = some p) : cfg'.s_datas name = some p := by
  apply h.invariant (I := fun cfg => cfg.s_datas name = some p)
  . intro s l t hs hstep
    have hdatas := call_datas hstep.1 hs
    rw [step_eq hstep.2] at hdatas
    exact hdatas
  . exact hp

theorem keepsVariables_of_sameType (h : (ltsSameType T V).Run new trace cfg)
    : KeepsVariables trace := by
  have hresolves : ∀ pre mid post u u' name p, trace = pre ++ (mid ++ post)
      → (lts T V).Run new pre u → (lts T V).Run u mid u' → u.LookupBase name = some p
      → u'.LookupBase name = some p := by
    intro pre mid post u u' name p heq hpre hmid hp
    rw [heq] at h
    exact run_datas (h.restrict_part LTS.ofExcept_det hpre hmid) hp
  constructor
  . exact hresolves
  . intro pre mid post u u' name p emit root i call heq hpre hmid hp _ hname hcall
    have hp' := hresolves pre mid post u u' name p heq hpre hmid hp
    unfold loadNode at hcall
    split at hcall
    . cases hcall
    . rw [hname, hp'] at hcall
      injection hcall with hcall
      rw [← hcall]
  . intro pre mid c r post u name p heq hpre hp hname
    rw [heq] at h
    obtain ⟨v, hpre', hrest⟩ := h.of_append
    obtain ⟨v', hmid', hrest⟩ := hrest.of_append
    rw [hpre.unique LTS.ofExcept_det hpre'.of_restrict] at hp
    cases hrest with
    | cons hstep _ =>
      have hdatas := run_datas hmid' hp
      rw [← hname] at hdatas ⊢
      have hret := call_returns hstep.1 hdatas
      rw [step_eq hstep.2] at hret
      exact hret

theorem sameType_of_keepsVariables (h : (lts T V).Run new trace cfg) (hkeeps : KeepsVariables trace)
    : (ltsSameType T V).Run new trace cfg := by
  apply h.restrict_of
  intro pre l post u u' heq hrun hstep
  apply Bool.not_eq_false _ |>.mp
  intro htype
  obtain ⟨p, hp, hne⟩ := call_replaces (run_inv hrun) htype
  rw [step_eq hstep] at hne
  apply hne
  exact hkeeps.resolves pre [l] post u u' _ p heq hrun (.cons hstep (.nil _)) hp

theorem run_keepsVariables_iff (h : (lts T V).Run new trace cfg)
    : KeepsVariables trace ↔ (ltsSameType T V).Run new trace cfg := by
  constructor
  . apply sameType_of_keepsVariables h
  . apply keepsVariables_of_sameType

end Run

def looksUp : List (Call Nat Nat × Result) :=
  [
    (.LookupDefault 0 "tcp.timeout".toList 5, .ptr (some 0)),
    (.Lookup 1 "tcp.timeout".toList, .ptr none),
    (.LookupDefault 1 "TCP".toList 5, .invalidArgument "TCP".toList),
    (.LookupDefault 0 "tcp.timeout".toList 7, .ptr (some 0))
  ]

theorem run_keepsVariables_looksUp
    : ∃ cfg, (lts Nat Nat).Run new looksUp cfg ∧ KeepsVariables looksUp := by
  have hreplay : (LTS.replayIf (exec (T := Nat) (V := Nat)) sameType new looksUp).isSome = true := by
    decide +kernel
  obtain ⟨cfg, hcfg⟩ := Option.isSome_iff_exists.mp hreplay
  have hrun : (ltsSameType Nat Nat).Run new looksUp cfg := LTS.run_of_replayIf hcfg
  exact ⟨cfg, hrun.of_restrict, (run_keepsVariables_iff hrun.of_restrict).mpr hrun⟩

def looksUpOther : List (Call Nat Nat × Result) :=
  [
    (.LookupDefault 1 "tcp.timeout".toList 7, .ptr (some 1)),
    (.LookupBase "tcp.timeout".toList, .ptr (some 1))
  ]

-- a default value of another type takes the name away from the first variable
theorem not_keepsVariables_other
    : ∃ cfg, (lts Nat Nat).Run new (looksUp ++ looksUpOther) cfg
        ∧ cfg.vars.map (fun var => var.m_name) = ["tcp.timeout".toList, "tcp.timeout".toList]
        ∧ ¬KeepsVariables (looksUp ++ looksUpOther) := by
  have hreplay : (LTS.replay (exec (T := Nat) (V := Nat)) new looksUp).any (fun cfg =>
      cfg.s_datas "tcp.timeout".toList == some 0
        && (LTS.replay exec cfg looksUpOther).any (fun cfg' =>
          cfg'.s_datas "tcp.timeout".toList == some 1
            && cfg'.vars.map (fun var => var.m_name)
              == ["tcp.timeout".toList, "tcp.timeout".toList])) = true := by
    decide +kernel
  rw [Option.any_eq_true] at hreplay
  obtain ⟨cfg, hcfg, hprop⟩ := hreplay
  simp only [Bool.and_eq_true, beq_iff_eq, Option.any_eq_true] at hprop
  obtain ⟨hfirst, cfg', hcfg', hsecond, hnames⟩ := hprop
  have hrun : (lts Nat Nat).Run new looksUp cfg := LTS.run_of_replay hcfg
  have hrun' : (lts Nat Nat).Run cfg looksUpOther cfg' := LTS.run_of_replay hcfg'
  refine ⟨cfg', hrun.append hrun', hnames, ?_⟩
  intro hkeeps
  have hsame := hkeeps.resolves looksUp looksUpOther [] cfg cfg' _ 0 (by rw [List.append_nil]) hrun
    hrun' hfirst
  have hcontra := hsecond.symm.trans hsame
  cases hcontra

end Config
end CXS
