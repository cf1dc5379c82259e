import CXS.Log.Level
import CXS.Util.LTS
import Mathlib.Logic.Function.Basic

/-!
This module contains appenders that several loggers share, with the calls of `code/log.cc` that attach
them and set formatters. A `Logger::ptr` and a `LogAppender::ptr` is the number of the object, a
`LogFormatter::ptr` is an element of `F` or `none` for the null pointer. An object that has not been
used yet is as its constructor leaves it.
-/

namespace CXS
namespace Shared

structure Appender (F : Type) where
  m_level : LogLevel
  m_formatter : Option F
  m_hasFormatter : Bool

structure Logger (F : Type) where
  m_level : LogLevel
  m_appenders : List Nat
  m_formatter : Option F
  m_root : Option Nat

end Shared

structure Loggers (F : Type) where
  loggers : Nat → Shared.Logger F
  appenders : Nat → Shared.Appender F

namespace Loggers

variable {F : Type}

def start (formatter : Nat → F) (root : Nat → Option Nat) : Loggers F where
  loggers l := ⟨.DEBUG, [], some (formatter l), root l⟩
  appenders _ := ⟨.DEBUG, none, false⟩

def setLogger (s : Loggers F) (l : Nat) (logger : Shared.Logger F) : Loggers F :=
  { s with loggers := Function.update s.loggers l logger }

def setAppender (s : Loggers F) (a : Nat) (appender : Shared.Appender F) : Loggers F :=
  { s with appenders := Function.update s.appenders a appender }

def addAppender (s : Loggers F) (l a : Nat) : Loggers F :=
  let appender := s.appenders a
  let logger := s.loggers l
  let s :=
    if appender.m_formatter.isNone then
      s.setAppender a { appender with m_formatter := logger.m_formatter }
    else
      s
  s.setLogger l { logger with m_appenders := logger.m_appenders ++ [a] }

def delAppender (s : Loggers F) (l a : Nat) : Loggers F :=
  let logger := s.loggers l
  s.setLogger l { logger with m_appenders := logger.m_appenders.erase a }

def clearAppenders (s : Loggers F) (l : Nat) : Loggers F :=
  s.setLogger l { s.loggers l with m_appenders := [] }

-- the body of the loop of `Logger::setFormatter`
def follow (val : Option F) (s : Loggers F) (a : Nat) : Loggers F :=
  if !(s.appenders a).m_hasFormatter then
    s.setAppender a { s.appenders a with m_formatter := val }
  else
    s

def setFormatter (s : Loggers F) (l : Nat) (val : Option F) : Loggers F :=
  let logger := s.loggers l
  logger.m_appenders.foldl (follow val) (s.setLogger l { logger with m_formatter := val })

-- `Logger::setFormatter` with a pattern. `new_val` is the formatter that is made of it.
def setPattern (s : Loggers F) (l : Nat) (new_val : F) (isError : Bool) : Loggers F :=
  if isError then s else s.setFormatter l (some new_val)

def setOwnFormatter (s : Loggers F) (a : Nat) (formatter : Option F) : Loggers F :=
  s.setAppender a
    { s.appenders a with m_formatter := formatter, m_hasFormatter := formatter.isSome }

def setLevel (s : Loggers F) (l : Nat) (level : LogLevel) : Loggers F :=
  s.setLogger l { s.loggers l with m_level := level }

def setAppenderLevel (s : Loggers F) (a : Nat) (val : LogLevel) : Loggers F :=
  s.setAppender a { s.appenders a with m_level := val }

inductive Fault where
  | nullFormatter
  deriving DecidableEq, Repr

def logTo (s : Loggers F) (level : LogLevel) (a : Nat) : Except Fault (List F) :=
  if level < (s.appenders a).m_level then
    .ok []
  else
    match (s.appenders a).m_formatter with
    | none => .error .nullFormatter
    | some formatter => .ok [formatter]

def logToAll (s : Loggers F) (level : LogLevel) : List Nat → Except Fault (List F)
  | [] => .ok []
  | a :: as => (s.logTo level a).bind fun used => (s.logToAll level as).map (used ++ ·)

def log (s : Loggers F) (l : Nat) (level : LogLevel) : Except Fault (List F) :=
  let logger := s.loggers l
  if level < logger.m_level then
    .ok []
  else if !logger.m_appenders.isEmpty then
    s.logToAll level logger.m_appenders
  else
    match logger.m_root with
    | none => .ok []
    | some root =>
      if level < (s.loggers root).m_level then
        .ok []
      else
        s.logToAll level (s.loggers root).m_appenders

inductive Call (F : Type) where
  | addAppender (l a : Nat)
  | delAppender (l a : Nat)
  | clearAppenders (l : Nat)
  | setFormatter (l : Nat) (val : Option F)
  | setPattern (l : Nat) (new_val : F) (isError : Bool)
  | setOwnFormatter (a : Nat) (formatter : Option F)
  deriving DecidableEq, Repr

def call (s : Loggers F) : Call F → Loggers F
  | .addAppender l a => s.addAppender l a
  | .delAppender l a => s.delAppender l a
  | .clearAppenders l => s.clearAppenders l
  | .setFormatter l val => s.setFormatter l val
  | .setPattern l new_val isError => s.setPattern l new_val isError
  | .setOwnFormatter a formatter => s.setOwnFormatter a formatter

def lts (F : Type) : LTS (Loggers F) (Call F) where
  step s c s' := s' = s.call c

def Attached (s : Loggers F) (l a : Nat) : Prop :=
  a ∈ (s.loggers l).m_appenders

structure Fits (appender : Shared.Appender F) (formatter : Option F) : Prop where
  nonnull : appender.m_formatter ≠ none
  inherited : appender.m_hasFormatter = false → appender.m_formatter = formatter

def Formatted (s : Loggers F) : Prop :=
  ∀ l a, s.Attached l a → Fits (s.appenders a) (s.loggers l).m_formatter

-- the formatter `val` of the logger `l` does not reach an appender that another logger formats
-- differently, nor is it null where it is needed
def Agrees (s : Loggers F) (l : Nat) (val : Option F) : Prop :=
  ∀ a, s.Attached l a → (s.appenders a).m_hasFormatter = false
    → val ≠ none ∧ ∀ l', l' ≠ l → s.Attached l' a → (s.loggers l').m_formatter = val

def Consistent (s : Loggers F) : Call F → Prop
  | .addAppender l a =>
    match (s.appenders a).m_formatter with
    | none => (s.loggers l).m_formatter ≠ none
    | some formatter =>
      (s.appenders a).m_hasFormatter = true ∨ (s.loggers l).m_formatter = some formatter
  | .delAppender _ _ => True
  | .clearAppenders _ => True
  | .setFormatter l val => s.Agrees l val
  | .setPattern l new_val isError => isError = true ∨ s.Agrees l (some new_val)
  | .setOwnFormatter a formatter => formatter ≠ none ∨ ∀ l, ¬s.Attached l a

section Fields

variable (s : Loggers F) {l l' a a' : Nat}

@[simp]
theorem setLogger_appenders (logger : Shared.Logger F)
    : (s.setLogger l logger).appenders = s.appenders := rfl

@[simp]
theorem setAppender_loggers (appender : Shared.Appender F)
    : (s.setAppender a appender).loggers = s.loggers := rfl

@[simp]
theorem setLogger_self (logger : Shared.Logger F) : (s.setLogger l logger).loggers l = logger := by
  apply Function.update_self

theorem setLogger_of_ne (logger : Shared.Logger F) (hne : l' ≠ l)
    : (s.setLogger l logger).loggers l' = s.loggers l' := by
  apply Function.update_of_ne hne

@[simp]
theorem setAppender_self (appender : Shared.Appender F)
    : (s.setAppender a appender).appenders a = appender := by
  apply Function.update_self

theorem setAppender_of_ne (appender : Shared.Appender F) (hne : a' ≠ a)
    : (s.setAppender a appender).appenders a' = s.appenders a' := by
  apply Function.update_of_ne hne

@[simp]
theorem setAppender_setAppender (appender appender' : Shared.Appender F)
    : (s.setAppender a appender).setAppender a appender' = s.setAppender a appender' := by
  unfold setAppender
  rw [Function.update_idem]

end Fields

section Call

variable {s : Loggers F} {l a : Nat}

theorem Formatted.detach (h : Formatted s) {as : List Nat}
    (hsub : ∀ a ∈ as, a ∈ (s.loggers l).m_appenders)
    : Formatted (s.setLogger l { s.loggers l with m_appenders := as }) := by
  intro l' a ha
  unfold Attached at ha
  by_cases hl : l' = l
  . subst hl
    rw [setLogger_self] at ha ⊢
    exact h l' a (hsub a ha)
  . rw [setLogger_of_ne s _ hl] at ha ⊢
    exact h l' a ha

theorem addAppender_appenders (s : Loggers F) (l a a' : Nat)
    : (s.addAppender l a).appenders a'
        = if a' = a ∧ (s.appenders a).m_formatter = none then
            { s.appenders a with m_formatter := (s.loggers l).m_formatter }
          else
            s.appenders a' := by
  unfold addAppender
  dsimp only
  rw [setLogger_appenders]
  split
  . next hnone =>
    rw [Option.isNone_iff_eq_none] at hnone
    by_cases ha : a' = a
    . subst ha
      rw [setAppender_self, if_pos ⟨rfl, hnone⟩]
    . rw [setAppender_of_ne s _ ha, if_neg (by simp [ha])]
  . next hsome =>
    rw [Option.isNone_iff_eq_none] at hsome
    rw [if_neg (by simp [hsome])]

theorem addAppender_loggers (s : Loggers F) (l a l' : Nat)
    : (s.addAppender l a).loggers l'
        = if l' = l then
            { s.loggers l with m_appenders := (s.loggers l).m_appenders ++ [a] }
          else
            s.loggers l' := by
  have hloggers : ∀ s' : Loggers F, s'.loggers = s.loggers
      → (s'.setLogger l { s.loggers l with m_appenders := (s.loggers l).m_appenders ++ [a] }).loggers l'
        = if l' = l then
            { s.loggers l with m_appenders := (s.loggers l).m_appenders ++ [a] }
          else
            s.loggers l' := by
    intro s' hs'
    split
    . next hl => rw [hl, setLogger_self]
    . next hl => rw [setLogger_of_ne s' _ hl, hs']
  unfold addAppender
  dsimp only
  split
  . exact hloggers _ rfl
  . exact hloggers s rfl

theorem addAppender_formatter (s : Loggers F) (l a l' : Nat)
    : ((s.addAppender l a).loggers l').m_formatter = (s.loggers l').m_formatter := by
  rw [addAppender_loggers]
  split
  . next hl => rw [hl]
  . rfl

theorem addAppender_attached (s : Loggers F) (l a l' a' : Nat)
    : (s.addAppender l a).Attached l' a' ↔ s.Attached l' a' ∨ l' = l ∧ a' = a := by
  unfold Attached
  rw [addAppender_loggers]
  split
  . next hl => simp [hl]
  . next hl => simp [hl]

theorem addAppender_formatted (h : Formatted s)
    : Formatted (s.addAppender l a)
      ↔ Fits ((s.addAppender l a).appenders a) (s.loggers l).m_formatter := by
  constructor
  . intro h'
    have hfits := h' l a ((addAppender_attached s l a l a).mpr (.inr ⟨rfl, rfl⟩))
    rw [addAppender_formatter] at hfits
    exact hfits
  . intro hfits l' a' ha'
    rw [addAppender_formatter]
    rcases (addAppender_attached s l a l' a').mp ha' with hold | ⟨rfl, rfl⟩
    . rw [addAppender_appenders, if_neg]
      . exact h l' a' hold
      . rintro ⟨rfl, hnone⟩
        exact (h l' a' hold).nonnull hnone
    . exact hfits

theorem addAppender_formatted_iff (h : Formatted s)
    : Formatted (s.addAppender l a) ↔ s.Consistent (.addAppender l a) := by
  rw [addAppender_formatted h, addAppender_appenders]
  unfold Consistent
  dsimp only
  cases hfmt : (s.appenders a).m_formatter with
  | none =>
    rw [if_pos ⟨rfl, rfl⟩]
    constructor
    . intro hfits
      exact hfits.nonnull
    . intro hl
      exact ⟨hl, fun _ => rfl⟩
  | some formatter =>
    rw [if_neg (by simp)]
    constructor
    . intro hfits
      cases hhas : (s.appenders a).m_hasFormatter with
      | true => exact .inl rfl
      | false =>
        right
        rw [← hfits.inherited hhas, hfmt]
    . intro hor
      constructor
      . rw [hfmt]
        simp
      . intro hhas
        rcases hor with hown | hl
        . rw [hhas] at hown
          cases hown
        . rw [hfmt, hl]

theorem follow_loggers (val : Option F) (as : List Nat) (s : Loggers F)
    : (as.foldl (follow val) s).loggers = s.loggers := by
  induction as generalizing s with
  | nil => rfl
  | cons a as ih =>
    rw [List.foldl_cons, ih]
    unfold follow
    split
    . rfl
    . rfl

theorem follow_appenders (val : Option F) (as : List Nat) (s : Loggers F) (a : Nat)
    : (as.foldl (follow val) s).appenders a
        = if a ∈ as ∧ (s.appenders a).m_hasFormatter = false then
            { s.appenders a with m_formatter := val }
          else
            s.appenders a := by
  induction as generalizing s with
  | nil => simp
  | cons b as ih =>
    rw [List.foldl_cons, ih]
    by_cases hab : a = b
    . subst hab
      unfold follow
      cases hhas : (s.appenders a).m_hasFormatter with
      | true => simp [hhas]
      | false => simp [hhas]
    . have hsame : (follow val s b).appenders a = s.appenders a := by
        unfold follow
        split
        . rw [setAppender_of_ne s _ hab]
        . rfl
      rw [hsame]
      simp [hab]

theorem setFormatter_loggers (s : Loggers F) (l : Nat) (val : Option F) (l' : Nat)
    : (s.setFormatter l val).loggers l'
        = if l' = l then { s.loggers l with m_formatter := val } else s.loggers l' := by
  unfold setFormatter
  dsimp only
  rw [follow_loggers]
  split
  . next hl => rw [hl, setLogger_self]
  . next hl => rw [setLogger_of_ne s _ hl]

theorem setFormatter_appenders (s : Loggers F) (l : Nat) (val : Option F) (a : Nat)
    : (s.setFormatter l val).appenders a
        = if a ∈ (s.loggers l).m_appenders ∧ (s.appenders a).m_hasFormatter = false then
            { s.appenders a with m_formatter := val }
          else
            s.appenders a := by
  unfold setFormatter
  dsimp only
  rw [follow_appenders]
  rfl

theorem setFormatter_attached (s : Loggers F) (l : Nat) (val : Option F) (l' a : Nat)
    : (s.setFormatter l val).Attached l' a ↔ s.Attached l' a := by
  unfold Attached
  rw [setFormatter_loggers]
  split
  . next hl => rw [hl]
  . rfl

theorem setFormatter_formatted_iff (h : Formatted s) {val : Option F}
    : Formatted (s.setFormatter l val) ↔ s.Agrees l val := by
  constructor
  . intro h' a ha hhas
    have happ := setFormatter_appenders s l val a
    rw [if_pos ⟨ha, hhas⟩] at happ
    refine ⟨?_, ?_⟩
    . have hfits := h' l a ((setFormatter_attached s l val l a).mpr ha)
      rw [happ] at hfits
      exact hfits.nonnull
    . intro l' hl' ha'
      have hfits := h' l' a ((setFormatter_attached s l val l' a).mpr ha')
      rw [happ, setFormatter_loggers, if_neg hl'] at hfits
      exact (hfits.inherited hhas).symm
  . intro hagrees l' a ha'
    rw [setFormatter_attached] at ha'
    rw [setFormatter_appenders, setFormatter_loggers]
    split
    . next hfollows =>
      obtain ⟨hnonnull, hothers⟩ := hagrees a hfollows.1 hfollows.2
      refine ⟨hnonnull, ?_⟩
      intro _
      split
      . rfl
      . next hl' => exact (hothers l' hl' ha').symm
    . next hkeeps =>
      have hfits := h l' a ha'
      refine ⟨hfits.nonnull, ?_⟩
      intro hhas
      split
      . next hl' =>
        rw [hl'] at ha'
        exact absurd ⟨ha', hhas⟩ hkeeps
      . exact hfits.inherited hhas

theorem setOwnFormatter_formatted_iff (h : Formatted s) {formatter : Option F}
    : Formatted (s.setOwnFormatter a formatter) ↔ s.Consistent (.setOwnFormatter a formatter) := by
  unfold setOwnFormatter Consistent
  dsimp only
  constructor
  . intro h'
    by_cases hnull : formatter = none
    . right
      intro l ha
      have hfits := h' l a ha
      rw [setAppender_self] at hfits
      exact hfits.nonnull hnull
    . exact .inl hnull
  . intro hor l' a' ha'
    by_cases haa : a' = a
    . subst haa
      have hnonnull : formatter ≠ none := by
        rcases hor with hnonnull | hfree
        . exact hnonnull
        . exact absurd ha' (hfree l')
      rw [setAppender_self]
      refine ⟨hnonnull, ?_⟩
      intro hhas
      exact absurd (Option.isSome_eq_false_iff.mp hhas) (by simpa using hnonnull)
    . rw [setAppender_of_ne s _ haa]
      exact h l' a' ha'

theorem call_formatted_iff (h : Formatted s) (c : Call F)
    : Formatted (s.call c) ↔ s.Consistent c := by
  cases c with
  | addAppender l a => exact addAppender_formatted_iff h
  | delAppender l a =>
    constructor
    . intro _
      trivial
    . intro _
      apply h.detach
      intro a' ha'
      exact List.mem_of_mem_erase ha'
  | clearAppenders l =>
    constructor
    . intro _
      trivial
    . intro _
      apply h.detach
      intro a ha
      cases ha
  | setFormatter l val => exact setFormatter_formatted_iff h
  | setPattern l new_val isError =>
    unfold call setPattern Consistent
    cases isError with
    | true => simp [h]
    | false => simp [setFormatter_formatted_iff h]
  | setOwnFormatter a formatter => exact setOwnFormatter_formatted_iff h

end Call

section Log

variable {s : Loggers F}

theorem logTo_ok_iff {level : LogLevel} {a : Nat}
    : (∃ used, s.logTo level a = .ok used)
      ↔ ¬level < (s.appenders a).m_level → (s.appenders a).m_formatter ≠ none := by
  unfold logTo
  split
  . next h => exact iff_of_true ⟨[], rfl⟩ (fun h' => absurd h h')
  . next h =>
    split
    . next hnone => exact iff_of_false nofun (fun h' => h' h hnone)
    . next formatter hsome =>
      apply iff_of_true ⟨[formatter], rfl⟩
      intro _
      rw [hsome]
      exact Option.some_ne_none formatter

theorem logToAll_ok_iff {level : LogLevel} {as : List Nat}
    : (∃ used, s.logToAll level as = .ok used)
      ↔ ∀ a ∈ as, ¬level < (s.appenders a).m_level → (s.appenders a).m_formatter ≠ none := by
  induction as with
  | nil => exact iff_of_true ⟨[], rfl⟩ nofun
  | cons a as ih =>
    have hcons : s.logToAll level (a :: as)
        = (s.logTo level a).bind fun used => (s.logToAll level as).map (used ++ ·) := rfl
    rw [List.forall_mem_cons, ← ih, ← logTo_ok_iff, hcons]
    constructor
    . rintro ⟨used, h⟩
      obtain ⟨used₁, hfirst, hrest⟩ := Except.bind_eq_ok h
      obtain ⟨used₂, hall, -⟩ := Except.map_eq_ok hrest
      exact ⟨⟨used₁, hfirst⟩, ⟨used₂, hall⟩⟩
    . rintro ⟨⟨used₁, hfirst⟩, ⟨used₂, hall⟩⟩
      refine ⟨used₁ ++ used₂, ?_⟩
      rw [hfirst, hall]
      rfl

theorem Formatted.log_ok (h : Formatted s) (l : Nat) (level : LogLevel)
    : ∃ used, s.log l level = .ok used := by
  have hall : ∀ l', ∃ used, s.logToAll level (s.loggers l').m_appenders = .ok used := by
    intro l'
    rw [logToAll_ok_iff]
    intro a ha _
    exact (h l' a ha).nonnull
  unfold log
  dsimp only
  split
  . exact ⟨[], rfl⟩
  . split
    . exact hall l
    . split
      . exact ⟨[], rfl⟩
      . next root _ =>
        split
        . exact ⟨[], rfl⟩
        . exact hall root

end Log

-- every state of the run is formatted, so that no `log` uses a null formatter
def KeepsFormatters (s₀ : Loggers F) (trace : List (Call F)) : Prop :=
  ∀ pre post s, trace = pre ++ post → (lts F).Run s₀ pre s
    → Formatted s ∧ ∀ l level, ∃ used, s.log l level = .ok used

theorem step_det (s : Loggers F) (c : Call F) (t t' : Loggers F) (h : (lts F).step s c t)
    (h' : (lts F).step s c t') : t = t' :=
  h.trans h'.symm

theorem start_formatted (formatter : Nat → F) (root : Nat → Option Nat)
    : Formatted (start formatter root) := by
  intro l a ha
  cases ha

theorem run_formatted {s s' : Loggers F} {trace : List (Call F)}
    (h : ((lts F).restrict Consistent).Run s trace s') (hs : Formatted s) : Formatted s' := by
  apply h.invariant (I := Formatted)
  . intro s c t hs hstep
    rw [hstep.2]
    exact (call_formatted_iff hs c).mpr hstep.1
  . exact hs

theorem run_keepsFormatters_iff (formatter : Nat → F) (root : Nat → Option Nat)
    {trace : List (Call F)} {s : Loggers F} (h : (lts F).Run (start formatter root) trace s)
    : KeepsFormatters (start formatter root) trace
      ↔ ((lts F).restrict Consistent).Run (start formatter root) trace s := by
  constructor
  . intro hkeeps
    apply h.restrict_of
    intro pre c post u u' heq hrun hstep
    have hbefore := (hkeeps pre (c :: post) u heq hrun).1
    have hafter := (hkeeps (pre ++ [c]) post u' (by rw [heq, List.append_cons]) (hrun.snoc hstep)).1
    rw [hstep] at hafter
    exact (call_formatted_iff hbefore c).mp hafter
  . intro hrun pre post u heq hpre
    rw [heq] at hrun
    have hformatted := run_formatted (hrun.restrict_prefix step_det hpre) (start_formatted formatter root)
    exact ⟨hformatted, hformatted.log_ok⟩

section Example

def newLoggers : Loggers Nat :=
  start (fun l => l) fun _ => none

def sharesOwn : List (Call Nat) :=
  [.addAppender 0 5, .setFormatter 0 (some 9), .setOwnFormatter 5 (some 3), .addAppender 1 5]

theorem run_keepsFormatters_sharesOwn
    : ∃ s, (lts Nat).Run newLoggers sharesOwn s ∧ KeepsFormatters newLoggers sharesOwn := by
  have hfirst : newLoggers.Consistent (.addAppender 0 5) := by
    intro hnull
    cases hnull
  have hagrees : (newLoggers.addAppender 0 5).Agrees 0 (some 9) := by
    intro a ha hhas
    refine ⟨by decide, ?_⟩
    intro l' hl' ha'
    rw [addAppender_attached] at ha'
    rcases ha' with hnew | ⟨rfl, -⟩
    . cases hnew
    . exact absurd rfl hl'
  have hrun : ((lts Nat).restrict Consistent).Run newLoggers sharesOwn _ :=
    .cons ⟨hfirst, rfl⟩ (.cons ⟨hagrees, rfl⟩ (.cons ⟨.inl (by decide), rfl⟩
      (.cons ⟨.inl rfl, rfl⟩ (.nil _))))
  exact ⟨_, hrun.of_restrict, (run_keepsFormatters_iff _ _ hrun.of_restrict).mpr hrun⟩

def resetsOwn : List (Call Nat) :=
  [.addAppender 0 5, .setOwnFormatter 5 none]

theorem not_keepsFormatters_resetsOwn
    : ∃ s, (lts Nat).Run newLoggers resetsOwn s ∧ s.log 0 .ERROR = .error .nullFormatter
        ∧ ¬KeepsFormatters newLoggers resetsOwn := by
  have hrun : (lts Nat).Run newLoggers resetsOwn _ := .cons rfl (.cons rfl (.nil _))
  refine ⟨_, hrun, rfl, ?_⟩
  intro hkeeps
  obtain ⟨used, hused⟩ := (hkeeps resetsOwn [] _ rfl hrun).2 0 .ERROR
  cases hused

end Example

end Loggers
end CXS
