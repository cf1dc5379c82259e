import CXS.Log.Appenders
import CXS.Log.Formatter

namespace CXS

structure LoggerManager where
  objects : Loggers LogFormatter
  kinds : Nat → AppenderKind
  loggerCount : Nat
  appenderCount : Nat
  m_loggers : String → Option Nat
  m_root : Nat

namespace LoggerManager

def defaultFormatter : LogFormatter :=
  .new "%d\x7b%Y-%m-%d %H:%M:%S\x7d%T%t%T%N%T%F%T[%p]%T[%c]%T%f:%l%T%m%n"

def defaultLogger (root : Option Nat) : Shared.Logger LogFormatter :=
  ⟨.DEBUG, [], some defaultFormatter, root⟩

def newLogger (m : LoggerManager) (root : Option Nat) : LoggerManager :=
  { m with
    objects := m.objects.setLogger m.loggerCount (defaultLogger root)
    loggerCount := m.loggerCount + 1
  }

def newAppender (m : LoggerManager) (kind : AppenderKind) : LoggerManager :=
  { m with
    objects := m.objects.setAppender m.appenderCount ⟨.DEBUG, none, false⟩
    kinds := Function.update m.kinds m.appenderCount kind
    appenderCount := m.appenderCount + 1
  }

-- the root logger has an appender from the start
def new : LoggerManager where
  objects := (Loggers.start (fun _ => defaultFormatter) fun _ => none).addAppender 0 0
  kinds _ := .StdoutAppender
  loggerCount := 1
  appenderCount := 1
  m_loggers := Function.update (fun _ => none) "root" (some 0)
  m_root := 0

def getLogger (m : LoggerManager) (name : String) : LoggerManager × Nat :=
  match m.m_loggers name with
  | some l => (m, l)
  | none =>
    ({ m.newLogger (some m.m_root) with
      m_loggers := Function.update m.m_loggers name (some m.loggerCount)
    }, m.loggerCount)

structure Valid (m : LoggerManager) : Prop where
  registered : ∀ name l, m.m_loggers name = some l → l < m.loggerCount
  injective : ∀ name name' l, m.m_loggers name = some l → m.m_loggers name' = some l → name = name'
  attached : ∀ l a, m.objects.Attached l a → l < m.loggerCount ∧ a < m.appenderCount
  root : m.m_root < m.loggerCount
  rootless : (m.objects.loggers m.m_root).m_root = none

variable {m : LoggerManager}

theorem new_of_ne {name : String} (h : name ≠ "root") : new.m_loggers name = none := by
  unfold new
  dsimp only
  rw [Function.update_of_ne h]

theorem valid_new : new.Valid where
  registered := by
    intro name l h
    by_cases hname : name = "root"
    . subst hname
      cases h
      decide
    . rw [new_of_ne hname] at h
      cases h
  injective := by
    intro name name' l h h'
    by_cases hname : name = "root"
    . by_cases hname' : name' = "root"
      . rw [hname, hname']
      . rw [new_of_ne hname'] at h'
        cases h'
    . rw [new_of_ne hname] at h
      cases h
  attached := by
    intro l a h
    unfold new at h
    rw [Loggers.addAppender_attached] at h
    rcases h with h | ⟨rfl, rfl⟩
    . cases h
    . exact ⟨by decide, by decide⟩
  root := by decide
  rootless := rfl

theorem Valid.of_objects (h : m.Valid) {objects : Loggers LogFormatter}
    (hattached : ∀ l a, objects.Attached l a → l < m.loggerCount ∧ a < m.appenderCount)
    (hroot : (objects.loggers m.m_root).m_root = (m.objects.loggers m.m_root).m_root)
    : { m with objects }.Valid where
  registered := h.registered
  injective := h.injective
  attached := hattached
  root := h.root
  rootless := hroot.trans h.rootless

theorem attached_setLogger {s : Loggers LogFormatter} {l : Nat} {logger : Shared.Logger LogFormatter}
    (hsub : ∀ a ∈ logger.m_appenders, s.Attached l a) {l' a : Nat}
    (h : (s.setLogger l logger).Attached l' a) : s.Attached l' a := by
  unfold Loggers.Attached at h
  by_cases hl : l' = l
  . subst hl
    rw [Loggers.setLogger_self] at h
    exact hsub a h
  . rw [Loggers.setLogger_of_ne s _ hl] at h
    exact h

theorem Valid.setLogger (h : m.Valid) {l : Nat} {logger : Shared.Logger LogFormatter}
    (hsub : ∀ a ∈ logger.m_appenders, m.objects.Attached l a)
    (hroot : logger.m_root = (m.objects.loggers l).m_root)
    : { m with objects := m.objects.setLogger l logger }.Valid := by
  apply h.of_objects
  . intro l' a ha
    exact h.attached l' a (attached_setLogger hsub ha)
  . by_cases hl : m.m_root = l
    . subst hl
      rw [Loggers.setLogger_self]
      exact hroot
    . rw [Loggers.setLogger_of_ne _ _ hl]

theorem Valid.setAppender (h : m.Valid) (a : Nat) (appender : Shared.Appender LogFormatter)
    : { m with objects := m.objects.setAppender a appender }.Valid :=
  h.of_objects h.attached rfl

theorem Valid.newLogger (h : m.Valid) (root : Option Nat) : (m.newLogger root).Valid where
  registered := by
    intro name l hl
    exact Nat.lt_succ_of_lt (h.registered name l hl)
  injective := h.injective
  attached := by
    intro l a ha
    have hold : m.objects.Attached l a := attached_setLogger (by simp [defaultLogger]) ha
    obtain ⟨hl, ha⟩ := h.attached l a hold
    exact ⟨Nat.lt_succ_of_lt hl, ha⟩
  root := Nat.lt_succ_of_lt h.root
  rootless := by
    unfold LoggerManager.newLogger
    dsimp only
    rw [Loggers.setLogger_of_ne _ _ (Nat.ne_of_lt h.root)]
    exact h.rootless

theorem Valid.newAppender (h : m.Valid) (kind : AppenderKind) : (m.newAppender kind).Valid where
  registered := h.registered
  injective := h.injective
  attached := by
    intro l a ha
    obtain ⟨hl, ha⟩ := h.attached l a ha
    exact ⟨hl, Nat.lt_succ_of_lt ha⟩
  root := h.root
  rootless := h.rootless

def number (m : LoggerManager) (name : String) : Nat :=
  (m.m_loggers name).getD m.loggerCount

def entry (m : LoggerManager) (name : String) : Shared.Logger LogFormatter :=
  match m.m_loggers name with
  | some l => m.objects.loggers l
  | none => defaultLogger (some m.m_root)

def NamedHas (m : LoggerManager) (name : String) (a : Nat) : Prop :=
  a ∈ (m.entry name).m_appenders

instance {name : String} {a : Nat} : Decidable (m.NamedHas name a) :=
  inferInstanceAs (Decidable (a ∈ _))

structure Got (m m' : LoggerManager) (name : String) : Prop where
  valid : m'.Valid
  m_loggers : m'.m_loggers = Function.update m.m_loggers name (some (m.number name))
  m_root : m'.m_root = m.m_root
  loggerCount : m.loggerCount ≤ m'.loggerCount
  appenderCount : m'.appenderCount = m.appenderCount
  kinds : m'.kinds = m.kinds
  appenders : m'.objects.appenders = m.objects.appenders
  self : m'.objects.loggers (m.number name) = m.entry name
  others : ∀ l, l ≠ m.number name → m'.objects.loggers l = m.objects.loggers l

section GetLogger

variable {name : String}

theorem getLogger_of_some {l : Nat} (h : m.m_loggers name = some l) : m.getLogger name = (m, l) := by
  unfold getLogger
  rw [h]

theorem getLogger_of_none (h : m.m_loggers name = none)
    : m.getLogger name
        = ({ m.newLogger (some m.m_root) with
            m_loggers := Function.update m.m_loggers name (some m.loggerCount)
          }, m.loggerCount) := by
  unfold getLogger
  rw [h]

theorem number_of_some {l : Nat} (h : m.m_loggers name = some l) : m.number name = l := by
  unfold number
  rw [h, Option.getD_some]

theorem number_of_none (h : m.m_loggers name = none) : m.number name = m.loggerCount := by
  unfold number
  rw [h, Option.getD_none]

theorem entry_of_some {l : Nat} (h : m.m_loggers name = some l)
    : m.entry name = m.objects.loggers l := by
  unfold entry
  rw [h]

theorem entry_of_none (h : m.m_loggers name = none)
    : m.entry name = defaultLogger (some m.m_root) := by
  unfold entry
  rw [h]

end GetLogger

theorem getLogger_snd (m : LoggerManager) (name : String)
    : (m.getLogger name).2 = m.number name := by
  cases hname : m.m_loggers name with
  | some l => rw [getLogger_of_some hname, number_of_some hname]
  | none => rw [getLogger_of_none hname, number_of_none hname]

theorem getLogger_got (h : m.Valid) (name : String) : Got m (m.getLogger name).1 name := by
  cases hname : m.m_loggers name with
  | some l =>
    rw [getLogger_of_some hname]
    refine ⟨h, ?_, rfl, Nat.le_refl _, rfl, rfl, rfl, ?_, fun _ _ => rfl⟩
    . rw [number_of_some hname, ← hname, Function.update_eq_self]
    . rw [number_of_some hname, entry_of_some hname]
  | none =>
    have hnew := h.newLogger (some m.m_root)
    rw [getLogger_of_none hname]
    refine ⟨?_, ?_, rfl, Nat.le_succ _, rfl, rfl, rfl, ?_, ?_⟩
    . refine ⟨?_, ?_, hnew.attached, hnew.root, hnew.rootless⟩
      . intro name' l hl
        dsimp only at hl
        by_cases hsame : name' = name
        . subst hsame
          rw [Function.update_self] at hl
          cases hl
          exact Nat.lt_succ_self _
        . rw [Function.update_of_ne hsame] at hl
          exact hnew.registered name' l hl
      . intro name₁ name₂ l h₁ h₂
        dsimp only at h₁ h₂
        by_cases hsame₁ : name₁ = name
        . by_cases hsame₂ : name₂ = name
          . rw [hsame₁, hsame₂]
          . rw [hsame₁, Function.update_self] at h₁
            rw [Function.update_of_ne hsame₂] at h₂
            cases h₁
            exact absurd (h.registered name₂ _ h₂) (Nat.lt_irrefl _)
        . rw [Function.update_of_ne hsame₁] at h₁
          by_cases hsame₂ : name₂ = name
          . rw [hsame₂, Function.update_self] at h₂
            cases h₂
            exact absurd (h.registered name₁ _ h₁) (Nat.lt_irrefl _)
          . rw [Function.update_of_ne hsame₂] at h₂
            exact h.injective name₁ name₂ l h₁ h₂
    . rw [number_of_none hname]
    . rw [number_of_none hname, entry_of_none hname]
      exact Loggers.setLogger_self _ _
    . intro l hl
      rw [number_of_none hname] at hl
      exact Loggers.setLogger_of_ne _ _ hl

end LoggerManager
end CXS
