import Mathlib.Data.List.Forall2
import Mathlib.Data.List.Nodup
import CXS.Log.Config

/-!
This module contains what a change of the variable `logs` has to do to the loggers, and when
`setValue` does it. `setValue` compares the definitions with an equality that leaves out the
formatters of the appenders, and the listener takes the logger of an unchanged definition to be null.
-/

namespace CXS

def validFormatter (pattern : String) : Option LogFormatter :=
  if pattern.isEmpty || (LogFormatter.new pattern).isError then none else some (.new pattern)

def LogDefine.ownFormatter (d : LogDefine) : Option LogFormatter :=
  validFormatter d.formatter

namespace LogAppenderDefine

def kind (a : LogAppenderDefine) : Option AppenderKind :=
  if a.type = 1 then
    some (.FileLogAppender a.file)
  else if a.type = 2 then
    some .StdoutAppender
  else
    none

def ownFormatter (a : LogAppenderDefine) : Option LogFormatter :=
  validFormatter a.formatter

theorem kind_isSome_iff (a : LogAppenderDefine) : a.kind.isSome ↔ a.type = 1 ∨ a.type = 2 := by
  unfold kind
  split
  . next h => simp [h]
  . next h =>
    split
    . next h' => simp [h']
    . next h' => simp [h, h']

end LogAppenderDefine

namespace LoggerManager

/--
The appender `ap` is as its definition says. Without a valid formatter of its own it has the one of
the logger.
-/
structure Made (m : LoggerManager) (inherited : Option LogFormatter) (a : LogAppenderDefine) (ap : Nat)
    : Prop where
  kind : a.kind = some (m.kinds ap)
  level : (m.objects.appenders ap).m_level = a.level
  own : (m.objects.appenders ap).m_hasFormatter = a.ownFormatter.isSome
  formatter : (m.objects.appenders ap).m_formatter = (a.ownFormatter <|> inherited)

structure Fits (m : LoggerManager) (d : LogDefine) (l : Nat) : Prop where
  level : (m.objects.loggers l).m_level = d.level
  formatter : d.ownFormatter.isSome → (m.objects.loggers l).m_formatter = d.ownFormatter
  appenders : List.Forall₂ (m.Made (m.objects.loggers l).m_formatter) d.appenders
    (m.objects.loggers l).m_appenders
  formatted : ∀ a ∈ (m.objects.loggers l).m_appenders, (m.objects.appenders a).m_formatter.isSome

structure Dropped (m : LoggerManager) (l : Nat) : Prop where
  level : .FATAL < (m.objects.loggers l).m_level
  appenders : (m.objects.loggers l).m_appenders = []

def Holds (m : LoggerManager) (ds : LogDefines) : Prop :=
  ∀ d ∈ ds.defs, ∃ l, m.m_loggers d.name = some l ∧ m.Fits d l

structure Unchanged (before after : LoggerManager) (l : Nat) : Prop where
  logger : after.objects.loggers l = before.objects.loggers l
  appenders : ∀ a, before.objects.Attached l a
    → after.objects.appenders a = before.objects.appenders a ∧ after.kinds a = before.kinds a

def Unnamed (m : LoggerManager) (ds : List LogDefine) (l : Nat) : Prop :=
  ∀ d ∈ ds, m.m_loggers d.name ≠ some l

end LoggerManager

structure Configured (old new : LogDefines) (before after : LoggerManager) : Prop where
  named : after.Holds new
  dropped : ∀ d ∈ old.defs, d.name ∉ new.names
    → ∃ l, after.m_loggers d.name = some l ∧ after.Dropped l
  registered : ∀ name, name ∉ old.names → name ∉ new.names
    → after.m_loggers name = before.m_loggers name
  others : ∀ l, l < before.loggerCount → before.Unnamed (new.defs ++ old.defs) l
    → LoggerManager.Unchanged before after l

-- the definition is new or changed, and its appenders have types that there are classes for
structure LogDefine.Applies (old : LogDefines) (d : LogDefine) : Prop where
  changed : ∀ e ∈ old.defs, e.name = d.name → (d == e) = false
  types : ∀ a ∈ d.appenders, a.type = 1 ∨ a.type = 2

def LogDefines.SameFormatters (ds es : LogDefines) : Prop :=
  List.Forall₂
    (fun d e => List.Forall₂ (fun a b => a.ownFormatter = b.ownFormatter) d.appenders e.appenders)
    ds.defs es.defs

namespace LoggerManager

-- the root logger has a formatter wherever it prints a line of the level `INFO`
def Prints (m : LoggerManager) : Prop :=
  ¬.INFO < (m.objects.loggers m.m_root).m_level
    → ∀ a, m.objects.Attached m.m_root a → ¬.INFO < (m.objects.appenders a).m_level
      → (m.objects.appenders a).m_formatter ≠ none

-- the appenders of the definition that have no formatter of their own can have the one of the logger
def Formats (m : LoggerManager) (d : LogDefine) : Prop :=
  (∃ a ∈ d.appenders, a.ownFormatter = none)
    → (d.ownFormatter <|> (m.entry d.name).m_formatter).isSome

-- the formatter of an appender that follows its loggers, when each definition has set its own
def followed (m : LoggerManager) (a : Nat) (ds : List LogDefine) (formatter : Option LogFormatter)
    : Option LogFormatter :=
  ds.foldl (fun formatter d => if m.NamedHas d.name a then d.ownFormatter <|> formatter else formatter)
    formatter

-- no other logger has an appender that comes to have a different formatter in this way
def Separate (m : LoggerManager) (old new : LogDefines) : Prop :=
  ∀ l a, m.objects.Attached l a → m.Unnamed (new.defs ++ old.defs) l
    → (m.objects.appenders a).m_hasFormatter = false
    → m.followed a new.defs (m.objects.appenders a).m_formatter = (m.objects.appenders a).m_formatter

end LoggerManager

namespace LogDefines

theorem nodup_names (ds : LogDefines) : ds.names.Nodup := by
  apply ds.sorted.imp
  intro a b h
  exact ne_of_lt h

theorem find_eq_none_iff {ds : LogDefines} {d : LogDefine}
    : ds.find d = none ↔ d.name ∉ ds.names := by
  unfold find names
  rw [List.find?_eq_none]
  simp

theorem find_eq_some_iff {ds : LogDefines} {d e : LogDefine}
    : ds.find d = some e ↔ e ∈ ds.defs ∧ e.name = d.name := by
  constructor
  . intro h
    exact ⟨List.mem_of_find?_eq_some h, by simpa using List.find?_some h⟩
  . rintro ⟨hmem, hname⟩
    cases hfind : ds.find d with
    | none =>
      rw [find_eq_none_iff, ← hname] at hfind
      exact absurd (List.mem_map_of_mem hmem) hfind
    | some e' =>
      have hmem' : e' ∈ ds.defs := List.mem_of_find?_eq_some hfind
      have hname' : e'.name = d.name := by simpa using List.find?_some hfind
      rw [List.inj_on_of_nodup_map ds.nodup_names hmem' hmem (hname'.trans hname.symm)]

end LogDefines

namespace LogIniter

variable {m m' : LoggerManager} {l : Nat}

theorem setPattern_eq (s : Loggers LogFormatter) (l : Nat) (pattern : String)
    : (if pattern.isEmpty then
        s
      else
        s.setPattern l (.new pattern) (LogFormatter.new pattern).isError)
      = match validFormatter pattern with
        | none => s
        | some formatter => s.setFormatter l (some formatter) := by
  unfold validFormatter Loggers.setPattern
  cases hempty : pattern.isEmpty with
  | true => rfl
  | false =>
    cases herror : (LogFormatter.new pattern).isError with
    | true => rfl
    | false => rfl

structure AddedDefined (l : Nat) (a : LogAppenderDefine) (m m' : LoggerManager) : Prop where
  valid : m'.Valid
  m_loggers : m'.m_loggers = m.m_loggers
  m_root : m'.m_root = m.m_root
  loggerCount : m'.loggerCount = m.loggerCount
  appenderCount : m'.appenderCount = m.appenderCount + 1
  self : m'.objects.loggers l
    = { m.objects.loggers l with
        m_appenders := (m.objects.loggers l).m_appenders ++ [m.appenderCount]
      }
  others : ∀ l', l' ≠ l → m'.objects.loggers l' = m.objects.loggers l'
  made : m'.Made (m.objects.loggers l).m_formatter a m.appenderCount
  kinds : ∀ ap, ap < m.appenderCount → m'.kinds ap = m.kinds ap
  appenders : ∀ ap, ap < m.appenderCount → m'.objects.appenders ap = m.objects.appenders ap

def makeAppender (m : LoggerManager) (kind : AppenderKind) (a : LogAppenderDefine) : LoggerManager :=
  { m.newAppender kind with
    objects := m.objects.setAppender m.appenderCount
      ⟨a.level, a.ownFormatter, a.ownFormatter.isSome⟩
  }

theorem setOwnFormatter_eq (s : Loggers LogFormatter) (ap : Nat) (a : LogAppenderDefine)
    (level : LogLevel)
    : (if a.formatter.isEmpty then
        s.setAppender ap ⟨level, none, false⟩
      else if !(LogFormatter.new a.formatter).isError then
        (s.setAppender ap ⟨level, none, false⟩).setOwnFormatter ap (some (.new a.formatter))
      else
        s.setAppender ap ⟨level, none, false⟩)
      = s.setAppender ap ⟨level, a.ownFormatter, a.ownFormatter.isSome⟩ := by
  unfold LogAppenderDefine.ownFormatter validFormatter Loggers.setOwnFormatter
  cases hempty : a.formatter.isEmpty with
  | true => simp
  | false =>
    cases herror : (LogFormatter.new a.formatter).isError with
    | true => simp
    | false => simp

theorem addDefined_eq (l : Nat) (m : LoggerManager) (a : LogAppenderDefine)
    : addDefined l m a
      = match a.kind with
        | none => .error .nullAppender
        | some kind =>
          .ok { makeAppender m kind a with
            objects := (makeAppender m kind a).objects.addAppender l m.appenderCount
          } := by
  have hmade : ∀ kind : AppenderKind,
      (if a.formatter.isEmpty then
        (m.newAppender kind).objects.setAppenderLevel m.appenderCount a.level
      else if !(LogFormatter.new a.formatter).isError then
        ((m.newAppender kind).objects.setAppenderLevel m.appenderCount a.level).setOwnFormatter
          m.appenderCount (some (.new a.formatter))
      else
        (m.newAppender kind).objects.setAppenderLevel m.appenderCount a.level)
      = (makeAppender m kind a).objects := by
    intro kind
    have hlevel : (m.newAppender kind).objects.setAppenderLevel m.appenderCount a.level
        = m.objects.setAppender m.appenderCount ⟨a.level, none, false⟩ := by
      unfold Loggers.setAppenderLevel LoggerManager.newAppender
      simp
    rw [hlevel]
    exact setOwnFormatter_eq m.objects m.appenderCount a a.level
  unfold addDefined LogAppenderDefine.kind
  split
  . dsimp only
    rw [hmade]
    rfl
  . split
    . dsimp only
      rw [hmade]
      rfl
    . rfl

theorem addDefined_isOk_iff {a : LogAppenderDefine}
    : (∃ m', addDefined l m a = .ok m') ↔ a.type = 1 ∨ a.type = 2 := by
  rw [← a.kind_isSome_iff, addDefined_eq]
  cases a.kind with
  | none => simp
  | some kind => simp

theorem addDefined_spec {a : LogAppenderDefine} (hvalid : m.Valid) (hl : l < m.loggerCount)
    (h : addDefined l m a = .ok m') : AddedDefined l a m m' := by
  rw [addDefined_eq] at h
  cases hkind : a.kind with
  | none =>
    rw [hkind] at h
    cases h
  | some kind =>
    rw [hkind] at h
    cases h
    have hmade := (hvalid.newAppender kind).setAppender m.appenderCount
      ⟨a.level, a.ownFormatter, a.ownFormatter.isSome⟩
    have hself : ((makeAppender m kind a).objects.addAppender l m.appenderCount).appenders
        m.appenderCount
        = ⟨a.level, a.ownFormatter <|> (m.objects.loggers l).m_formatter, a.ownFormatter.isSome⟩ := by
      rw [Loggers.addAppender_appenders]
      unfold makeAppender
      rw [Loggers.setAppender_self, Loggers.setAppender_loggers]
      cases hown : a.ownFormatter with
      | none => rw [if_pos ⟨rfl, rfl⟩]; rfl
      | some formatter => rw [if_neg (by simp)]; rfl
    have hothers : ∀ ap, ap < m.appenderCount
        → ((makeAppender m kind a).objects.addAppender l m.appenderCount).appenders ap
          = m.objects.appenders ap := by
      intro ap hap
      rw [Loggers.addAppender_appenders, if_neg (fun h => Nat.ne_of_lt hap h.1)]
      exact Loggers.setAppender_of_ne _ _ (Nat.ne_of_lt hap)
    constructor
    . have hadded : ∀ l' a', ((makeAppender m kind a).objects.addAppender l
          m.appenderCount).Attached l' a' → l' < m.loggerCount ∧ a' < m.appenderCount + 1 := by
        intro l' a' ha'
        rw [Loggers.addAppender_attached] at ha'
        rcases ha' with ha' | ⟨rfl, rfl⟩
        . exact hmade.attached l' a' ha'
        . exact ⟨hl, Nat.lt_succ_self _⟩
      refine ⟨hmade.registered, hmade.injective, hadded, hmade.root, ?_⟩
      dsimp only
      rw [Loggers.addAppender_loggers]
      split
      . next hroot =>
        rw [← hroot]
        exact hmade.rootless
      . exact hmade.rootless
    . rfl
    . rfl
    . rfl
    . rfl
    . dsimp only
      rw [Loggers.addAppender_loggers, if_pos rfl]
      rfl
    . intro l' hl'
      dsimp only
      rw [Loggers.addAppender_loggers, if_neg hl']
      rfl
    . refine ⟨?_, ?_, ?_, ?_⟩
      . rw [hkind]
        simp [makeAppender, LoggerManager.newAppender]
      . dsimp only
        rw [hself]
      . dsimp only
        rw [hself]
      . dsimp only
        rw [hself]
    . intro ap hap
      exact Function.update_of_ne (Nat.ne_of_lt hap) _ _
    . exact hothers

theorem foldlM_addDefined_isOk_iff {as : List LogAppenderDefine}
    : (∃ m', as.foldlM (addDefined l) m = .ok m') ↔ ∀ a ∈ as, a.type = 1 ∨ a.type = 2 := by
  induction as generalizing m with
  | nil => exact iff_of_true ⟨m, rfl⟩ nofun
  | cons a as ih =>
    rw [List.forall_mem_cons, List.foldlM_cons]
    constructor
    . rintro ⟨m', h⟩
      obtain ⟨m₁, hfirst, hrest⟩ := Except.bind_eq_ok h
      exact ⟨addDefined_isOk_iff.mp ⟨m₁, hfirst⟩, ih.mp ⟨m', hrest⟩⟩
    . rintro ⟨htype, htypes⟩
      obtain ⟨m₁, hfirst⟩ := (addDefined_isOk_iff (l := l) (m := m)).mpr htype
      rw [hfirst]
      exact ih.mpr htypes

theorem made_of_same {m m' : LoggerManager} {inherited : Option LogFormatter} {a : LogAppenderDefine}
    {ap : Nat} (h : m.Made inherited a ap) (hkind : m'.kinds ap = m.kinds ap)
    (happender : m'.objects.appenders ap = m.objects.appenders ap) : m'.Made inherited a ap := by
  obtain ⟨hk, hlevel, hown, hformatter⟩ := h
  refine ⟨?_, ?_, ?_, ?_⟩
  . rw [hkind]
    exact hk
  . rw [happender]
    exact hlevel
  . rw [happender]
    exact hown
  . rw [happender]
    exact hformatter

structure AddedAll (l : Nat) (as : List LogAppenderDefine) (aps : List Nat) (m m' : LoggerManager)
    : Prop where
  valid : m'.Valid
  m_loggers : m'.m_loggers = m.m_loggers
  m_root : m'.m_root = m.m_root
  loggerCount : m'.loggerCount = m.loggerCount
  appenderCount : m.appenderCount ≤ m'.appenderCount
  self : m'.objects.loggers l
    = { m.objects.loggers l with m_appenders := (m.objects.loggers l).m_appenders ++ aps }
  others : ∀ l', l' ≠ l → m'.objects.loggers l' = m.objects.loggers l'
  made : List.Forall₂ (m'.Made (m.objects.loggers l).m_formatter) as aps
  fresh : ∀ ap ∈ aps, m.appenderCount ≤ ap ∧ ap < m'.appenderCount
  kinds : ∀ ap, ap < m.appenderCount → m'.kinds ap = m.kinds ap
  appenders : ∀ ap, ap < m.appenderCount → m'.objects.appenders ap = m.objects.appenders ap

theorem foldlM_addDefined_spec {as : List LogAppenderDefine} (hvalid : m.Valid)
    (hl : l < m.loggerCount) (h : as.foldlM (addDefined l) m = .ok m')
    : ∃ aps, AddedAll l as aps m m' := by
  induction as generalizing m with
  | nil =>
    cases h
    refine ⟨[], hvalid, rfl, rfl, rfl, Nat.le_refl _, ?_, fun _ _ => rfl, .nil, nofun,
      fun _ _ => rfl, fun _ _ => rfl⟩
    rw [List.append_nil]
  | cons a as ih =>
    rw [List.foldlM_cons] at h
    obtain ⟨m₁, hfirst, hrest⟩ := Except.bind_eq_ok h
    have hadded := addDefined_spec hvalid hl hfirst
    have hl₁ : l < m₁.loggerCount := by
      rw [hadded.loggerCount]
      exact hl
    obtain ⟨aps, hall⟩ := ih hadded.valid hl₁ hrest
    have hcount := hadded.appenderCount
    have hcount' := hall.appenderCount
    have hformatter : (m₁.objects.loggers l).m_formatter = (m.objects.loggers l).m_formatter := by
      rw [hadded.self]
    refine ⟨m.appenderCount :: aps, hall.valid, hall.m_loggers.trans hadded.m_loggers,
      hall.m_root.trans hadded.m_root, hall.loggerCount.trans hadded.loggerCount, by omega, ?_, ?_,
      ?_, ?_, ?_, ?_⟩
    . rw [hall.self, hadded.self]
      simp
    . intro l' hl'
      rw [hall.others l' hl', hadded.others l' hl']
    . have hnew : m.appenderCount < m₁.appenderCount := by
        omega
      have hmade := hall.made
      rw [hformatter] at hmade
      exact .cons (made_of_same hadded.made (hall.kinds _ hnew) (hall.appenders _ hnew)) hmade
    . intro ap hap
      rcases List.mem_cons.mp hap with rfl | hap
      . omega
      . have := hall.fresh ap hap
        omega
    . intro ap hap
      rw [hall.kinds ap (by omega), hadded.kinds ap hap]
    . intro ap hap
      rw [hall.appenders ap (by omega), hadded.appenders ap hap]

structure Defined (l : Nat) (d : LogDefine) (aps : List Nat) (m m' : LoggerManager) : Prop where
  valid : m'.Valid
  m_loggers : m'.m_loggers = m.m_loggers
  m_root : m'.m_root = m.m_root
  loggerCount : m'.loggerCount = m.loggerCount
  appenderCount : m.appenderCount ≤ m'.appenderCount
  level : (m'.objects.loggers l).m_level = d.level
  formatter : (m'.objects.loggers l).m_formatter
    = (d.ownFormatter <|> (m.objects.loggers l).m_formatter)
  attached : (m'.objects.loggers l).m_appenders = aps
  others : ∀ l', l' ≠ l → m'.objects.loggers l' = m.objects.loggers l'
  made : List.Forall₂ (m'.Made (m'.objects.loggers l).m_formatter) d.appenders aps
  fresh : ∀ ap ∈ aps, m.appenderCount ≤ ap ∧ ap < m'.appenderCount
  kinds : ∀ ap, ap < m.appenderCount → m'.kinds ap = m.kinds ap
  appenders : ∀ ap, ap < m.appenderCount → m'.objects.appenders ap
    = if ap ∈ (m.objects.loggers l).m_appenders ∧ (m.objects.appenders ap).m_hasFormatter = false then
        { m.objects.appenders ap with
          m_formatter := d.ownFormatter <|> (m.objects.appenders ap).m_formatter
        }
      else
        m.objects.appenders ap

def prepare (d : LogDefine) (l : Nat) (m : LoggerManager) : Loggers LogFormatter :=
  let s := m.objects.setLevel l d.level
  let s :=
    match d.ownFormatter with
    | none => s
    | some formatter => s.setFormatter l (some formatter)
  s.clearAppenders l

theorem define_eq (d : LogDefine) (l : Nat) (m : LoggerManager)
    : define d l m = d.appenders.foldlM (addDefined l) { m with objects := prepare d l m } := by
  unfold define prepare LogDefine.ownFormatter
  dsimp only
  rw [setPattern_eq]

theorem prepare_loggers (d : LogDefine) (l : Nat) (m : LoggerManager) (l' : Nat)
    : (prepare d l m).loggers l'
      = if l' = l then
          ⟨d.level, [], d.ownFormatter <|> (m.objects.loggers l).m_formatter,
            (m.objects.loggers l).m_root⟩
        else
          m.objects.loggers l' := by
  unfold prepare Loggers.clearAppenders Loggers.setLevel
  cases hown : d.ownFormatter with
  | none =>
    dsimp only
    split
    . next hl =>
      rw [hl, Loggers.setLogger_self, Loggers.setLogger_self]
      rfl
    . next hl => rw [Loggers.setLogger_of_ne _ _ hl, Loggers.setLogger_of_ne _ _ hl]
  | some formatter =>
    dsimp only
    split
    . next hl =>
      rw [hl, Loggers.setLogger_self, Loggers.setFormatter_loggers, if_pos rfl,
        Loggers.setLogger_self]
      rfl
    . next hl =>
      rw [Loggers.setLogger_of_ne _ _ hl, Loggers.setFormatter_loggers, if_neg hl,
        Loggers.setLogger_of_ne _ _ hl]

theorem prepare_appenders (d : LogDefine) (l : Nat) (m : LoggerManager) (ap : Nat)
    : (prepare d l m).appenders ap
      = if ap ∈ (m.objects.loggers l).m_appenders ∧ (m.objects.appenders ap).m_hasFormatter = false then
          { m.objects.appenders ap with
            m_formatter := d.ownFormatter <|> (m.objects.appenders ap).m_formatter
          }
        else
          m.objects.appenders ap := by
  unfold prepare Loggers.clearAppenders Loggers.setLevel
  cases hown : d.ownFormatter with
  | none =>
    dsimp only
    exact (ite_self (m.objects.appenders ap)).symm
  | some formatter =>
    dsimp only
    rw [Loggers.setLogger_appenders, Loggers.setFormatter_appenders, Loggers.setLogger_self]
    rfl

theorem define_spec {d : LogDefine} (hvalid : m.Valid) (hl : l < m.loggerCount)
    (h : define d l m = .ok m') : ∃ aps, Defined l d aps m m' := by
  rw [define_eq] at h
  have hvalid' : { m with objects := prepare d l m }.Valid := by
    apply hvalid.of_objects
    . intro l' a ha
      unfold Loggers.Attached at ha
      rw [prepare_loggers] at ha
      split at ha
      . cases ha
      . exact hvalid.attached l' a ha
    . rw [prepare_loggers]
      split
      . next hroot => rw [hroot]
      . rfl
  obtain ⟨aps, hall⟩ := foldlM_addDefined_spec hvalid' hl h
  have hself : m'.objects.loggers l = ⟨d.level, aps,
      d.ownFormatter <|> (m.objects.loggers l).m_formatter, (m.objects.loggers l).m_root⟩ := by
    rw [hall.self]
    dsimp only
    rw [prepare_loggers, if_pos rfl, List.nil_append]
  refine ⟨aps, hall.valid, hall.m_loggers, hall.m_root, hall.loggerCount, hall.appenderCount, ?_, ?_,
    ?_, ?_, ?_, hall.fresh, hall.kinds, ?_⟩
  . rw [hself]
  . rw [hself]
  . rw [hself]
  . intro l' hl'
    rw [hall.others l' hl']
    dsimp only
    rw [prepare_loggers, if_neg hl']
  . have hmade := hall.made
    dsimp only at hmade
    rw [prepare_loggers, if_pos rfl] at hmade
    rw [hself]
    exact hmade
  . intro ap hap
    rw [hall.appenders ap hap]
    exact prepare_appenders d l m ap

structure Added (d : LogDefine) (aps : List Nat) (m m' : LoggerManager) : Prop where
  valid : m'.Valid
  m_loggers : m'.m_loggers = Function.update m.m_loggers d.name (some (m.number d.name))
  m_root : m'.m_root = m.m_root
  loggerCount : m.loggerCount ≤ m'.loggerCount
  appenderCount : m.appenderCount ≤ m'.appenderCount
  level : (m'.objects.loggers (m.number d.name)).m_level = d.level
  formatter : (m'.objects.loggers (m.number d.name)).m_formatter
    = (d.ownFormatter <|> (m.entry d.name).m_formatter)
  attached : (m'.objects.loggers (m.number d.name)).m_appenders = aps
  others : ∀ l, l ≠ m.number d.name → m'.objects.loggers l = m.objects.loggers l
  made : List.Forall₂ (m'.Made (m'.objects.loggers (m.number d.name)).m_formatter) d.appenders aps
  fresh : ∀ ap ∈ aps, m.appenderCount ≤ ap ∧ ap < m'.appenderCount
  kinds : ∀ ap, ap < m.appenderCount → m'.kinds ap = m.kinds ap
  appenders : ∀ ap, ap < m.appenderCount → m'.objects.appenders ap
    = if m.NamedHas d.name ap ∧ (m.objects.appenders ap).m_hasFormatter = false then
        { m.objects.appenders ap with
          m_formatter := d.ownFormatter <|> (m.objects.appenders ap).m_formatter
        }
      else
        m.objects.appenders ap

variable {old new : LogDefines}

theorem add_eq (old : LogDefines) (m : LoggerManager) (d : LogDefine)
    : add old m d
      = if (old.find d).all fun e => !(d == e) then
          define d (m.number d.name) (m.getLogger d.name).1
        else
          .error .nullLogger := by
  unfold add
  rw [← LoggerManager.getLogger_snd]
  cases hfind : old.find d with
  | none => rfl
  | some e =>
    cases heq : d == e with
    | true => simp [heq]
    | false => simp [heq]

theorem all_changed_iff {d : LogDefine}
    : (old.find d).all (fun e => !(d == e)) = true
      ↔ ∀ e ∈ old.defs, e.name = d.name → (d == e) = false := by
  rw [Option.all_eq_true]
  constructor
  . intro h e hmem hname
    simpa using h e (LogDefines.find_eq_some_iff.mpr ⟨hmem, hname⟩)
  . intro h e hfind
    obtain ⟨hmem, hname⟩ := LogDefines.find_eq_some_iff.mp hfind
    rw [h e hmem hname]
    rfl

theorem add_isOk_iff {d : LogDefine} : (∃ m', add old m d = .ok m') ↔ d.Applies old := by
  rw [add_eq, define_eq]
  constructor
  . rintro ⟨m', h⟩
    split at h
    . next hall => exact ⟨all_changed_iff.mp hall, foldlM_addDefined_isOk_iff.mp ⟨m', h⟩⟩
    . cases h
  . intro h
    rw [if_pos (all_changed_iff.mpr h.changed)]
    exact foldlM_addDefined_isOk_iff.mpr h.types

theorem add_spec {d : LogDefine} (hvalid : m.Valid) (h : add old m d = .ok m')
    : ∃ aps, Added d aps m m' := by
  rw [add_eq] at h
  split at h
  . have hgot := LoggerManager.getLogger_got hvalid d.name
    have hl : m.number d.name < (m.getLogger d.name).1.loggerCount := by
      apply hgot.valid.registered d.name
      rw [hgot.m_loggers, Function.update_self]
    obtain ⟨aps, hdefined⟩ := define_spec hgot.valid hl h
    have hcount := hdefined.appenderCount
    rw [hgot.appenderCount] at hcount
    refine ⟨aps, hdefined.valid, hdefined.m_loggers.trans hgot.m_loggers,
      hdefined.m_root.trans hgot.m_root, ?_, hcount, hdefined.level, ?_, hdefined.attached, ?_,
      hdefined.made, ?_, ?_, ?_⟩
    . rw [hdefined.loggerCount]
      exact hgot.loggerCount
    . rw [hdefined.formatter, hgot.self]
    . intro l hl
      rw [hdefined.others l hl, hgot.others l hl]
    . have hfresh := hdefined.fresh
      rw [hgot.appenderCount] at hfresh
      exact hfresh
    . intro ap hap
      rw [← hgot.appenderCount] at hap
      rw [hdefined.kinds ap hap, hgot.kinds]
    . intro ap hap
      rw [← hgot.appenderCount] at hap
      rw [hdefined.appenders ap hap, hgot.appenders, hgot.self]
      rfl
  . cases h

-- the logger of the name is as its definition says, up to the formatters that are null
def NamedAs (m : LoggerManager) (d : LogDefine) (formatter : Option LogFormatter) : Prop :=
  ∃ l, m.m_loggers d.name = some l
    ∧ (m.objects.loggers l).m_level = d.level
    ∧ (m.objects.loggers l).m_formatter = (d.ownFormatter <|> formatter)
    ∧ List.Forall₂ (m.Made (m.objects.loggers l).m_formatter) d.appenders
        (m.objects.loggers l).m_appenders

structure Applied (ds : List LogDefine) (m m' : LoggerManager) : Prop where
  valid : m'.Valid
  m_root : m'.m_root = m.m_root
  loggerCount : m.loggerCount ≤ m'.loggerCount
  appenderCount : m.appenderCount ≤ m'.appenderCount
  registered : ∀ name, name ∉ ds.map (·.name) → m'.m_loggers name = m.m_loggers name
  named : ∀ d ∈ ds, NamedAs m' d (m.entry d.name).m_formatter
  others : ∀ l, l < m.loggerCount → m.Unnamed ds l → m'.objects.loggers l = m.objects.loggers l
  kinds : ∀ ap, ap < m.appenderCount → m'.kinds ap = m.kinds ap
  appenders : ∀ ap, ap < m.appenderCount → m'.objects.appenders ap
    = if (m.objects.appenders ap).m_hasFormatter = false then
        { m.objects.appenders ap with
          m_formatter := m.followed ap ds (m.objects.appenders ap).m_formatter
        }
      else
        m.objects.appenders ap

theorem followed_congr {ap : Nat} {ds : List LogDefine} (formatter : Option LogFormatter)
    (h : ∀ d ∈ ds, m'.entry d.name = m.entry d.name)
    : m'.followed ap ds formatter = m.followed ap ds formatter := by
  induction ds generalizing formatter with
  | nil => rfl
  | cons d ds ih =>
    rw [List.forall_mem_cons] at h
    have hhas : m'.NamedHas d.name ap ↔ m.NamedHas d.name ap := by
      unfold LoggerManager.NamedHas
      rw [h.1]
    unfold LoggerManager.followed at ih ⊢
    rw [List.foldl_cons, List.foldl_cons, ih _ h.2]
    simp only [hhas]

theorem followed_of_not {ap : Nat} {ds : List LogDefine} (formatter : Option LogFormatter)
    (h : ∀ d ∈ ds, ¬m.NamedHas d.name ap) : m.followed ap ds formatter = formatter := by
  induction ds generalizing formatter with
  | nil => rfl
  | cons d ds ih =>
    rw [List.forall_mem_cons] at h
    unfold LoggerManager.followed at ih ⊢
    rw [List.foldl_cons, if_neg h.1]
    exact ih formatter h.2

theorem ne_number {name name' : String} (hvalid : m.Valid) (hname : name' ≠ name)
    (hl : m.m_loggers name' = some l) : l ≠ m.number name := by
  intro heq
  cases hget : m.m_loggers name with
  | some l' =>
    rw [LoggerManager.number_of_some hget] at heq
    rw [heq] at hl
    exact hname (hvalid.injective name' name l' hl hget)
  | none =>
    rw [LoggerManager.number_of_none hget] at heq
    have := hvalid.registered name' l hl
    omega

namespace Added

variable {d d' : LogDefine} {aps : List Nat}

theorem registered (h : Added d aps m m') {name : String} (hname : name ≠ d.name)
    : m'.m_loggers name = m.m_loggers name := by
  rw [h.m_loggers, Function.update_of_ne hname]

theorem self (h : Added d aps m m') : m'.m_loggers d.name = some (m.number d.name) := by
  rw [h.m_loggers, Function.update_self]

theorem entry (hvalid : m.Valid) (h : Added d aps m m') {name : String} (hname : name ≠ d.name)
    : m'.entry name = m.entry name := by
  have hget := h.registered hname
  cases hl : m.m_loggers name with
  | some l =>
    rw [hl] at hget
    rw [LoggerManager.entry_of_some hget, LoggerManager.entry_of_some hl]
    exact h.others l (ne_number hvalid hname hl)
  | none =>
    rw [hl] at hget
    rw [LoggerManager.entry_of_none hget, LoggerManager.entry_of_none hl, h.m_root]

theorem not_namedHas (hvalid : m.Valid) (h : Added d aps m m') {ap : Nat} (hap : ap ∈ aps)
    {name : String} (hname : name ≠ d.name) : ¬m'.NamedHas name ap := by
  unfold LoggerManager.NamedHas
  rw [h.entry hvalid hname]
  intro hmem
  have hlt : ap < m.appenderCount := by
    cases hl : m.m_loggers name with
    | some l =>
      rw [LoggerManager.entry_of_some hl] at hmem
      exact (hvalid.attached l ap hmem).2
    | none =>
      rw [LoggerManager.entry_of_none hl] at hmem
      cases hmem
  have := (h.fresh ap hap).1
  omega

end Added

theorem foldlM_add_isOk_iff {ds : List LogDefine} (hvalid : m.Valid)
    : (∃ m', ds.foldlM (add old) m = .ok m') ↔ ∀ d ∈ ds, d.Applies old := by
  induction ds generalizing m with
  | nil => exact iff_of_true ⟨m, rfl⟩ nofun
  | cons d ds ih =>
    rw [List.forall_mem_cons, List.foldlM_cons]
    constructor
    . rintro ⟨m', h⟩
      obtain ⟨m₁, hfirst, hrest⟩ := Except.bind_eq_ok h
      obtain ⟨aps, hadded⟩ := add_spec hvalid hfirst
      exact ⟨add_isOk_iff.mp ⟨m₁, hfirst⟩, (ih hadded.valid).mp ⟨m', hrest⟩⟩
    . rintro ⟨happlies, hall⟩
      obtain ⟨m₁, hfirst⟩ := (add_isOk_iff (m := m)).mpr happlies
      obtain ⟨aps, hadded⟩ := add_spec hvalid hfirst
      rw [hfirst]
      exact (ih hadded.valid).mpr hall

theorem forall₂_made {m m' : LoggerManager} {inherited : Option LogFormatter}
    {as : List LogAppenderDefine} {aps : List Nat} (h : List.Forall₂ (m.Made inherited) as aps)
    (hsame : ∀ ap ∈ aps, m'.kinds ap = m.kinds ap
      ∧ m'.objects.appenders ap = m.objects.appenders ap)
    : List.Forall₂ (m'.Made inherited) as aps := by
  induction h with
  | nil => exact .nil
  | cons hmade _ ih =>
    rw [List.forall_mem_cons] at hsame
    exact .cons (made_of_same hmade hsame.1.1 hsame.1.2) (ih hsame.2)

theorem Applied.nil (hvalid : m.Valid) : Applied [] m m where
  valid := hvalid
  m_root := rfl
  loggerCount := Nat.le_refl _
  appenderCount := Nat.le_refl _
  registered _ _ := rfl
  named := nofun
  others _ _ _ := rfl
  kinds _ _ := rfl
  appenders _ _ := (ite_self _).symm

theorem ne_number_of_unregistered {name : String} (hl : l < m.loggerCount)
    (h : m.m_loggers name ≠ some l) : l ≠ m.number name := by
  intro heq
  cases hget : m.m_loggers name with
  | some l' =>
    rw [LoggerManager.number_of_some hget] at heq
    rw [heq] at h
    exact h hget
  | none =>
    rw [LoggerManager.number_of_none hget] at heq
    omega

section Cons

variable {m₁ : LoggerManager} {d : LogDefine} {ds : List LogDefine} {aps : List Nat}

-- the definitions that follow leave the logger of the first one alone
theorem Added.namedAs (h : Added d aps m m₁) (hall : Applied ds m₁ m') (hvalid : m.Valid)
    (hname : d.name ∉ ds.map (·.name)) (hne : ∀ d' ∈ ds, d'.name ≠ d.name)
    : NamedAs m' d (m.entry d.name).m_formatter := by
  have hself : m'.objects.loggers (m.number d.name) = m₁.objects.loggers (m.number d.name) := by
    apply hall.others
    . exact h.valid.registered _ _ h.self
    . intro d' hd' hl
      exact ne_number hvalid (hne d' hd') (h.registered (hne d' hd') ▸ hl) rfl
  refine ⟨m.number d.name, ?_, ?_, ?_, ?_⟩
  . rw [hall.registered d.name hname, h.self]
  . rw [hself, h.level]
  . rw [hself, h.formatter]
  . rw [hself, h.attached]
    apply forall₂_made h.made
    intro ap hap
    have hlt := (h.fresh ap hap).2
    have hnot : ∀ d' ∈ ds, ¬m₁.NamedHas d'.name ap :=
      fun d' hd' => h.not_namedHas hvalid hap (hne d' hd')
    refine ⟨hall.kinds ap hlt, ?_⟩
    rw [hall.appenders ap hlt, followed_of_not _ hnot]
    exact ite_self _

theorem Added.followed (h : Added d aps m m₁) (hall : Applied ds m₁ m') (hvalid : m.Valid)
    (hne : ∀ d' ∈ ds, d'.name ≠ d.name) {ap : Nat} (hap : ap < m.appenderCount)
    : m'.objects.appenders ap
      = if (m.objects.appenders ap).m_hasFormatter = false then
          { m.objects.appenders ap with
            m_formatter := m.followed ap (d :: ds) (m.objects.appenders ap).m_formatter
          }
        else
          m.objects.appenders ap := by
  have hfollowed : ∀ formatter, m₁.followed ap ds formatter = m.followed ap ds formatter := by
    intro formatter
    apply followed_congr
    intro d' hd'
    exact h.entry hvalid (hne d' hd')
  rw [hall.appenders ap (hap.trans_le h.appenderCount), hfollowed, h.appenders ap hap]
  cases hhas : (m.objects.appenders ap).m_hasFormatter with
  | true => simp [hhas]
  | false =>
    unfold LoggerManager.followed
    by_cases hnamed : m.NamedHas d.name ap
    . simp [hnamed, hhas]
    . simp [hnamed, hhas]

theorem Applied.cons (hall : Applied ds m₁ m') (h : Added d aps m m₁) (hvalid : m.Valid)
    (hname : d.name ∉ ds.map (·.name)) : Applied (d :: ds) m m' := by
  have hne : ∀ d' ∈ ds, d'.name ≠ d.name := by
    intro d' hd' heq
    apply hname
    rw [← heq]
    exact List.mem_map_of_mem hd'
  constructor
  . exact hall.valid
  . exact hall.m_root.trans h.m_root
  . exact h.loggerCount.trans hall.loggerCount
  . exact h.appenderCount.trans hall.appenderCount
  . intro name hother
    rw [List.map_cons, List.mem_cons, not_or] at hother
    rw [hall.registered name hother.2, h.registered hother.1]
  . rw [List.forall_mem_cons]
    constructor
    . exact h.namedAs hall hvalid hname hne
    . intro d' hd'
      rw [← h.entry hvalid (hne d' hd')]
      exact hall.named d' hd'
  . intro l hl hunnamed
    unfold LoggerManager.Unnamed at hunnamed
    rw [List.forall_mem_cons] at hunnamed
    rw [hall.others l (hl.trans_le h.loggerCount),
      h.others l (ne_number_of_unregistered hl hunnamed.1)]
    intro d' hd'
    rw [h.registered (hne d' hd')]
    exact hunnamed.2 d' hd'
  . intro ap hap
    rw [hall.kinds ap (hap.trans_le h.appenderCount), h.kinds ap hap]
  . intro ap hap
    exact h.followed hall hvalid hne hap

end Cons

theorem foldlM_add_spec {ds : List LogDefine} (hnodup : (ds.map (·.name)).Nodup) (hvalid : m.Valid)
    (h : ds.foldlM (add old) m = .ok m') : Applied ds m m' := by
  induction ds generalizing m with
  | nil =>
    cases h
    exact .nil hvalid
  | cons d ds ih =>
    rw [List.map_cons, List.nodup_cons] at hnodup
    rw [List.foldlM_cons] at h
    obtain ⟨m₁, hfirst, hrest⟩ := Except.bind_eq_ok h
    obtain ⟨aps, hadded⟩ := add_spec hvalid hfirst
    exact (ih hnodup.2 hadded.valid hrest).cons hadded hvalid hnodup.1

structure Deleted (new : LogDefines) (ds : List LogDefine) (m m' : LoggerManager) : Prop where
  valid : m'.Valid
  loggerCount : m.loggerCount ≤ m'.loggerCount
  registered : ∀ name, name ∉ ds.map (·.name) → m'.m_loggers name = m.m_loggers name
  kept : ∀ name, name ∈ new.names → m'.m_loggers name = m.m_loggers name
  dropped : ∀ d ∈ ds, d.name ∉ new.names → ∃ l, m'.m_loggers d.name = some l ∧ m'.Dropped l
  others : ∀ l, l < m.loggerCount
    → (∀ d ∈ ds, d.name ∉ new.names → m.m_loggers d.name ≠ some l)
    → m'.objects.loggers l = m.objects.loggers l
  kinds : m'.kinds = m.kinds
  appenders : m'.objects.appenders = m.objects.appenders

def drop (s : Loggers LogFormatter) (l : Nat) : Loggers LogFormatter :=
  (s.setLevel l ⟨100⟩).clearAppenders l

theorem drop_loggers (s : Loggers LogFormatter) (l l' : Nat)
    : (drop s l).loggers l'
      = if l' = l then { s.loggers l with m_level := ⟨100⟩, m_appenders := [] } else s.loggers l' := by
  unfold drop Loggers.clearAppenders Loggers.setLevel
  split
  . next hl => rw [hl, Loggers.setLogger_self, Loggers.setLogger_self]
  . next hl => rw [Loggers.setLogger_of_ne _ _ hl, Loggers.setLogger_of_ne _ _ hl]

theorem drop_valid (h : m.Valid) (l : Nat) : { m with objects := drop m.objects l }.Valid := by
  apply h.of_objects
  . intro l' a ha
    unfold Loggers.Attached at ha
    rw [drop_loggers] at ha
    split at ha
    . cases ha
    . exact h.attached l' a ha
  . rw [drop_loggers]
    split
    . next hroot => rw [hroot]
    . rfl

theorem delete_of_mem {d : LogDefine} (h : d.name ∈ new.names) : delete new m d = m := by
  unfold delete
  cases hfind : new.find d with
  | none => exact absurd h (LogDefines.find_eq_none_iff.mp hfind)
  | some e => rfl

theorem delete_of_not_mem {d : LogDefine} (h : d.name ∉ new.names)
    : delete new m d
      = { (m.getLogger d.name).1 with
          objects := drop (m.getLogger d.name).1.objects (m.number d.name)
        } := by
  unfold delete drop
  rw [LogDefines.find_eq_none_iff.mpr h, ← LoggerManager.getLogger_snd]

theorem delete_spec {d : LogDefine} (hvalid : m.Valid) (hname : d.name ∉ new.names)
    : Deleted new [d] m (delete new m d) := by
  have hgot := LoggerManager.getLogger_got hvalid d.name
  rw [delete_of_not_mem hname]
  constructor
  . exact drop_valid hgot.valid _
  . exact hgot.loggerCount
  . intro name hne
    dsimp only
    rw [hgot.m_loggers, Function.update_of_ne (by simpa using hne)]
  . intro name hmem
    dsimp only
    rw [hgot.m_loggers, Function.update_of_ne]
    intro heq
    rw [heq] at hmem
    exact hname hmem
  . intro d' hd' _
    cases List.mem_singleton.mp hd'
    refine ⟨m.number d.name, ?_, ?_, ?_⟩
    . dsimp only
      rw [hgot.m_loggers, Function.update_self]
    . dsimp only
      rw [drop_loggers, if_pos rfl]
      exact (by decide : LogLevel.FATAL < ⟨100⟩)
    . dsimp only
      rw [drop_loggers, if_pos rfl]
  . intro l hl hunnamed
    have hne : l ≠ m.number d.name := by
      intro heq
      cases hget : m.m_loggers d.name with
      | some l' =>
        rw [LoggerManager.number_of_some hget] at heq
        apply hunnamed d (List.mem_singleton.mpr rfl) hname
        rw [heq]
        exact hget
      | none =>
        rw [LoggerManager.number_of_none hget] at heq
        omega
    dsimp only
    rw [drop_loggers, if_neg hne, hgot.others l hne]
  . exact hgot.kinds
  . exact hgot.appenders

theorem foldl_delete_spec {ds : List LogDefine} (hnodup : (ds.map (·.name)).Nodup) (hvalid : m.Valid)
    : Deleted new ds m (ds.foldl (delete new) m) := by
  induction ds generalizing m with
  | nil =>
    exact ⟨hvalid, Nat.le_refl _, fun _ _ => rfl, fun _ _ => rfl, nofun, fun _ _ _ => rfl, rfl, rfl⟩
  | cons d ds ih =>
    rw [List.map_cons, List.nodup_cons] at hnodup
    rw [List.foldl_cons]
    by_cases hname : d.name ∈ new.names
    . rw [delete_of_mem hname]
      have hall := ih hnodup.2 hvalid
      refine ⟨hall.valid, hall.loggerCount, ?_, hall.kept, ?_, ?_, hall.kinds, hall.appenders⟩
      . intro name hne
        rw [List.map_cons, List.mem_cons, not_or] at hne
        exact hall.registered name hne.2
      . rw [List.forall_mem_cons]
        exact ⟨fun h => absurd hname h, hall.dropped⟩
      . intro l hl hunnamed
        rw [List.forall_mem_cons] at hunnamed
        exact hall.others l hl hunnamed.2
    . have hfirst := delete_spec hvalid hname
      have hall := ih hnodup.2 hfirst.valid
      have hcount := hfirst.loggerCount
      have hother : ∀ d' ∈ ds, (delete new m d).m_loggers d'.name = m.m_loggers d'.name := by
        intro d' hd'
        apply hfirst.registered
        intro heq
        apply hnodup.1
        have hsame : d'.name = d.name := by simpa using heq
        rw [← hsame]
        exact List.mem_map_of_mem hd'
      refine ⟨hall.valid, hcount.trans hall.loggerCount, ?_, ?_, ?_, ?_,
        hall.kinds.trans hfirst.kinds, hall.appenders.trans hfirst.appenders⟩
      . intro name hne
        rw [List.map_cons, List.mem_cons, not_or] at hne
        rw [hall.registered name hne.2, hfirst.registered name (by simpa using hne.1)]
      . intro name hmem
        rw [hall.kept name hmem, hfirst.kept name hmem]
      . rw [List.forall_mem_cons]
        refine ⟨?_, hall.dropped⟩
        intro hnot
        obtain ⟨l, hl, hdropped⟩ := hfirst.dropped d (List.mem_singleton.mpr rfl) hnot
        have hsame : (ds.foldl (delete new) (delete new m d)).objects.loggers l
            = (delete new m d).objects.loggers l := by
          apply hall.others l (hfirst.valid.registered _ _ hl)
          intro d' hd' _ hl'
          apply hnodup.1
          rw [hfirst.valid.injective d.name d'.name l hl hl']
          exact List.mem_map_of_mem hd'
        refine ⟨l, ?_, ?_, ?_⟩
        . rw [hall.registered d.name hnodup.1]
          exact hl
        . rw [hsame]
          exact hdropped.level
        . rw [hsame]
          exact hdropped.appenders
      . intro l hl hunnamed
        rw [List.forall_mem_cons] at hunnamed
        rw [hall.others l (by omega), hfirst.others l hl]
        . intro d' hd' hnot
          cases List.mem_singleton.mp hd'
          exact hunnamed.1 hnot
        . intro d' hd' hnot
          rw [hother d' hd']
          exact hunnamed.2 d' hd' hnot

theorem log_ok_iff (hvalid : m.Valid)
    : (∃ used, m.objects.log m.m_root .INFO = .ok used) ↔ m.Prints := by
  unfold Loggers.log LoggerManager.Prints
  dsimp only
  split
  . next hlevel => exact iff_of_true ⟨[], rfl⟩ (fun h => absurd hlevel h)
  . next hlevel =>
    rw [forall_prop_of_true hlevel]
    split
    . exact Loggers.logToAll_ok_iff
    . next hempty =>
      rw [hvalid.rootless]
      apply iff_of_true ⟨[], rfl⟩
      intro a ha
      have hnil : (m.objects.loggers m.m_root).m_appenders = [] := by simpa using hempty
      unfold Loggers.Attached at ha
      rw [hnil] at ha
      cases ha

theorem listener_eq_ok (h : listener old new m = .ok m')
    : (∃ used, m.objects.log m.m_root .INFO = .ok used)
      ∧ ∃ m₁, new.defs.foldlM (add old) m = .ok m₁ ∧ old.defs.foldl (delete new) m₁ = m' := by
  unfold listener at h
  split at h
  . cases h
  . next used hlog => exact ⟨⟨used, hlog⟩, Except.map_eq_ok h⟩

theorem listener_isOk_iff (hvalid : m.Valid)
    : (∃ m', listener old new m = .ok m') ↔ m.Prints ∧ ∀ d ∈ new.defs, d.Applies old := by
  rw [← log_ok_iff hvalid, ← foldlM_add_isOk_iff hvalid]
  constructor
  . rintro ⟨m', h⟩
    obtain ⟨hlog, m₁, hadd, -⟩ := listener_eq_ok h
    exact ⟨hlog, m₁, hadd⟩
  . rintro ⟨⟨used, hlog⟩, m₁, hadd⟩
    refine ⟨old.defs.foldl (delete new) m₁, ?_⟩
    unfold listener
    rw [hlog, hadd]
    rfl

theorem forall₂_formatted_iff {inherited : Option LogFormatter} {as : List LogAppenderDefine}
    {aps : List Nat} (h : List.Forall₂ (m.Made inherited) as aps)
    : (∀ ap ∈ aps, (m.objects.appenders ap).m_formatter.isSome)
      ↔ ((∃ a ∈ as, a.ownFormatter = none) → inherited.isSome) := by
  induction h with
  | nil =>
    apply iff_of_true nofun
    rintro ⟨a, ha, -⟩
    cases ha
  | @cons a ap as aps hmade _ ih =>
    rw [List.forall_mem_cons, ih, hmade.formatter]
    cases hown : a.ownFormatter with
    | none =>
      constructor
      . rintro ⟨hinherited, -⟩ _
        exact hinherited
      . intro h
        have hinherited := h ⟨a, List.mem_cons_self, hown⟩
        exact ⟨hinherited, fun _ => hinherited⟩
    | some formatter => simp [hown]

theorem NamedAs.fits_iff {d : LogDefine} {formatter : Option LogFormatter}
    (h : NamedAs m d formatter)
    : (∃ l, m.m_loggers d.name = some l ∧ m.Fits d l)
      ↔ ((∃ a ∈ d.appenders, a.ownFormatter = none) → (d.ownFormatter <|> formatter).isSome) := by
  obtain ⟨l, hl, hlevel, hformatter, hmade⟩ := h
  rw [← hformatter, ← forall₂_formatted_iff hmade]
  constructor
  . rintro ⟨l', hl', hfits⟩
    rw [hl] at hl'
    cases hl'
    exact hfits.formatted
  . intro hformatted
    refine ⟨l, hl, hlevel, ?_, hmade, hformatted⟩
    intro hown
    obtain ⟨own, hown⟩ := Option.isSome_iff_exists.mp hown
    rw [hformatter, hown]
    rfl

theorem NamedAs.of_same {d : LogDefine} {formatter : Option LogFormatter}
    (h : NamedAs m d formatter) (hl : m'.m_loggers d.name = m.m_loggers d.name)
    (hsame : ∀ l, m.m_loggers d.name = some l → m'.objects.loggers l = m.objects.loggers l)
    (hkinds : m'.kinds = m.kinds) (happenders : m'.objects.appenders = m.objects.appenders)
    : NamedAs m' d formatter := by
  obtain ⟨l, hget, hlevel, hformatter, hmade⟩ := h
  unfold NamedAs
  rw [hl]
  refine ⟨l, hget, ?_⟩
  rw [hsame l hget]
  refine ⟨hlevel, hformatter, ?_⟩
  apply forall₂_made hmade
  intro ap _
  rw [hkinds, happenders]
  exact ⟨rfl, rfl⟩

namespace Deleted

variable {m₁ : LoggerManager}

theorem namedAs (h : Deleted new old.defs m₁ m') (happlied : Applied new.defs m m₁) {d : LogDefine}
    (hd : d ∈ new.defs) : NamedAs m' d (m.entry d.name).m_formatter := by
  have hmem : d.name ∈ new.names := List.mem_map_of_mem hd
  apply (happlied.named d hd).of_same (h.kept d.name hmem) _ h.kinds h.appenders
  intro l hl
  apply h.others l (happlied.valid.registered _ _ hl)
  intro e _ hname hl'
  rw [happlied.valid.injective d.name e.name l hl hl'] at hmem
  exact hname hmem

theorem unnamed (h : Deleted new old.defs m₁ m') (happlied : Applied new.defs m m₁)
    (hl : l < m.loggerCount) (hunnamed : m.Unnamed (new.defs ++ old.defs) l)
    : m'.objects.loggers l = m.objects.loggers l := by
  unfold LoggerManager.Unnamed at hunnamed
  rw [List.forall_mem_append] at hunnamed
  rw [h.others l (hl.trans_le happlied.loggerCount), happlied.others l hl hunnamed.1]
  intro d hd hname
  rw [happlied.registered d.name hname]
  exact hunnamed.2 d hd

theorem attached (h : Deleted new old.defs m₁ m') (happlied : Applied new.defs m m₁)
    (hvalid : m.Valid) {a : Nat} (ha : m.objects.Attached l a)
    : m'.kinds a = m.kinds a
      ∧ m'.objects.appenders a
        = if (m.objects.appenders a).m_hasFormatter = false then
            { m.objects.appenders a with
              m_formatter := m.followed a new.defs (m.objects.appenders a).m_formatter
            }
          else
            m.objects.appenders a := by
  have hlt := (hvalid.attached l a ha).2
  rw [h.kinds, h.appenders]
  exact ⟨happlied.kinds a hlt, happlied.appenders a hlt⟩

theorem unchanged_iff (h : Deleted new old.defs m₁ m') (happlied : Applied new.defs m m₁)
    (hvalid : m.Valid) (hl : l < m.loggerCount) (hunnamed : m.Unnamed (new.defs ++ old.defs) l)
    : LoggerManager.Unchanged m m' l
      ↔ ∀ a, m.objects.Attached l a → (m.objects.appenders a).m_hasFormatter = false
        → m.followed a new.defs (m.objects.appenders a).m_formatter
          = (m.objects.appenders a).m_formatter := by
  constructor
  . intro hsame a ha hhas
    have heq := (hsame.appenders a ha).1
    rw [(h.attached happlied hvalid ha).2, if_pos hhas] at heq
    exact congrArg Shared.Appender.m_formatter heq
  . intro hfollowed
    refine ⟨h.unnamed happlied hl hunnamed, ?_⟩
    intro a ha
    obtain ⟨hkind, happender⟩ := h.attached happlied hvalid ha
    refine ⟨?_, hkind⟩
    rw [happender]
    split
    . next hhas => rw [hfollowed a ha hhas]
    . rfl

end Deleted

theorem listener_configured_iff (hvalid : m.Valid) (h : listener old new m = .ok m')
    : Configured old new m m' ↔ (∀ d ∈ new.defs, m.Formats d) ∧ m.Separate old new := by
  obtain ⟨-, m₁, hadd, rfl⟩ := listener_eq_ok h
  have happlied := foldlM_add_spec new.nodup_names hvalid hadd
  have hdeleted : Deleted new old.defs m₁ (old.defs.foldl (delete new) m₁) :=
    foldl_delete_spec old.nodup_names happlied.valid
  constructor
  . intro hconf
    refine ⟨?_, ?_⟩
    . intro d hd
      exact (hdeleted.namedAs happlied hd).fits_iff.mp (hconf.named d hd)
    . intro l a ha hunnamed hhas
      have hl := (hvalid.attached l a ha).1
      exact (hdeleted.unchanged_iff happlied hvalid hl hunnamed).mp (hconf.others l hl hunnamed)
        a ha hhas
  . rintro ⟨hformats, hseparate⟩
    refine ⟨?_, hdeleted.dropped, ?_, ?_⟩
    . intro d hd
      exact (hdeleted.namedAs happlied hd).fits_iff.mpr (hformats d hd)
    . intro name hold hnew
      rw [hdeleted.registered name hold, happlied.registered name hnew]
    . intro l hl hunnamed
      apply (hdeleted.unchanged_iff happlied hvalid hl hunnamed).mpr
      intro a ha
      exact hseparate l a ha hunnamed

end LogIniter

theorem LogAppenderDefine.beq_iff {a b : LogAppenderDefine}
    : (a == b) = true ↔ a.type = b.type ∧ a.level = b.level ∧ a.file = b.file := by
  change (a.type == b.type && a.level == b.level && a.file == b.file) = true ↔ _
  simp [and_assoc]

namespace LoggerManager

variable {m : LoggerManager}

theorem Made.iff_ownFormatter {inherited : Option LogFormatter} {a b : LogAppenderDefine} {ap : Nat}
    (h : m.Made inherited a ap) (heq : (b == a) = true)
    : m.Made inherited b ap ↔ b.ownFormatter = a.ownFormatter := by
  obtain ⟨htype, hlevel, hfile⟩ := LogAppenderDefine.beq_iff.mp heq
  constructor
  . intro hb
    have hown : b.ownFormatter.isSome = a.ownFormatter.isSome := hb.own.symm.trans h.own
    have hget := hb.formatter.symm.trans h.formatter
    cases ha : a.ownFormatter with
    | none =>
      rw [ha] at hown
      simpa using hown
    | some f =>
      rw [ha] at hown
      obtain ⟨g, hg⟩ := Option.isSome_iff_exists.mp hown
      rw [ha, hg] at hget
      rw [hg]
      exact hget
  . intro hown
    constructor
    . rw [← h.kind]
      simp only [LogAppenderDefine.kind, htype, hfile]
    . rw [h.level, hlevel]
    . rw [h.own, hown]
    . rw [h.formatter, hown]

theorem forall₂_made_iff {inherited : Option LogFormatter} {as bs : List LogAppenderDefine}
    {aps : List Nat} (h : List.Forall₂ (m.Made inherited) as aps)
    (heq : List.Forall₂ (fun b a => (b == a) = true) bs as)
    : List.Forall₂ (m.Made inherited) bs aps
      ↔ List.Forall₂ (fun b a => b.ownFormatter = a.ownFormatter) bs as := by
  induction h generalizing bs with
  | nil =>
    cases heq
    simp
  | cons hmade _ ih =>
    cases heq with
    | cons hhead htail =>
      rw [List.forall₂_cons, List.forall₂_cons, ih htail, hmade.iff_ownFormatter hhead]

end LoggerManager

theorem forall₂_of_beq {α : Type} [BEq α] {xs ys : List α} (h : (xs == ys) = true)
    : List.Forall₂ (fun x y => (x == y) = true) xs ys := by
  induction xs generalizing ys with
  | nil =>
    cases ys with
    | nil => exact .nil
    | cons y ys => cases h
  | cons x xs ih =>
    cases ys with
    | nil => cases h
    | cons y ys =>
      rw [List.cons_beq_cons, Bool.and_eq_true] at h
      exact .cons h.1 (ih h.2)

theorem LogDefine.beq_iff {d e : LogDefine}
    : (d == e) = true
      ↔ d.name = e.name ∧ d.level = e.level ∧ d.formatter = e.formatter
        ∧ (d.appenders == e.appenders) = true := by
  change (d.name == e.name && d.level == e.level && d.formatter == e.formatter
    && d.appenders == e.appenders) = true ↔ _
  simp [and_assoc]

namespace LoggerManager

variable {m : LoggerManager}

theorem Fits.iff_ownFormatter {d e : LogDefine} {l : Nat} (h : m.Fits e l) (heq : (d == e) = true)
    : m.Fits d l
      ↔ List.Forall₂ (fun a b => a.ownFormatter = b.ownFormatter) d.appenders e.appenders := by
  obtain ⟨-, hlevel, hformatter, happenders⟩ := LogDefine.beq_iff.mp heq
  rw [← forall₂_made_iff h.appenders (forall₂_of_beq happenders)]
  constructor
  . intro hd
    exact hd.appenders
  . intro hmade
    refine ⟨h.level.trans hlevel.symm, ?_, hmade, h.formatted⟩
    unfold LogDefine.ownFormatter
    rw [hformatter]
    exact h.formatter

theorem Holds.iff_sameFormatters {old new : LogDefines} (h : m.Holds old) (heq : (new == old) = true)
    : m.Holds new ↔ new.SameFormatters old := by
  have heqs : List.Forall₂ (fun d e => (d == e) = true) new.defs old.defs := forall₂_of_beq heq
  unfold Holds at h ⊢
  unfold LogDefines.SameFormatters
  generalize new.defs = ds at heqs ⊢
  generalize old.defs = es at heqs h ⊢
  induction heqs with
  | nil => simp
  | cons hhead _ ih =>
    rw [List.forall_mem_cons] at h
    obtain ⟨⟨l, hget, hfits⟩, htail⟩ := h
    rw [List.forall_mem_cons, List.forall₂_cons]
    apply and_congr
    . rw [← hfits.iff_ownFormatter hhead, (LogDefine.beq_iff.mp hhead).1, hget]
      simp
    . exact ih htail

end LoggerManager

theorem LogDefines.names_eq_of_beq {ds es : LogDefines} (h : (ds == es) = true)
    : ds.names = es.names := by
  have heqs : List.Forall₂ (fun d e => (d == e) = true) ds.defs es.defs := forall₂_of_beq h
  unfold names
  rw [← List.forall₂_eq_eq_eq, List.forall₂_map_left_iff, List.forall₂_map_right_iff]
  apply heqs.imp
  intro d e heq
  exact (LogDefine.beq_iff.mp heq).1

theorem configured_self_iff {old new : LogDefines} {mgr : LoggerManager} (h : (new == old) = true)
    : Configured old new mgr mgr ↔ mgr.Holds new := by
  constructor
  . intro hconf
    exact hconf.named
  . intro hholds
    refine ⟨hholds, ?_, fun _ _ _ => rfl, fun _ _ _ => ⟨rfl, fun _ _ => ⟨rfl, rfl⟩⟩⟩
    intro d hd hnew
    rw [LogDefines.names_eq_of_beq h] at hnew
    exact absurd (List.mem_map_of_mem hd) hnew

namespace LogConfig

theorem setFormatter_valid {m : LoggerManager} (hvalid : m.Valid) (l : Nat) (val : Option LogFormatter)
    : { m with objects := m.objects.setFormatter l val }.Valid := by
  apply hvalid.of_objects
  . intro l' a ha
    rw [Loggers.setFormatter_attached] at ha
    exact hvalid.attached l' a ha
  . rw [Loggers.setFormatter_loggers]
    split
    . next hroot => rw [hroot]
    . rfl

theorem call_valid {m : LoggerManager} {c : Loggers.Call LogFormatter} (hvalid : m.Valid)
    (hthere : There m (.call c)) : { m with objects := m.objects.call c }.Valid := by
  cases c with
  | addAppender l a =>
    apply hvalid.of_objects
    . intro l' a' ha'
      rcases (Loggers.addAppender_attached m.objects l a l' a').mp ha' with hold | ⟨rfl, rfl⟩
      . exact hvalid.attached l' a' hold
      . exact hthere
    . change ((m.objects.addAppender l a).loggers m.m_root).m_root = _
      rw [Loggers.addAppender_loggers]
      split
      . next hroot => rw [hroot]
      . rfl
  | delAppender l a =>
    apply hvalid.setLogger
    . intro a' ha'
      exact List.mem_of_mem_erase ha'
    . rfl
  | clearAppenders l => exact hvalid.setLogger nofun rfl
  | setFormatter l val => exact setFormatter_valid hvalid l val
  | setPattern l new_val isError =>
    cases isError with
    | true => exact hvalid
    | false => exact setFormatter_valid hvalid l (some new_val)
  | setOwnFormatter a formatter => exact hvalid.setAppender a _

theorem setValue_valid {cfg cfg' : LogConfig} {value : LogDefines} (hvalid : cfg.mgr.Valid)
    (h : cfg.setValue value = .ok cfg') : cfg'.mgr.Valid := by
  unfold setValue at h
  split at h
  . cases h
    exact hvalid
  . obtain ⟨m', hlistener, rfl⟩ := Except.map_eq_ok h
    obtain ⟨-, m₁, hadd, rfl⟩ := LogIniter.listener_eq_ok hlistener
    have happlied := LogIniter.foldlM_add_spec value.nodup_names hvalid hadd
    exact (LogIniter.foldl_delete_spec cfg.m_value.nodup_names happlied.valid).valid

theorem step_valid {cfg cfg' : LogConfig} {c : LogCall} (hvalid : cfg.mgr.Valid)
    (h : lts.step cfg c cfg') : cfg'.mgr.Valid := by
  obtain ⟨hthere, hcall⟩ := h
  cases c with
  | newLogger =>
    cases hcall
    exact hvalid.newLogger none
  | newAppender kind =>
    cases hcall
    exact hvalid.newAppender kind
  | getLogger name =>
    cases hcall
    exact (LoggerManager.getLogger_got hvalid name).valid
  | setLevel l level =>
    cases hcall
    exact hvalid.setLogger (fun _ ha => ha) rfl
  | setAppenderLevel a val =>
    cases hcall
    exact hvalid.setAppender a _
  | call c =>
    cases hcall
    exact call_valid hvalid hthere
  | setValue value => exact setValue_valid hvalid hcall

theorem run_valid {cfg : LogConfig} {calls : List LogCall} (h : lts.Run start calls cfg)
    : cfg.mgr.Valid := by
  apply h.invariant (I := fun cfg => cfg.mgr.Valid) _ LoggerManager.valid_new
  intro cfg c cfg' hvalid hstep
  exact step_valid hvalid hstep

def Accepts (cfg : LogConfig) (value : LogDefines) : Prop :=
  if value == cfg.m_value then
    cfg.mgr.Holds value
  else
    cfg.mgr.Prints ∧ (∀ d ∈ value.defs, d.Applies cfg.m_value) ∧ (∀ d ∈ value.defs, cfg.mgr.Formats d)
      ∧ cfg.mgr.Separate cfg.m_value value

theorem setValue_configured_iff {cfg : LogConfig} {calls : List LogCall}
    (h : lts.Run start calls cfg) (value : LogDefines)
    : ((∃ cfg', cfg.setValue value = .ok cfg' ∧ Configured cfg.m_value value cfg.mgr cfg'.mgr)
        ↔ cfg.Accepts value)
      ∧ (cfg.mgr.Holds cfg.m_value → (value == cfg.m_value) = true
        → (cfg.Accepts value ↔ value.SameFormatters cfg.m_value)) := by
  have hvalid := run_valid h
  unfold setValue Accepts
  constructor
  . split
    . next heq =>
      rw [← configured_self_iff heq]
      simp
    . rw [← and_assoc, ← LogIniter.listener_isOk_iff hvalid]
      constructor
      . rintro ⟨cfg', hset, hconf⟩
        obtain ⟨mgr', hmgr', rfl⟩ := Except.map_eq_ok hset
        exact ⟨⟨mgr', hmgr'⟩, (LogIniter.listener_configured_iff hvalid hmgr').mp hconf⟩
      . rintro ⟨⟨mgr', hmgr'⟩, hcond⟩
        rw [hmgr']
        exact ⟨_, rfl, (LogIniter.listener_configured_iff hvalid hmgr').mpr hcond⟩
  . intro hholds heq
    rw [if_pos heq]
    exact hholds.iff_sameFormatters heq

theorem setValue_configured_iff_added
    : let value : LogDefines :=
        ⟨[⟨"system", .INFO, "%d%T%m%n", [⟨1, .UNKNOW, "system.txt", "%m%n"⟩, ⟨2, .WARN, "", ""⟩]⟩],
          List.pairwise_singleton _ _⟩
      ∃ cfg', start.setValue value = .ok cfg' ∧ Configured start.m_value value start.mgr cfg'.mgr := by
  intro value
  apply (setValue_configured_iff (.nil start) value).1.mpr
  refine ⟨?_, ?_, ?_, ?_⟩
  . intro _ a ha _
    obtain ⟨-, rfl⟩ := (Loggers.addAppender_attached _ 0 0 0 a).mp ha |>.resolve_left nofun
    nofun
  . intro d hd
    refine ⟨nofun, ?_⟩
    cases List.mem_singleton.mp hd
    intro a ha
    rcases List.mem_pair.mp ha with rfl | rfl
    . exact .inl rfl
    . exact .inr rfl
  . intro d hd
    cases List.mem_singleton.mp hd
    intro _
    decide
  . intro l a ha hunnamed hhas
    obtain ⟨rfl, rfl⟩ := (Loggers.addAppender_attached _ 0 0 l a).mp ha |>.resolve_left nofun
    rfl

-- one definition of two has changed, an appender has got another formatter, and the root logger
-- shares its appender with a logger that is not defined
theorem setValue_unchanged_define
    : let value (level : LogLevel) : LogDefines :=
        ⟨[⟨"root", .INFO, "", []⟩, ⟨"system", level, "", []⟩],
          List.pairwise_pair.mpr
            (show "root" < "system" from String.lt_iff_toList_lt.mpr (by decide))⟩
      let single (formatter : String) : LogDefines :=
        ⟨[⟨"system", .DEBUG, "", [⟨2, .DEBUG, "", formatter⟩]⟩], List.pairwise_singleton _ _⟩
      let root : LogDefines := ⟨[⟨"root", .INFO, "%m%n", []⟩], List.pairwise_singleton _ _⟩
      (∃ cfg, start.setValue (value .DEBUG) = .ok cfg
        ∧ cfg.setValue (value .INFO) = .error .nullLogger
        ∧ ¬∃ cfg', cfg.setValue (value .INFO) = .ok cfg'
            ∧ Configured cfg.m_value (value .INFO) cfg.mgr cfg'.mgr)
      ∧ (∃ cfg, start.setValue (single "%m") = .ok cfg
        ∧ cfg.setValue (single "%p%m") = .ok cfg
        ∧ ¬Configured cfg.m_value (single "%p%m") cfg.mgr cfg.mgr)
      ∧ ∃ cfg cfg', lts.Run start [.getLogger "other", .call (.addAppender 1 0)] cfg
        ∧ cfg.setValue root = .ok cfg' ∧ ¬Configured cfg.m_value root cfg.mgr cfg'.mgr := by
  intro value single root
  refine ⟨?_, ?_, ?_⟩
  . refine ⟨_, rfl, rfl, ?_⟩
    rintro ⟨cfg', h, -⟩
    cases h
  . refine ⟨_, rfl, rfl, ?_⟩
    intro hconf
    obtain ⟨l, hget, hfits⟩ := hconf.named _ (List.mem_singleton.mpr rfl)
    cases hget
    obtain ⟨hap, -⟩ := List.forall₂_cons.mp hfits.appenders
    have hformatter := hap.formatter
    revert hformatter
    decide
  . refine ⟨_, _, .cons ⟨trivial, rfl⟩ (.cons ⟨⟨by decide, by decide⟩, rfl⟩ (.nil _)),
      rfl, ?_⟩
    intro hconf
    have hunchanged := hconf.others 1 (by decide) (by
      intro d hd
      cases List.mem_singleton.mp hd
      decide)
    have happender := (hunchanged.appenders 0 (List.mem_singleton.mpr rfl)).1
    have hformatter := congrArg Shared.Appender.m_formatter happender
    revert hformatter
    decide

end LogConfig
end CXS
