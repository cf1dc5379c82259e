import Mathlib.Data.String.Basic
import CXS.Log.Manager

namespace CXS

structure LogAppenderDefine where
  type : Int
  level : LogLevel
  file : String
  formatter : String
  deriving Repr

-- the formatter is not compared
instance : BEq LogAppenderDefine where
  beq a b := a.type == b.type && a.level == b.level && a.file == b.file

structure LogDefine where
  name : String
  level : LogLevel
  formatter : String
  appenders : List LogAppenderDefine
  deriving Repr

instance : BEq LogDefine where
  beq d e := d.name == e.name && d.level == e.level && d.formatter == e.formatter
    && d.appenders == e.appenders

structure LogDefines where
  defs : List LogDefine
  sorted : (defs.map (·.name)).Pairwise (· < ·)

namespace LogDefines

def find (ds : LogDefines) (d : LogDefine) : Option LogDefine :=
  ds.defs.find? fun e => e.name == d.name

def names (ds : LogDefines) : List String :=
  ds.defs.map (·.name)

instance : BEq LogDefines where
  beq ds es := ds.defs == es.defs

end LogDefines

inductive LogFault where
  | nullLogger
  | nullAppender
  | nullFormatter
  deriving DecidableEq, Repr

namespace LogIniter

def addDefined (logger : Nat) (m : LoggerManager) (a : LogAppenderDefine)
    : Except LogFault LoggerManager :=
  let appender : Option (LoggerManager × Nat) :=
    if a.type = 1 then
      some (m.newAppender (.FileLogAppender a.file), m.appenderCount)
    else if a.type = 2 then
      some (m.newAppender .StdoutAppender, m.appenderCount)
    else
      none
  match appender with
  | none => .error .nullAppender
  | some (m, appender) =>
    let s := m.objects.setAppenderLevel appender a.level
    let s :=
      if a.formatter.isEmpty then
        s
      else
        let fmt := LogFormatter.new a.formatter
        if !fmt.isError then s.setOwnFormatter appender (some fmt) else s
    .ok { m with objects := s.addAppender logger appender }

-- the part of the loop over `new_value` that comes after the choice of the logger
def define (i : LogDefine) (logger : Nat) (m : LoggerManager) : Except LogFault LoggerManager :=
  let s := m.objects.setLevel logger i.level
  let s :=
    if i.formatter.isEmpty then
      s
    else
      let new_val := LogFormatter.new i.formatter
      s.setPattern logger new_val new_val.isError
  let s := s.clearAppenders logger
  i.appenders.foldlM (addDefined logger) { m with objects := s }

def add (old_value : LogDefines) (m : LoggerManager) (i : LogDefine)
    : Except LogFault LoggerManager :=
  let get : LoggerManager × Option Nat := ((m.getLogger i.name).1, some (m.getLogger i.name).2)
  let (m, logger) :=
    match old_value.find i with
    | none => get
    | some it => if !(i == it) then get else (m, none)
  match logger with
  | none => .error .nullLogger
  | some logger => define i logger m

def delete (new_value : LogDefines) (m : LoggerManager) (i : LogDefine) : LoggerManager :=
  match new_value.find i with
  | some _ => m
  | none =>
    let (m, logger) := m.getLogger i.name
    { m with objects := (m.objects.setLevel logger ⟨100⟩).clearAppenders logger }

-- the listener begins with a line in the log of the root logger
def listener (old_value new_value : LogDefines) (m : LoggerManager)
    : Except LogFault LoggerManager :=
  match m.objects.log m.m_root .INFO with
  | .error .nullFormatter => .error .nullFormatter
  | .ok _ =>
    (new_value.defs.foldlM (add old_value) m).map fun m =>
      old_value.defs.foldl (delete new_value) m

end LogIniter

structure LogConfig where
  m_value : LogDefines
  mgr : LoggerManager

/--
What the program does with its loggers. The numbers are those of objects that are there.
-/
inductive LogCall where
  | newLogger
  | newAppender (kind : AppenderKind)
  | getLogger (name : String)
  | setLevel (l : Nat) (level : LogLevel)
  | setAppenderLevel (a : Nat) (val : LogLevel)
  | call (c : Loggers.Call LogFormatter)
  | setValue (value : LogDefines)

namespace LogConfig

def start : LogConfig where
  m_value := ⟨[], .nil⟩
  mgr := .new

def setValue (cfg : LogConfig) (value : LogDefines) : Except LogFault LogConfig :=
  if value == cfg.m_value then
    .ok cfg
  else
    (LogIniter.listener cfg.m_value value cfg.mgr).map fun mgr => { m_value := value, mgr }

def call (cfg : LogConfig) : LogCall → Except LogFault LogConfig
  | .newLogger => .ok { cfg with mgr := cfg.mgr.newLogger none }
  | .newAppender kind => .ok { cfg with mgr := cfg.mgr.newAppender kind }
  | .getLogger name => .ok { cfg with mgr := (cfg.mgr.getLogger name).1 }
  | .setLevel l level =>
    .ok { cfg with mgr := { cfg.mgr with objects := cfg.mgr.objects.setLevel l level } }
  | .setAppenderLevel a val =>
    .ok { cfg with mgr := { cfg.mgr with objects := cfg.mgr.objects.setAppenderLevel a val } }
  | .call c => .ok { cfg with mgr := { cfg.mgr with objects := cfg.mgr.objects.call c } }
  | .setValue value => cfg.setValue value

def There (m : LoggerManager) : LogCall → Prop
  | .setLevel l _ => l < m.loggerCount
  | .setAppenderLevel a _ => a < m.appenderCount
  | .call (.addAppender l a) | .call (.delAppender l a) => l < m.loggerCount ∧ a < m.appenderCount
  | .call (.clearAppenders l) | .call (.setFormatter l _) | .call (.setPattern l _ _) =>
    l < m.loggerCount
  | .call (.setOwnFormatter a _) => a < m.appenderCount
  | _ => True

def lts : LTS LogConfig LogCall where
  step cfg c cfg' := There cfg.mgr c ∧ cfg.call c = .ok cfg'

end LogConfig
end CXS
