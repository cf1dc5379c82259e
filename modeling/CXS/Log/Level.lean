import Mathlib.Data.List.Basic

namespace CXS

/--
The values of `enum class LogLevel`. They are those of its underlying `int`, since the listener of the
variable `logs` casts a number that is not one of the enumerators.
-/
structure LogLevel where
  val : Int
  deriving DecidableEq, Repr

namespace LogLevel

def UNKNOW : LogLevel := ⟨0⟩
def DEBUG : LogLevel := ⟨1⟩
def INFO : LogLevel := ⟨2⟩
def WARN : LogLevel := ⟨3⟩
def ERROR : LogLevel := ⟨4⟩
def FATAL : LogLevel := ⟨5⟩

instance : LT LogLevel where
  lt a b := a.val < b.val

instance (a b : LogLevel) : Decidable (a < b) :=
  inferInstanceAs (Decidable (a.val < b.val))

end LogLevel

def LogLevelToString (level : LogLevel) : String :=
  if level = .DEBUG then "DEBUG"
  else if level = .INFO then "INFO"
  else if level = .WARN then "WARN"
  else if level = .ERROR then "ERROR"
  else if level = .FATAL then "FATAL"
  else "UNKNOW"

def fromsStringToLevel (str : String) : LogLevel :=
  if str = "debug" then .DEBUG
  else if str = "info" then .INFO
  else if str = "warn" then .WARN
  else if str = "error" then .ERROR
  else if str = "fatal" then .FATAL
  else if str = "DEBUG" then .DEBUG
  else if str = "INFO" then .INFO
  else if str = "WARN" then .WARN
  else if str = "ERROR" then .ERROR
  else if str = "FATAL" then .FATAL
  else .UNKNOW

inductive AppenderKind where
  | FileLogAppender (m_filename : String)
  | StdoutAppender
  deriving DecidableEq, Repr

end CXS
