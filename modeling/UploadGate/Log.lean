/-
  UploadGate/Log.lean
  ===================
  **Log records.**

  Operations do not write a log; they return the records they would write, in
  order, so that a law can count them.
-/
import UploadGate.Text.Basic

namespace UploadGate

/-- How much a record matters. -/
inductive LogLevel where
  | debug
  | info
  | warning
  | error
deriving DecidableEq, Repr

def LogLevel.name : LogLevel → Text
  | .debug => Text.of "DEBUG"
  | .info => Text.of "INFO"
  | .warning => Text.of "WARNING"
  | .error => Text.of "ERROR"

structure LogRecord where
  level : LogLevel
  message : Text
deriving DecidableEq, Repr

/-- The names under which a log threshold can be configured, with their ranks. -/
def logThresholds : List (Text × Nat) :=
  [(Text.of "CRITICAL", 50), (Text.of "FATAL", 50), (Text.of "ERROR", 40), (Text.of "WARNING", 30),
    (Text.of "WARN", 30), (Text.of "INFO", 20), (Text.of "DEBUG", 10), (Text.of "NOTSET", 0)]

/-- The rank of a threshold by its name in capitals; an unknown name counts as INFO. -/
def logThreshold (name : Text) : Nat := ((logThresholds.find? fun e => e.1 = name).map Prod.snd).getD 20

end UploadGate
