import Curly.Text.Integer

/-!
# Severities

How much a message matters, from an error down to a trace. A threshold drops
the messages that matter less than it; without one all are dropped.
-/

namespace Curly

inductive Severity where
  | error
  | warn
  | info
  | debug
  | trace
deriving DecidableEq, Repr

namespace Severity

def all : List Severity :=
  [.error, .warn, .info, .debug, .trace]

def name : Severity → String
  | .error => "ERROR"
  | .warn => "WARN"
  | .info => "INFO"
  | .debug => "DEBUG"
  | .trace => "TRACE"

def rank : Severity → Nat
  | .error => 0
  | .warn => 1
  | .info => 2
  | .debug => 3
  | .trace => 4

def ofName? (name : String) : Option Severity :=
  all.find? fun severity => Text.sameIgnoringCase severity.name name

def passes (severity : Severity) : Option Severity → Bool
  | none => false
  | some threshold => severity.rank ≤ threshold.rank

end Severity

/-! ## Thresholds -/

def thresholdName : Option Severity → String
  | none => "OFF"
  | some severity => severity.name

/-- The threshold of that name, in letters of any case. -/
def threshold? (name : String) : Option (Option Severity) :=
  if Text.sameIgnoringCase "OFF" name then some none else (Severity.ofName? name).map some

end Curly
