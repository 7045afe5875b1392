/-
What the program tells besides its answer. An operation that has something to say gives a list of
notices beside its result; a reader sees those that are severe enough.
-/

namespace RetroListing

/-- How urgent a notice is, the most urgent first. -/
inductive Severity where
  | error
  | warn
  | info
  | debug
  | trace
  deriving DecidableEq, Repr

namespace Severity

/-- The tag that a line of the log starts with. -/
def tag : Severity → String
  | .error => "ERROR"
  | .warn => "WARN"
  | .info => "INFO"
  | .debug => "DEBUG"
  | .trace => "TRACE"

/-- The place in the order, zero for the most urgent. -/
def rank : Severity → Nat
  | .error => 0
  | .warn => 1
  | .info => 2
  | .debug => 3
  | .trace => 4

/-- The least urgent notices shown after `count` requests for more output. -/
def ofVerbosity (count : Nat) : Severity :=
  match count with
  | 0 => .warn
  | 1 => .info
  | 2 => .debug
  | _ => .trace

end Severity

/-- A remark on the work, with how urgent it is. -/
structure Notice where
  severity : Severity
  text : String
  deriving DecidableEq, Repr

namespace Notice

/-- The notice as a line of the log. -/
def line (n : Notice) : String := "[" ++ n.severity.tag ++ "] " ++ n.text

/-- Whether a log that goes down to `threshold` shows the notice. -/
def shownAt (threshold : Severity) (n : Notice) : Bool := n.severity.rank ≤ threshold.rank

end Notice

end RetroListing
