/-! # Reports of issues

What a check finds is a list of issues, each with a severity, a code, a text and a place.
Errors make the checked thing invalid; warnings and remarks do not.
-/

namespace TuneGraph

/-- How much an issue matters. -/
inductive Severity where
  | error
  | warning
  | info
  deriving DecidableEq, Repr

namespace Severity

/-- The name of a severity. -/
def name : Severity → String
  | error => "error"
  | warning => "warning"
  | info => "info"

/-- The name of a severity at the head of a line. -/
def heading : Severity → String
  | error => "[ERROR]"
  | warning => "[WARNING]"
  | info => "[INFO]"

end Severity

/-- Something that a check found. -/
structure Issue where
  severity : Severity
  code : String
  message : String
  location : Option String := none
  deriving DecidableEq, Repr

/-- An issue on one line. -/
def Issue.text (issue : Issue) : String :=
  let place := match issue.location with
    | some location => if location = "" then "" else " at " ++ location
    | none => ""
  issue.severity.heading ++ " " ++ issue.code ++ ": " ++ issue.message ++ place

/-- The issues that a check found, in the order in which it found them. -/
structure Report where
  issues : List Issue := []
  deriving DecidableEq, Repr

namespace Report

/-- A report with one more issue. -/
def add (report : Report) (issue : Issue) : Report := ⟨report.issues ++ [issue]⟩

/-- The issues of a severity. -/
def ofSeverity (report : Report) (severity : Severity) : List Issue :=
  report.issues.filter (·.severity == severity)

/-- The errors. -/
def errors (report : Report) : List Issue := report.ofSeverity .error

/-- The warnings. -/
def warnings (report : Report) : List Issue := report.ofSeverity .warning

/-- Whether there are no errors. -/
def isValid (report : Report) : Bool := report.errors.isEmpty

/-- A report as text, one issue a line. -/
def text (report : Report) : String :=
  if report.issues.isEmpty then "Validation passed: no issues found"
  else "\n".intercalate (report.issues.map Issue.text)

end Report

end TuneGraph
