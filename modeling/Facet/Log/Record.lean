import Facet.Log.Event
import Facet.Text.Quoted

/-!
Log records: one event on one line.

Owns:
- the severities and their order;
- `Record.line`, a JSON object with the event, the severity, and the fields sorted by name;
- `deliver`, which drops records below a threshold and sends warnings and errors to the
  standard error stream.

Does not own: writing to the streams.
-/

namespace Facet.Log

inductive Severity where
  | trace
  | info
  | warn
  | error
deriving DecidableEq, Repr

namespace Severity

def name : Severity → String
  | .trace => "TRACE"
  | .info => "INFO"
  | .warn => "WARN"
  | .error => "ERROR"

def rank : Severity → Nat
  | .trace => 0
  | .info => 1
  | .warn => 2
  | .error => 3

def all : List Severity :=
  [.trace, .info, .warn, .error]

/-- The severity of a name. -/
def ofName? (name : String) : Option Severity :=
  all.find? (·.name == name)

/-- Whether records of a severity pass a threshold. -/
def passes (severity threshold : Severity) : Bool :=
  threshold.rank ≤ severity.rank

end Severity

/-- A log record. -/
structure Record where
  severity : Severity
  event : String
  fields : List (String × String)
deriving DecidableEq, Repr

namespace Record

/-- Failures are warnings, and everything else is detail. -/
def ofEmission (emission : Emission) : Record where
  severity := if emission.event.isFailure then .warn else .trace
  event := emission.event.name
  fields := emission.fields

/-- The fields in the order of their names; equal names stay in the order given. -/
def sortedFields (record : Record) : List (String × String) :=
  record.fields.mergeSort fun left right => decide (left.1 ≤ right.1)

/-- A quoted text in a record. -/
def quoted (text : String) : List Char :=
  '"' :: Text.Quotation.record.encode text.toList ++ ['"']

/-- One member of the line. -/
def member (field : String × String) : List Char :=
  quoted field.1 ++ ':' :: quoted field.2

/-- The members of the line, each but the first after a comma. -/
def memberList : List (String × String) → List Char
  | [] => []
  | [field] => member field
  | field :: fields => member field ++ ',' :: memberList fields

/-- All that the line says, in order. -/
def allFields (record : Record) : List (String × String) :=
  ("event", record.event) :: ("severity", record.severity.name) :: record.sortedFields

/-- The line of a record, with its end. -/
def line (record : Record) : String :=
  String.ofList ('\x7b' :: memberList record.allFields ++ ['\x7d', '\n'])

end Record

/-- The lines that each standard stream receives. -/
structure Delivery where
  output : List String
  errors : List String
deriving DecidableEq, Repr

/-- The lines of the records that pass the threshold, by stream and in order. -/
def deliver (threshold : Severity) (records : List Record) : Delivery :=
  let passing := records.filter (·.severity.passes threshold)
  { output := (passing.filter (!·.severity.passes .warn)).map Record.line
    errors := (passing.filter (·.severity.passes .warn)).map Record.line }

end Facet.Log
