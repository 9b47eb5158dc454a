import PackageStaging.Json.Printer
import PackageStaging.Json.Record

namespace PackageStaging

inductive GateStatus
  | disabled
  | enabled
  | requiresAgreement
  deriving DecidableEq, Repr

namespace GateStatus

def ofCode : Int → GateStatus
  | 1 => enabled
  | 2 => requiresAgreement
  | _ => disabled

def name : GateStatus → String
  | disabled => "disabled"
  | enabled => "enabled"
  | requiresAgreement => "requires-agreement"

def all : List GateStatus := [disabled, enabled, requiresAgreement]

def ofName? (s : String) : Option GateStatus := all.find? (·.name == s)

def isActive (s : GateStatus) : Bool := s != disabled

theorem ofName?_name (s : GateStatus) : ofName? s.name = some s := by
  cases s <;> decide

/-- The status that a JSON value stands for: an integer of 64 bits, which disables the gate if it
means nothing, or a known name. -/
def ofValue : Json.Value → Except Json.Reason GateStatus
  | .number (.natural n) =>
    if n < Json.signedLimit then .ok (ofCode n) else .error (.noAlternative "Raw")
  | .number (.negative n) => .ok (ofCode (Int.negSucc n))
  | .text s =>
    match ofName? s with
    | some status => .ok status
    | none => .error (.unknownName s (all.map name))
  | _ => .error (.noAlternative "Raw")

/-- Reads a status that may be nested in `depthLimit - depth` containers. -/
def reader (depth : Nat) : Json.Reader GateStatus := fun s ↦
  match Json.readValue (Json.stepsFor s) depth s with
  | .error fault => .error (.malformed fault)
  | .ok (value, rest) =>
    match ofValue value with
    | .ok status => .ok (status, rest)
    | .error reason => .error (.meaningless reason rest)

def read (text : String) : Except Json.Error GateStatus :=
  Json.document (reader Json.depthLimit) text

def toJson (s : GateStatus) : String := Json.ofText s.name

end GateStatus

end PackageStaging
