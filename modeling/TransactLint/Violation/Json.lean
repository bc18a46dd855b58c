import TransactLint.Json.Value
import TransactLint.Violation

/-!
# Violations as JSON

A violation is a record of five fields, and none may be left out.
-/

namespace TransactLint

namespace Severity

def ofName? (name : String) : Option Severity :=
  if name = "warning" then some .warning
  else if name = "error" then some .error
  else none

open Json.Reader in
/-- A severity by its name, or as an object with the name as its key and `null` in it. -/
def reader : Json.Reader Severity := do
  let c ← peek
  if c = '"' then required (ofName? (← string))
  else if c = '\x7b' then do
    let _ ← next
    let severity ← required (ofName? (← key))
    colon
    null
    if (← peek) = '\x7d' then do
      let _ ← next
      return severity
    else fail .malformed
  else fail .malformed

end Severity

namespace Violation

/-! ## Reading -/

/-- The fields read so far. -/
structure Known where
  ruleId : Option String
  message : Option String
  line : Option Nat
  column : Option Nat
  severity : Option Severity

def Known.none : Known := ⟨Option.none, Option.none, Option.none, Option.none, Option.none⟩

open Json.Reader in
def Known.complete (k : Known) : Json.Reader Violation := do
  let ruleId ← required k.ruleId
  let message ← required k.message
  let line ← required k.line
  let column ← required k.column
  let severity ← required k.severity
  return ⟨ruleId, message, ⟨line, column⟩, severity⟩

open Json.Reader in
def field (k : Known) (key : String) : Json.Reader Known := do
  if key = "ruleId" then return { k with ruleId := ← once k.ruleId string }
  else if key = "message" then return { k with message := ← once k.message string }
  else if key = "line" then return { k with line := ← once k.line natural }
  else if key = "column" then return { k with column := ← once k.column natural }
  else if key = "severity" then return { k with severity := ← once k.severity Severity.reader }
  else do
    skipField
    return k

open Json.Reader in
def inOrder : Json.Reader Violation := do
  let ruleId ← required (← element? true string)
  let message ← required (← element? false string)
  let line ← required (← element? false natural)
  let column ← required (← element? false natural)
  let severity ← required (← element? false Severity.reader)
  return ⟨ruleId, message, ⟨line, column⟩, severity⟩

def reader : Json.Reader Violation :=
  Json.Reader.record field Known.none Known.complete inOrder

def ofJson (text : String) : Except Json.Fault Violation := reader.whole text.toList

/-! ## Writing -/

def toJson (v : Violation) : String :=
  .ofList (Json.writeObject [("ruleId", Json.writeQuoted v.ruleId),
    ("message", Json.writeQuoted v.message), ("line", Json.Number.write v.location.line),
    ("column", Json.Number.write v.location.column),
    ("severity", Json.writeQuoted v.severity.name)])

end Violation

end TransactLint
