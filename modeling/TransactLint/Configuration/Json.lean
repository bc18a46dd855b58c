import TransactLint.Configuration
import TransactLint.Json.Value

/-!
# Configurations as JSON

A configuration is a record of `enabled` and `disabledRules`. Both may be left out: checking is on
and no rule is off.
-/

namespace TransactLint

inductive ConfigurationError where
  | json (fault : Json.Fault)
  /-- A rule that is switched off does not exist. -/
  | unknownRule (id : String)
deriving DecidableEq

namespace ConfigurationError

/-- The message for an unknown rule; faults of the text have no wording of their own. -/
def message? : ConfigurationError → Option String
  | .json _ => none
  | .unknownRule id => some ("unknown rule id \x60" ++ id ++ "\x60 in disabledRules")

end ConfigurationError

namespace Configuration

/-! ## Reading -/

/-- The fields read so far. -/
structure Known where
  enabled : Option Bool
  disabledRules : Option (List String)

def Known.none : Known := ⟨Option.none, Option.none⟩

def Known.complete (k : Known) : Configuration :=
  ⟨k.enabled.getD true, k.disabledRules.getD []⟩

open Json.Reader in
def field (k : Known) (key : String) : Json.Reader Known := do
  if key = "enabled" then return { k with enabled := ← once k.enabled bool }
  else if key = "disabledRules" then
    return { k with disabledRules := ← once k.disabledRules (list string) }
  else do
    skipField
    return k

open Json.Reader in
/-- A short array leaves out the fields at the end. -/
def inOrder : Json.Reader Configuration := do
  match ← element? true bool with
  | none => return Known.none.complete
  | some enabled => return Known.complete ⟨some enabled, ← element? false (list string)⟩

def reader : Json.Reader Configuration :=
  Json.Reader.record field Known.none (fun k => pure k.complete) inOrder

/-- Reads a configuration whose rules all exist. -/
def ofJson (text : String) : Except ConfigurationError Configuration :=
  match reader.whole text.toList with
  | .error fault => .error (.json fault)
  | .ok c =>
    match c.unknownRule? with
    | some id => .error (.unknownRule id)
    | none => .ok c

/-! ## Writing -/

/-- Writes a configuration, without the list of rules if it is empty. -/
def toJson (c : Configuration) : String :=
  .ofList (Json.writeObject (("enabled", Json.writeBool c.enabled) ::
    if c.disabledRules.isEmpty then []
    else [("disabledRules", Json.writeList Json.writeQuoted c.disabledRules)]))

end Configuration

end TransactLint
