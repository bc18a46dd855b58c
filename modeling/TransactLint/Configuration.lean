import TransactLint.Rule

/-!
# Configurations

A configuration turns checking off altogether or switches rules off one by one.
-/

namespace TransactLint

structure Configuration where
  enabled : Bool
  /-- Ids of the rules that are switched off. -/
  disabledRules : List String
deriving DecidableEq

namespace Configuration

/-- All rules run. -/
def allRules : Configuration := ⟨true, []⟩

def isRuleEnabled (c : Configuration) (id : String) : Bool :=
  c.enabled && !c.disabledRules.contains id

/-- The rules that run, in order. -/
def enabledRules (c : Configuration) : List Rule :=
  Rule.all.filter fun rule => c.isRuleEnabled rule.id

/-- The first id of a disabled rule that no rule has. -/
def unknownRule? (c : Configuration) : Option String :=
  c.disabledRules.find? fun id => !(Rule.all.map Rule.id).contains id

end Configuration

end TransactLint
