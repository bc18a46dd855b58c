import TransactLint.Text.Basic
import TransactLint.Text.LowerCase
import TransactLint.Tree.Name

/-!
# Table keys

A table is known by its name in lower case, whatever the case and the blanks around the parts that
it is written with.
-/

namespace TransactLint

structure TableKey where
  /-- The parts in lower case with periods between them. -/
  canonical : String
deriving DecidableEq

namespace TableKey

/-- The key of a name given by its parts, unless there are none or one is blank. -/
def ofParts? (parts : List String) : Option TableKey :=
  let trimmed := parts.map fun part => Text.trim part.toList
  if trimmed.isEmpty || trimmed.any List.isEmpty then none
  else some ⟨".".intercalate (trimmed.map fun cs => String.ofList (Text.lower cs))⟩

/-- The key of a name. Temporary tables, `#name`, have none. -/
def ofName? (name : ObjectName) : Option TableKey :=
  match name.base? with
  | none => none
  | some base =>
    if base.value.toList.head? = some '#' then none
    else ofParts? (name.parts.map Ident.value)

end TableKey

/-- Where a table is reported: at the last part of its name. -/
def ObjectName.location (name : ObjectName) : Location :=
  match name.base? with
  | some base => base.span.start
  | none => name.span.start

end TransactLint
