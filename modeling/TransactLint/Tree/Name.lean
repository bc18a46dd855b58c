import TransactLint.Span

/-!
# Names

Identifiers, names of several parts such as `db.dbo.Customer`, and data types.
-/

namespace TransactLint

structure Ident where
  value : String
  /-- The opening delimiter of a delimited name, `'` for a string used as a name. -/
  quote : Option Char
  span : Span
deriving DecidableEq

structure ObjectName where
  parts : List Ident
  span : Span
deriving DecidableEq

namespace ObjectName

def ofIdent (name : Ident) : ObjectName := ⟨[name], name.span⟩

/-- The last part of the name. -/
def base? (name : ObjectName) : Option Ident := name.parts.getLast?

/-- The part before the last. -/
def schema? (name : ObjectName) : Option Ident := name.parts.dropLast.getLast?

/-- The last part as text, empty if there is none. -/
def simple (name : ObjectName) : String :=
  match name.base? with
  | some part => part.value
  | none => ""

/-- The parts with periods between them. -/
def dotted (name : ObjectName) : String :=
  ".".intercalate (name.parts.map Ident.value)

end ObjectName

structure DataType where
  name : ObjectName
  /-- Length and precision as written. -/
  arguments : List String
  span : Span
deriving DecidableEq

end TransactLint
