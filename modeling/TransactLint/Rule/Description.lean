import TransactLint.Rule.TableRequirement
import TransactLint.Text.UpperCase

/-!
# Descriptions of tables

A table is described by a call of one of the extended property procedures that sets the property
`MS_Description` of the table. The arguments may be given by name or by position, and only literals
count.
-/

namespace TransactLint

/-- The arguments of an extended property call that tell what it describes. -/
structure PropertyCall where
  property : Option String
  level0Type : Option String
  level0Name : Option String
  level1Type : Option String
  level1Name : Option String
deriving DecidableEq

namespace PropertyCall

/-- The text of a literal without the blanks around it, unless nothing is left. -/
def literalText? (e : Expr) : Option String :=
  match e.kind with
  | .literal _ value =>
    let cs := Text.trim value.toList
    if cs.isEmpty then none else some (String.ofList cs)
  | _ => none

/-- The name of an argument as it is looked up: lower case, with one `@`. -/
def argumentKey (name : Ident) : String :=
  String.ofList (Text.lower ('@' :: name.value.toList.dropWhile (· = '@')))

/-- The usable value of the last argument with a name. -/
def named? (arguments : List Argument) (key : String) : Option String :=
  (arguments.reverse.find? fun a => a.name.any fun name => argumentKey name == key).bind
    fun a => literalText? a.value

/-- The values of the arguments without a name. -/
def positional (arguments : List Argument) : List (Option String) :=
  (arguments.filter fun a => a.name.isNone).map fun a => literalText? a.value

/-- Reads the arguments by name if `@name` is usable, and by position otherwise. -/
def ofArguments? (arguments : List Argument) : Option PropertyCall :=
  if (named? arguments "@name").isSome then
    some {
      property := named? arguments "@name"
      level0Type := named? arguments "@level0type"
      level0Name := named? arguments "@level0name"
      level1Type := named? arguments "@level1type"
      level1Name := named? arguments "@level1name" }
  else
    match positional arguments with
    | property :: _ :: level0Type :: level0Name :: level1Type :: level1Name :: _ =>
      some ⟨property, level0Type, level0Name, level1Type, level1Name⟩
    | _ => none

/-- Whether a value is given and is the word, up to the case of ASCII letters. -/
def isWord (word : String) (value : Option String) : Bool :=
  value.any fun text => Text.sameIgnoringCase word.toList text.toList

/-- The table that the call describes. -/
def table? (call : PropertyCall) : Option TableKey :=
  if isWord "MS_Description" call.property && isWord "SCHEMA" call.level0Type &&
      isWord "TABLE" call.level1Type then
    match call.level0Name, call.level1Name with
    | some schema, some table => TableKey.ofParts? [schema, table]
    | _, _ => none
  else none

end PropertyCall

/-- The table that a call with these arguments describes. -/
def describedTable? (arguments : List Argument) : Option TableKey :=
  (PropertyCall.ofArguments? arguments).bind PropertyCall.table?

/-- The procedures that set extended properties. -/
def propertyProcedures : List String := ["sp_addextendedproperty", "sp_updateextendedproperty"]

namespace StatementKind

/-- The table that a statement describes. -/
def described? : StatementKind → Option TableKey
  | .execution ⟨_, .procedure name arguments⟩ =>
    if propertyProcedures.any fun p =>
        Text.sameIgnoringCase p.toList (Text.trim name.simple.toList) then
      describedTable? arguments
    else none
  | _ => none

end StatementKind

/-- The places of the tables without a description. -/
def Document.undescribedTables (d : Document) : List Location :=
  (TableLedger.ofDocument StatementKind.described? d).unsatisfied

end TransactLint
