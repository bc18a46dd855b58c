import TransactLint.Chain

/-!
# Guards

`ISNUMERIC(x)` and `ISDATE(x)` ask whether `x` converts. A variable or a column has a key, by which
the value that was asked about is known again where it is converted.
-/

namespace TransactLint

/-- The functions of one argument that ask whether a value converts. -/
def guardFunctions : List String := ["ISNUMERIC", "ISDATE"]

namespace Expr

/-- The name of a variable or the dotted path of a column, within any parentheses. -/
def key? (e : Expr) : Option String :=
  match e.unwrap.kind with
  | .localVariable name => nonempty name.value
  | .column parts => nonempty (".".intercalate (parts.map Ident.value))
  | _ => none
where
  nonempty (key : String) : Option String := if key = "" then none else some key

/-- The argument of a guard. -/
def guardArgument? : Expr → Option Expr
  | ⟨.call name _ [argument] _ _, _⟩ =>
    if guardFunctions.any fun f => Text.sameIgnoringCase f.toList name.simple.toList
    then some argument else none
  | _ => none

/-- The key that the first guard in a condition asks about. Later guards do not count, even if the
argument of the first has no key. -/
def guardedKey? (condition : Expr) : Option String :=
  (Node.find? (fun
    | .expr inner => inner.guardArgument?
    | _ => none) (.expr condition)).bind key?

/-- The function and the operand of a conversion, within any parentheses. -/
def conversion? (e : Expr) : Option (ConversionFunction × Expr) :=
  match e.unwrap.kind with
  | .conversion function _ operand _ => some (function, operand)
  | _ => none

/-- Whether the expression is a `CAST` or `CONVERT` of the value with the key. -/
def convertsKey (e : Expr) (key : String) : Bool :=
  e.conversion?.any fun (function, operand) => !function.isTry && operand.key? == some key

def containsColumn (e : Expr) : Bool :=
  e.anyWithin fun
    | ⟨.column _, _⟩ => true
    | _ => false

/-- Whether the expression is a conversion of something with a column in it. -/
def convertsColumn (e : Expr) : Bool :=
  e.conversion?.any fun (_, operand) => operand.containsColumn

end Expr

end TransactLint
