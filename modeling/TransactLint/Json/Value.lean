import TransactLint.Json.Skipping

/-!
# Values

Readers for the values that are wanted: truth values, naturals, strings, lists and records. A record
is written by its fields, or as an array of its fields in order.
-/

namespace TransactLint.Json

namespace Reader

/-- Refuses the value that comes next. A scalar is read first, since it may not be JSON at all. -/
def refuse {α : Type} : Reader α := do
  let c ← peek
  if c = '[' || c = '\x7b' then fail .mismatched
  else if c = '"' then do
    let _ ← next
    let _ ← quoted
    fail .mismatched
  else if c = '-' || Number.isDigit c then do
    let _ ← Number.readBounded
    fail .mismatched
  else if c = 'n' || c = 't' || c = 'f' then do
    skipScalar c
    fail .mismatched
  else fail .malformed

/-! ## Scalars -/

def bool : Reader Bool := do
  let c ← peek
  if c = 't' then do
    word ['t', 'r', 'u', 'e']
    return true
  else if c = 'f' then do
    word ['f', 'a', 'l', 's', 'e']
    return false
  else refuse

def null : Reader Unit := do
  if (← peek) = 'n' then word ['n', 'u', 'l', 'l'] else refuse

def string : Reader String := do
  if (← peek) = '"' then do
    let _ ← next
    quoted
  else refuse

/-- A natural of 64 bits. -/
def natural : Reader Nat := do
  let c ← peek
  if c = '-' || Number.isDigit c then do
    match (← Number.readBounded).natural? with
    | some n => return n
    | none => fail .mismatched
  else refuse

/-! ## Arrays -/

/-- Whether another element follows, `first` if it would be the first. Takes the comma before it. -/
def hasElement (first : Bool) : Reader Bool := do
  let c ← peek
  if c = ']' then return false
  else if first then return true
  else if c = ',' then do
    let _ ← next
    if (← peek) = ']' then fail .malformed else return true
  else fail .malformed

/-- The elements from here on, behind those already read, latest first. -/
def elements {α : Type} (item : Reader α) : Nat → List α → Reader (List α)
  | 0, _ => fail .truncated
  | fuel + 1, found => do
    if ← hasElement found.isEmpty then do
      let a ← item
      elements item fuel (a :: found)
    else return found.reverse

/-- Takes the end of an array. After a comma nothing can be right any more. -/
def endArray : Reader Unit := do
  if (← peek) = ']' then do
    let _ ← next
  else fail .malformed

def list {α : Type} (item : Reader α) : Reader (List α) := do
  if (← peek) = '[' then do
    let _ ← next
    let as ← fun cs => elements item (cs.length + 1) [] cs
    endArray
    return as
  else refuse

/-! ## Records -/

/-- Whether another field follows. Takes the comma before it. -/
def hasKey (first : Bool) : Reader Bool := do
  let c ← peek
  if c = '\x7d' then return false
  else if first then do
    if c = '"' then return true else fail .malformed
  else if c = ',' then do
    let _ ← next
    if (← peek) = '"' then return true else fail .malformed
  else fail .malformed

/-- The key that comes next in an object. Only a string can be one. -/
def key : Reader String := do
  if (← peek) = '"' then do
    let _ ← next
    quoted
  else fail .malformed

def colon : Reader Unit := do
  if (← peek) = ':' then do
    let _ ← next
  else fail .malformed

/-- Reads fields into a record, each by what `field` does after its key. -/
def fields {σ : Type} (field : σ → String → Reader σ) : Nat → Bool → σ → Reader σ
  | 0, _, _ => fail .truncated
  | fuel + 1, first, s => do
    if ← hasKey first then do
      let s ← field s (← key)
      fields field fuel false s
    else return s

/-- The value of a field that may be given once. -/
def once {α : Type} (known : Option α) (value : Reader α) : Reader (Option α) := do
  if known.isSome then fail .mismatched
  else do
    colon
    return some (← value)

/-- Passes over the value of an unknown field. -/
def skipField : Reader Unit := do
  colon
  skipValue

/-- A record by its fields, where `done` checks that none is missing, or by its fields in order. -/
def record {σ α : Type} (field : σ → String → Reader σ) (start : σ) (done : σ → Reader α)
    (inOrder : Reader α) : Reader α := do
  let c ← peek
  if c = '\x7b' then do
    let _ ← next
    let s ← fun cs => fields field (cs.length + 1) true start cs
    let a ← done s
    let _ ← next
    return a
  else if c = '[' then do
    let _ ← next
    let a ← inOrder
    endArray
    return a
  else refuse

/-- The next field of a record in order, if there is one. -/
def element? {α : Type} (first : Bool) (item : Reader α) : Reader (Option α) := do
  if ← hasElement first then return some (← item) else return none

/-- A value that must be there. -/
def required {α : Type} : Option α → Reader α
  | some a => pure a
  | none => fail .mismatched

end Reader

/-! ## Writing -/

def writeBool (b : Bool) : List Char :=
  if b then ['t', 'r', 'u', 'e'] else ['f', 'a', 'l', 's', 'e']

def writeList {α : Type} (write : α → List Char) (as : List α) : List Char :=
  '[' :: [','].intercalate (as.map write) ++ [']']

/-- An object of fields that are already written. -/
def writeObject (fields : List (String × List Char)) : List Char :=
  '\x7b' :: [','].intercalate (fields.map fun f => writeQuoted f.1 ++ ':' :: f.2) ++ ['\x7d']

end TransactLint.Json
