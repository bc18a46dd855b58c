import TransactLint.Json.Reader

/-!
# Numbers

A number is a sign, digits, perhaps a fraction and an exponent. Only naturals of 64 bits are ever
wanted, but any other number has to be one that a double can hold.
-/

namespace TransactLint.Json

/-- A number as it is written. -/
structure Number where
  negative : Bool
  integer : List Char
  /-- The digits after the point; none if there is no point. -/
  fraction : List Char
  /-- Whether the exponent is negative, and its digits. -/
  exponent : Option (Bool × List Char)
deriving DecidableEq

namespace Number

def isDigit (c : Char) : Bool := '0' ≤ c && c ≤ '9'

def digit (c : Char) : Nat := c.toNat - 48

/-- The natural number that decimal digits write. -/
def natural (digits : List Char) : Nat := digits.foldl (fun n c => n * 10 + digit c) 0

/-! ## Reading -/

/-- Takes digits, at least one. A text that ends before it has the fault `atEnd`. -/
def digits (atEnd : Fault) : Reader (List Char) := fun cs =>
  match cs.span isDigit with
  | ([], []) => .error atEnd
  | ([], _ :: _) => .error .malformed
  | (ds, rest) => .ok (ds, rest)

/-- Takes the digits before the point: a zero alone, or digits that begin with no zero. -/
def integerPart (atEnd : Fault) : Reader (List Char) := do
  let ds ← digits atEnd
  match ds with
  | '0' :: _ :: _ => Reader.fail .malformed
  | _ => return ds

def fractionPart (atEnd : Fault) : Reader (List Char)
  | '.' :: rest => digits atEnd rest
  | cs => .ok ([], cs)

def exponentSign : Reader Bool
  | '+' :: rest => .ok (false, rest)
  | '-' :: rest => .ok (true, rest)
  | cs => .ok (false, cs)

def exponentPart (atEnd : Fault) : Reader (Option (Bool × List Char)) := fun cs =>
  match cs with
  | [] => .ok (none, [])
  | c :: rest =>
    if c = 'e' || c = 'E' then
      (do
        let negative ← exponentSign
        let ds ← digits atEnd
        return some (negative, ds) : Reader _) rest
    else .ok (none, cs)

def sign : Reader Bool
  | '-' :: rest => .ok (true, rest)
  | cs => .ok (false, cs)

/-- Reads a number. A text that ends within it has the fault `atEnd`. -/
def read (atEnd : Fault) : Reader Number := do
  let negative ← sign
  let integer ← integerPart atEnd
  let fraction ← fractionPart atEnd
  let exponent ← exponentPart atEnd
  return ⟨negative, integer, fraction, exponent⟩

/-! ## Range -/

/-- The number of 64-bit naturals. -/
def wordSize : Nat := Nat.pow 2 64

/-- The number as a natural of 64 bits, if it is written as one. -/
def natural? (n : Number) : Option Nat :=
  if n.negative || !n.fraction.isEmpty || n.exponent.isSome then none
  else if natural n.integer < wordSize then some (natural n.integer)
  else none

/-- Extends a significand by digits as long as it stays below 64 bits; also gives the number of
digits left over. -/
def extend (significand : Nat) : List Char → Nat × Nat
  | [] => (significand, 0)
  | c :: cs =>
    if significand * 10 + digit c < wordSize then extend (significand * 10 + digit c) cs
    else (significand, cs.length + 1)

/-- The significand and the power of ten that a number is taken for. -/
def scaled (n : Number) : Nat × Int :=
  let (s, dropped) := extend 0 n.integer
  let (s, unused) := extend s n.fraction
  let shift : Int :=
    match n.exponent with
    | none => 0
    | some (false, ds) => natural ds
    | some (true, ds) => -(natural ds : Int)
  (s, (dropped : Int) - ((n.fraction.length - unused : Nat) : Int) + shift)

/-- A natural rounded to 53 binary digits, a tie to the even neighbour. -/
def toDouble (n : Nat) : Nat :=
  let excess := n.log2 + 1 - 53
  let unit := Nat.pow 2 excess
  let q := n / unit
  let r := n % unit
  if unit < 2 * r || (unit = 2 * r && q % 2 = 1) then (q + 1) * unit else q * unit

/-- Whether the number is too large for a double. -/
def isTooLarge (n : Number) : Bool :=
  let (s, power) := n.scaled
  s ≠ 0 && (308 < power ||
    (0 ≤ power && Nat.pow 2 1024 - Nat.pow 2 970 ≤ toDouble s * toDouble (Nat.pow 10 power.toNat)))

/-- Reads a number that a double can hold. -/
def readBounded : Reader Number := do
  let n ← read .truncated
  if n.isTooLarge then Reader.fail .malformed else return n

/-! ## Writing -/

/-- The decimal digits of a natural number. -/
def write (n : Nat) : List Char := Nat.toDigits 10 n

end Number

end TransactLint.Json
