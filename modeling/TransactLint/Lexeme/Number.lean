import TransactLint.Lexeme.Basic

/-!
# Numbers and periods

A number has digits, at most one period and perhaps an exponent. `0x` starts a binary literal, and a
period without digits is a lexeme of its own.
-/

namespace TransactLint.Lexeme

def isHexDigit (c : Char) : Bool :=
  c.isDigit || ('a' ≤ c && c ≤ 'f') || ('A' ≤ c && c ≤ 'F')

/-- The exponent at the front of a text, empty unless it has a digit. -/
def exponentPart : List Char → List Char
  | [] => []
  | e :: cs =>
    let sign := cs.take (if cs.head? = some '+' || cs.head? = some '-' then 1 else 0)
    let digits := (cs.drop sign.length).takeWhile Char.isDigit
    if (e = 'e' || e = 'E') && !digits.isEmpty then e :: sign ++ digits else []

/-- A number without exponent at the front of a text: digits, a period, digits. -/
def mantissaPart (cs : List Char) : List Char :=
  let whole := cs.takeWhile Char.isDigit
  match cs.drop whole.length with
  | '.' :: rest => whole ++ '.' :: rest.takeWhile Char.isDigit
  | _ => whole

/-- The lexeme at a digit or a period. A capital `L` after a number belongs to its text only. -/
def number (cs : List Char) : Scan :=
  match cs with
  | '0' :: 'x' :: rest =>
    let digits := rest.takeWhile isHexDigit
    ⟨.binaryLiteral, digits, digits.length + 1⟩
  | _ =>
    let mantissa := mantissaPart cs
    if mantissa = ['.'] then ⟨.period, ['.'], 0⟩
    else
      let value := mantissa ++ exponentPart (cs.drop mantissa.length)
      let suffix := if (cs.drop value.length).head? = some 'L' then 1 else 0
      ⟨.numberLiteral, value, value.length + suffix - 1⟩

/-- A period before an underscore separates the parts of a name, so it must follow a word. -/
def numberOrPeriod (here : Location) (afterWord : Bool) (cs : List Char) :
    Except LexicalError Scan :=
  match cs with
  | '.' :: '_' :: _ =>
    if afterWord then .ok ⟨.period, ['.'], 0⟩ else .error ⟨.strayUnderscore, here⟩
  | _ => .ok (number cs)

end TransactLint.Lexeme
