import TransactLint.Lexeme.Basic
import TransactLint.Text.Alphabetic
import TransactLint.Text.Numeric

/-!
# Words

Keywords, plain identifiers, variables and the names of temporary tables. After `#` and `@` the next
character belongs to the word whatever it is.
-/

namespace TransactLint.Lexeme

def isWordStart (c : Char) : Bool :=
  Text.isAlphabetic c || c = '_'

def isWordPart (c : Char) : Bool :=
  Text.isAlphabetic c || c.isDigit || c = '@' || c = '$' || c = '#' || c = '_'

/-- The kind of a bare word. -/
def wordKind (word : List Char) : TokenKind :=
  if word.head? = some '@' then .localVariable
  else
    match Keyword.ofWord? word with
    | some k => .keyword k
    | none => .identifier

/-- The word whose first characters are `c :: lead`; `cs` follows `c`. -/
def word (c : Char) (lead : Nat) (cs : List Char) : Scan :=
  let tail := cs.take lead ++ (cs.drop lead).takeWhile isWordPart
  ⟨wordKind (c :: tail), c :: tail, tail.length⟩

/-- A symbol of `1 + extra` characters. -/
def otherSymbol (c : Char) (cs : List Char) (extra : Nat) : Scan :=
  ⟨.other, c :: cs.take extra, extra⟩

/-- The lexeme at `#`. -/
def hashWord (cs : List Char) : Scan :=
  match cs with
  | [] => otherSymbol '#' cs 0
  | ' ' :: _ => otherSymbol '#' cs 0
  | '-' :: _ => otherSymbol '#' cs 1
  | '>' :: '>' :: _ => otherSymbol '#' cs 2
  | '>' :: _ => otherSymbol '#' cs 1
  | _ => word '#' 1 cs

/-- The lexeme at `@`. -/
def atWord (cs : List Char) : Scan :=
  match cs with
  | [] => otherSymbol '@' cs 0
  | '@' :: [] => otherSymbol '@' cs 1
  | '@' :: ' ' :: _ => otherSymbol '@' cs 1
  | '@' :: _ => word '@' 2 cs
  | '>' :: _ => otherSymbol '@' cs 1
  | '?' :: _ => otherSymbol '@' cs 1
  | c :: _ =>
    if c = ' ' || c = '\'' || c = '"' || c = '\x60' then otherSymbol '@' cs 0 else word '@' 1 cs

/-- A question mark with the number after it. -/
def placeholder (cs : List Char) : Scan :=
  otherSymbol '?' cs (cs.takeWhile Text.isNumeric).length

end TransactLint.Lexeme
