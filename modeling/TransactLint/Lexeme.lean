import TransactLint.Lexeme.Delimited
import TransactLint.Lexeme.Number
import TransactLint.Lexeme.Operator
import TransactLint.Text.Basic

/-!
# The lexemes of a script

`scan` reads the lexeme at the front of a text by its first character, and `lexemes` reads them all.
-/

namespace TransactLint.Lexeme

/-- A blank: a line end has the value of a line feed, a blank above ASCII that of a space. -/
def blank (c : Char) (cs : List Char) : Scan :=
  if c = ' ' || c = '\t' || c = '\n' then ⟨.blank, [c], 0⟩
  else if c = '\r' then ⟨.blank, ['\n'], if cs.head? = some '\n' then 1 else 0⟩
  else ⟨.blank, [' '], 0⟩

/-- The lexeme that begins with `c` at `here`, before `cs`. `afterWord` says whether the lexeme
before it is a word or a name. -/
def scan (here : Location) (afterWord : Bool) (c : Char) (cs : List Char) :
    Except LexicalError Scan :=
  if (c = 'N' || c = 'n') && cs.head? = some '\'' then
    quotedLiteral .nationalStringLiteral (here.advance c) 1 (quotedBody '\'' (cs.drop 1))
  else if (c = 'X' || c = 'x') && cs.head? = some '\'' then
    quotedLiteral .binaryLiteral (here.advance c) 1 (escapedBody (cs.drop 1))
  else if c = '\'' then quotedLiteral .stringLiteral here 0 (quotedBody '\'' cs)
  else if c = '"' then delimitedIdentifier here '"' cs
  else if c = '[' then delimitedIdentifier here ']' cs
  else if c.isDigit || c = '.' then numberOrPeriod here afterWord (c :: cs)
  else if c = '-' && cs.head? = some '-' then .ok (lineComment cs)
  else if c = '/' && cs.head? = some '*' then blockComment here cs
  else if c = '#' then .ok (hashWord cs)
  else if c = '@' then .ok (atWord cs)
  else if c = '?' then .ok (placeholder cs)
  else if c = '$' then dollar here cs
  else if Text.isBlank c then .ok (blank c cs)
  else if isWordStart c then .ok (word c 0 cs)
  else .ok (symbol c cs)

/-- The lexemes of a text that begins at `here`, after those in `found`, which is reversed. -/
def lexemesFrom (found : List Lexeme) (here : Location) (afterWord : Bool) :
    List Char → Except LexicalError (List Lexeme)
  | [] => .ok found.reverse
  | c :: cs =>
    match scan here afterWord c cs with
    | .error e => .error e
    | .ok s =>
      let stop := here.after (c :: cs.take s.extra)
      lexemesFrom (⟨s.kind, s.value, here, stop⟩ :: found) stop s.kind.isWordLike
        (cs.drop s.extra)
termination_by cs => cs.length
decreasing_by
  simp only [List.length_drop, List.length_cons]
  omega

def lexemes (text : List Char) : Except LexicalError (List Lexeme) :=
  lexemesFrom [] .origin false text

end TransactLint.Lexeme
