import TransactLint.Cursor
import TransactLint.Lexeme
import TransactLint.Text.Basic

/-!
# Tokens of a script

`tokenize` reads the lexemes of a script and finds their bytes.
-/

namespace TransactLint

/-- The token of a lexeme, with the cursor at its end. -/
def Lexeme.token (cursor : Cursor) (x : Lexeme) : Except LexicalError (Token × Cursor) :=
  match cursor.seek x.start with
  | (_, none) => .error ⟨.misplacedToken, x.start⟩
  | (before, some offset) =>
    match before.seek x.stop with
    | (_, none) => .error ⟨.misplacedToken, x.stop⟩
    | (after, some stop) =>
      match Text.takeBytes? (stop - offset) before.rest with
      | none => .error ⟨.misplacedToken, x.stop⟩
      | some text =>
        .ok (⟨x.kind, String.ofList text, String.ofList x.value, x.start, offset, stop - offset⟩,
          after)

/-- The tokens of the lexemes after `cursor`, after those in `found`, which is reversed. -/
def Lexeme.tokensFrom (found : List Token) (cursor : Cursor) :
    List Lexeme → Except LexicalError (List Token)
  | [] => .ok found.reverse
  | x :: xs =>
    match x.token cursor with
    | .error e => .error e
    | .ok (token, after) => tokensFrom (token :: found) after xs

/-- All tokens of a script, blanks and comments included. -/
def tokenize (sql : String) : Except LexicalError (List Token) :=
  match Lexeme.lexemes sql.toList with
  | .error e => .error e
  | .ok found => Lexeme.tokensFrom [] (.ofText sql.toList) found

end TransactLint
