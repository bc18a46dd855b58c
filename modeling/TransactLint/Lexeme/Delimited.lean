import TransactLint.Lexeme.Word

/-!
# Lexemes between marks

String literals and delimited identifiers end at their closing mark; the mark written twice stands
for itself. A binary literal in quotes also knows escapes with a backslash. `$$ … $$` and
`$tag$ … $tag$` are one symbol each, as is `$tag` alone. A line comment takes its line feed with it,
and block comments nest.
-/

namespace TransactLint.Lexeme

/-! ## Quotes -/

/-- The contents up to the closing mark, and the number of characters read, the mark included. -/
def quotedBody (closer : Char) : List Char → Option (List Char × Nat)
  | [] => none
  | [c] => if c = closer then some ([], 1) else none
  | c :: d :: cs =>
    if c = closer then
      if d = closer then (quotedBody closer cs).map fun (v, n) => (closer :: v, n + 2)
      else some ([], 1)
    else (quotedBody closer (d :: cs)).map fun (v, n) => (c :: v, n + 1)

/-- The character that a backslash before `c` stands for. -/
def unescape (c : Char) : Char :=
  match c with
  | '0' => '\x00'
  | 'a' => '\x07'
  | 'b' => '\x08'
  | 'f' => '\x0c'
  | 'n' => '\n'
  | 'r' => '\r'
  | 't' => '\t'
  | 'Z' => '\x1a'
  | c => c

/-- The contents of a quoted binary literal, and the number of characters read. -/
def escapedBody : List Char → Option (List Char × Nat)
  | [] => none
  | [c] => if c = '\'' then some ([], 1) else none
  | c :: d :: cs =>
    if c = '\'' then
      if d = '\'' then (escapedBody cs).map fun (v, n) => ('\'' :: v, n + 2) else some ([], 1)
    else if c = '\\' then (escapedBody cs).map fun (v, n) => (unescape d :: v, n + 2)
    else (escapedBody (d :: cs)).map fun (v, n) => (c :: v, n + 1)

/-- A literal whose opening quote stands at `here`, `lead` characters into the lexeme. -/
def quotedLiteral (kind : TokenKind) (here : Location) (lead : Nat)
    (body : Option (List Char × Nat)) : Except LexicalError Scan :=
  match body with
  | some (value, n) => .ok ⟨kind, value, lead + n⟩
  | none => .error ⟨.unterminatedString, here⟩

def delimitedIdentifier (here : Location) (closer : Char) (cs : List Char) :
    Except LexicalError Scan :=
  match quotedBody closer cs with
  | some (value, n) => .ok ⟨.quotedIdentifier, value, n⟩
  | none => .error ⟨.unclosedIdentifier closer, here⟩

/-! ## Dollar quotes -/

/-- The number of characters through the end of the first occurrence of `mark`. -/
def lengthThrough? (mark : List Char) : List Char → Option Nat
  | [] => none
  | c :: cs =>
    if mark.isPrefixOf (c :: cs) then some mark.length
    else (lengthThrough? mark cs).map (· + 1)

/-- The lexeme at `$`; `cs` follows it. -/
def dollar (here : Location) (cs : List Char) : Except LexicalError Scan :=
  let tag := cs.takeWhile fun c => Text.isAlphanumeric c || c = '_'
  match cs.drop tag.length with
  | '$' :: body =>
    match lengthThrough? ('$' :: tag ++ ['$']) body with
    | some n => .ok (otherSymbol '$' cs (tag.length + 1 + n))
    | none =>
      let fault := if tag.isEmpty then .unterminatedDollarQuote else .unterminatedDollarTag
      .error ⟨fault, here.after ('$' :: cs)⟩
  | _ => .ok (otherSymbol '$' cs tag.length)

/-! ## Comments -/

/-- The number of characters through the next line feed, or to the end. -/
def lineLength : List Char → Nat
  | [] => 0
  | c :: cs => if c = '\n' then 1 else lineLength cs + 1

/-- The number of characters through the mark that closes `depth` enclosing comments and this one. -/
def blockLength? (depth : Nat) : List Char → Option Nat
  | [] => none
  | [_] => none
  | c :: d :: cs =>
    if c = '/' && d = '*' then (blockLength? (depth + 1) cs).map (· + 2)
    else if c = '*' && d = '/' then
      match depth with
      | 0 => some 2
      | outer + 1 => (blockLength? outer cs).map (· + 2)
    else (blockLength? depth (d :: cs)).map (· + 1)

/-- The comment that begins with `--`; `cs` follows the first dash. -/
def lineComment (cs : List Char) : Scan :=
  let n := lineLength cs
  ⟨.comment, '-' :: cs.take n, n⟩

/-- The comment that begins with `/*`; `cs` follows the slash. -/
def blockComment (here : Location) (cs : List Char) : Except LexicalError Scan :=
  match blockLength? 0 (cs.drop 1) with
  | some n => .ok ⟨.comment, '/' :: cs.take (n + 1), n + 1⟩
  | none => .error ⟨.unterminatedComment, here.after ('/' :: cs)⟩

end TransactLint.Lexeme
