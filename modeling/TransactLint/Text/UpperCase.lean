/-!
# Upper case of ASCII letters

Keywords are spelled in ASCII, so only characters whose upper-case form is ASCII can take part in
one. `upperWord?` is the full upper-case form of such a word; `upperAscii` changes the ASCII letters
alone.
-/

namespace TransactLint.Text

/-- Characters above ASCII whose upper-case form is ASCII. -/
def asciiForms : List (Char × List Char) :=
  [('ß', ['S', 'S']), ('ı', ['I']), ('ſ', ['S']), ('ﬀ', ['F', 'F']), ('ﬁ', ['F', 'I']),
   ('ﬂ', ['F', 'L']), ('ﬃ', ['F', 'F', 'I']), ('ﬄ', ['F', 'F', 'L']), ('ﬅ', ['S', 'T']),
   ('ﬆ', ['S', 'T'])]

/-- The upper-case form of a character, if it is ASCII. -/
def upperChar? (c : Char) : Option (List Char) :=
  if c.toNat < 0x80 then some [c.toUpper] else asciiForms.lookup c

/-- The upper-case form of a word, if it is ASCII. -/
def upperWord? : List Char → Option (List Char)
  | [] => some []
  | c :: cs =>
    match upperChar? c, upperWord? cs with
    | some form, some rest => some (form ++ rest)
    | _, _ => none

def upperAscii (cs : List Char) : List Char :=
  cs.map Char.toUpper

/-- Equality of texts up to the case of ASCII letters. -/
def sameIgnoringCase (a b : List Char) : Bool :=
  upperAscii a == upperAscii b

end TransactLint.Text
