/-!
# Texts

Sets of characters given by ranges of code points, and among them the blanks. Offsets and lengths
count UTF-8 bytes, and a range of bytes names a piece of a text only if both its ends fall between
characters.
-/

namespace TransactLint.Text

/-- Whether the code point of `c` lies in one of the ranges, both ends included. -/
def inRanges (ranges : List (Nat × Nat)) (c : Char) : Bool :=
  ranges.any fun r => r.1 ≤ c.toNat && c.toNat ≤ r.2

/-! ## Blanks -/

def blankRanges : List (Nat × Nat) :=
  [(0x9, 0xd), (0x20, 0x20), (0x85, 0x85), (0xa0, 0xa0), (0x1680, 0x1680), (0x2000, 0x200a),
   (0x2028, 0x2029), (0x202f, 0x202f), (0x205f, 0x205f), (0x3000, 0x3000)]

/-- The Unicode property White_Space. -/
def isBlank (c : Char) : Bool :=
  inRanges blankRanges c

def trimStart (cs : List Char) : List Char :=
  cs.dropWhile isBlank

/-- The text without the blanks at both ends. -/
def trim (cs : List Char) : List Char :=
  (trimStart (trimStart cs).reverse).reverse

/-! ## Bytes -/

def byteSize (cs : List Char) : Nat :=
  cs.foldl (fun n c => n + c.utf8Size) 0

/-- The first characters that take up exactly `n` bytes, behind those already taken, latest first. -/
def takeBytesOnto? (taken : List Char) : Nat → List Char → Option (List Char)
  | 0, _ => some taken.reverse
  | _ + 1, [] => none
  | n + 1, c :: cs =>
    if c.utf8Size ≤ n + 1 then takeBytesOnto? (c :: taken) (n + 1 - c.utf8Size) cs else none

/-- The first characters that take up exactly `n` bytes. -/
def takeBytes? (n : Nat) (cs : List Char) : Option (List Char) := takeBytesOnto? [] n cs

/-- The piece of `length` bytes at `offset`. -/
def slice? (s : String) (offset length : Nat) : Option String :=
  let start : String.Pos.Raw := ⟨offset⟩
  let stop : String.Pos.Raw := ⟨offset + length⟩
  if start.isValid s && stop.isValid s then some (start.extract s stop) else none

end TransactLint.Text
