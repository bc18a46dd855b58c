import TransactLint.Json.Reader
import TransactLint.Text.Basic

/-!
# Strings

Between quotes a character stands for itself or is written by an escape. Characters beyond four
hexadecimal digits are written by two escapes, a high and a low surrogate.
-/

namespace TransactLint.Json

/-! ## Escapes -/

/-- The character that a letter after the backslash stands for. -/
def escaped? : Char → Option Char
  | '"' => some '"'
  | '\\' => some '\\'
  | '/' => some '/'
  | 'b' => some '\x08'
  | 'f' => some '\x0c'
  | 'n' => some '\n'
  | 'r' => some '\r'
  | 't' => some '\t'
  | _ => none

def hexValue? (c : Char) : Option Nat :=
  if '0' ≤ c ∧ c ≤ '9' then some (c.toNat - 48)
  else if 'a' ≤ c ∧ c ≤ 'f' then some (c.toNat - 87)
  else if 'A' ≤ c ∧ c ≤ 'F' then some (c.toNat - 55)
  else none

/-- The number of four hexadecimal digits. Fewer than four bytes of text are too few for them. -/
def hexadecimal : Reader Nat
  | a :: b :: c :: d :: rest =>
    match hexValue? a, hexValue? b, hexValue? c, hexValue? d with
    | some a, some b, some c, some d => .ok (((a * 16 + b) * 16 + c) * 16 + d, rest)
    | _, _, _, _ => .error .malformed
  | cs => if Text.byteSize cs < 4 then .error .truncated else .error .malformed

def isHighSurrogate (n : Nat) : Bool := 0xd800 ≤ n && n ≤ 0xdbff

def isLowSurrogate (n : Nat) : Bool := 0xdc00 ≤ n && n ≤ 0xdfff

/-- The low surrogate that must follow a high one. -/
def lowSurrogate : Reader Nat
  | [] | ['\\'] => .error .truncated
  | '\\' :: 'u' :: rest =>
    match hexadecimal rest with
    | .error fault => .error fault
    | .ok (n, rest) => if isLowSurrogate n then .ok (n, rest) else .error .malformed
  | _ => .error .malformed

/-- The character written by its number, after `\u`. -/
def numbered : Reader Char := fun cs =>
  match hexadecimal cs with
  | .error fault => .error fault
  | .ok (n, rest) =>
    if isLowSurrogate n then .error .malformed
    else if isHighSurrogate n then
      match lowSurrogate rest with
      | .error fault => .error fault
      | .ok (m, rest) => .ok (.ofNat (0x10000 + (n - 0xd800) * 0x400 + (m - 0xdc00)), rest)
    else .ok (.ofNat n, rest)

/-- The character that an escape stands for, after the backslash. -/
def escape : Reader Char
  | [] => .error .truncated
  | 'u' :: rest => numbered rest
  | c :: rest =>
    match escaped? c with
    | some d => .ok (d, rest)
    | none => .error .malformed

theorem length_hexadecimal_lt {cs rest : List Char} {n : Nat} (h : hexadecimal cs = .ok (n, rest)) :
    rest.length < cs.length := by
  unfold hexadecimal at h
  split at h
  · split at h
    · cases h
      simp only [List.length_cons]
      omega
    · cases h
  · split at h <;> cases h

theorem length_lowSurrogate_lt {cs rest : List Char} {n : Nat}
    (h : lowSurrogate cs = .ok (n, rest)) : rest.length < cs.length := by
  unfold lowSurrogate at h
  split at h
  · cases h
  · cases h
  · split at h
    · cases h
    · rename_i hex
      split at h
      · cases h
        have := length_hexadecimal_lt hex
        simp only [List.length_cons]
        omega
      · cases h
  · cases h

theorem length_numbered_lt {cs rest : List Char} {c : Char} (h : numbered cs = .ok (c, rest)) :
    rest.length < cs.length := by
  unfold numbered at h
  split at h
  · cases h
  · rename_i hex
    have := length_hexadecimal_lt hex
    split at h
    · cases h
    · split at h
      · split at h
        · cases h
        · rename_i low
          have := length_lowSurrogate_lt low
          obtain ⟨-, rfl⟩ := Prod.mk.inj (Except.ok.inj h)
          omega
      · obtain ⟨-, rfl⟩ := Prod.mk.inj (Except.ok.inj h)
        omega

theorem length_escape_lt {cs rest : List Char} {c : Char} (h : escape cs = .ok (c, rest)) :
    rest.length < cs.length := by
  unfold escape at h
  split at h
  · cases h
  · have := length_numbered_lt h
    simp only [List.length_cons]
    omega
  · split at h
    · cases h
      simp
    · cases h

/-! ## Reading and skipping -/

/-- Whether a character may stand in a string only by an escape. -/
def isControl (c : Char) : Bool := c.toNat < 0x20

/-- Reads a string after its opening quote, behind the characters already read, latest first. -/
def quotedOnto (read : List Char) : Reader (List Char)
  | [] => .error .truncated
  | '"' :: rest => .ok (read.reverse, rest)
  | '\\' :: rest =>
    match h : escape rest with
    | .error fault => .error fault
    | .ok (c, rest') =>
      have := length_escape_lt h
      quotedOnto (c :: read) rest'
  | c :: rest => if isControl c then .error .malformed else quotedOnto (c :: read) rest
termination_by cs => cs.length

/-- Reads a string after its opening quote. -/
def quoted : Reader String := do
  return .ofList (← quotedOnto [])

/-- Passes over a string after its opening quote. Surrogates need no partner here. -/
def skipQuoted : Reader Unit
  | [] | ['\\'] => .error .truncated
  | '"' :: rest => .ok ((), rest)
  | '\\' :: 'u' :: rest =>
    match h : hexadecimal rest with
    | .error fault => .error fault
    | .ok (_, rest') =>
      have := length_hexadecimal_lt h
      skipQuoted rest'
  | '\\' :: c :: rest => if (escaped? c).isSome then skipQuoted rest else .error .malformed
  | c :: rest => if isControl c then .error .malformed else skipQuoted rest
termination_by cs => cs.length

/-! ## Writing -/

def hexDigit (n : Nat) : Char := if n < 10 then .ofNat (48 + n) else .ofNat (87 + n)

/-- A character as it is written between quotes. -/
def writeChar (c : Char) : List Char :=
  if c = '"' then ['\\', '"']
  else if c = '\\' then ['\\', '\\']
  else if c = '\x08' then ['\\', 'b']
  else if c = '\x0c' then ['\\', 'f']
  else if c = '\n' then ['\\', 'n']
  else if c = '\r' then ['\\', 'r']
  else if c = '\t' then ['\\', 't']
  else if isControl c then ['\\', 'u', '0', '0', hexDigit (c.toNat / 16), hexDigit (c.toNat % 16)]
  else [c]

/-- A string with its quotes. -/
def writeQuoted (s : String) : List Char := '"' :: s.toList.flatMap writeChar ++ ['"']

end TransactLint.Json
