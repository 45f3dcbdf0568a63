import Sharding.Text.Numeral
/-!
# Literals of documents

The strings and numbers of a JSON document as they are written. A string is kept as its pieces,
since not every escape stands for a character; a number as its digits, since not every number has a
magnitude that can be held.
-/

namespace Sharding.Document

/-- A piece of a string: a character, or a UTF-16 code unit written in hexadecimal. -/
inductive Piece where
  | char (c : Char)
  | unit (n : Nat)
  deriving DecidableEq

def hexDigit? (c : Char) : Option Nat :=
  if c.isDigit then some (c.toNat - '0'.toNat)
  else if 'a' ≤ c ∧ c ≤ 'f' then some (c.toNat - 'a'.toNat + 10)
  else if 'A' ≤ c ∧ c ≤ 'F' then some (c.toNat - 'A'.toNat + 10)
  else none

/-- The code unit that four hexadecimal digits write. -/
def codeUnit? (a b c d : Char) : Option Nat := do
  let a ← hexDigit? a
  let b ← hexDigit? b
  let c ← hexDigit? c
  let d ← hexDigit? d
  some (((a * 16 + b) * 16 + c) * 16 + d)

/-- The character that a letter after a backslash stands for. -/
def escaped? : Char → Option Char
  | '"' => some '"'
  | '\\' => some '\\'
  | '/' => some '/'
  | 'b' => some '\x08'
  | 'f' => some '\x0C'
  | 'n' => some '\n'
  | 'r' => some '\r'
  | 't' => some '\t'
  | _ => none

/-- The pieces of a string after its opening quote, and how many characters they take with the
closing one. -/
def readPieces : List Char → Option (List Piece × Nat)
  | [] => none
  | '\\' :: 'u' :: a :: b :: c :: d :: cs => do
    let n ← codeUnit? a b c d
    let (pieces, size) ← readPieces cs
    some (.unit n :: pieces, size + 6)
  | '\\' :: e :: cs => do
    let c ← escaped? e
    let (pieces, size) ← readPieces cs
    some (.char c :: pieces, size + 2)
  | c :: cs =>
    if c = '"' then some ([], 1)
    else if c.toNat < 0x20 ∨ c = '\\' then none
    else do
      let (pieces, size) ← readPieces cs
      some (.char c :: pieces, size + 1)

def isLeading (n : Nat) : Bool := 0xD800 ≤ n && n < 0xDC00
def isTrailing (n : Nat) : Bool := 0xDC00 ≤ n && n < 0xE000

/-- The text of a string; none if a surrogate in it has no partner. -/
def textOf : List Piece → Option (List Char)
  | [] => some []
  | .char c :: pieces => (c :: ·) <$> textOf pieces
  | .unit high :: .unit low :: pieces =>
    if isLeading high ∧ isTrailing low then
      (Char.ofNat (0x10000 + (high - 0xD800) * 0x400 + (low - 0xDC00)) :: ·) <$> textOf pieces
    else if isLeading high ∨ isTrailing high then none
    else (Char.ofNat high :: ·) <$> textOf (.unit low :: pieces)
  | .unit n :: pieces =>
    if isLeading n ∨ isTrailing n then none else (Char.ofNat n :: ·) <$> textOf pieces

/-- A number by its digits: the whole part, the fraction, and the power of ten. -/
structure Number where
  whole : List Char
  fraction : List Char
  exponent : Int
  deriving DecidableEq

/-- At least one digit at the head. -/
def digitRun? (cs : List Char) : Option (List Char) :=
  match cs.takeWhile Char.isDigit with
  | [] => none
  | digits => some digits

/-- The whole part of a number; only zero itself begins with a zero. -/
def readWhole (cs : List Char) : Option (List Char) :=
  match digitRun? cs with
  | some ('0' :: _ :: _) => none
  | run => run

/-- The digits after a point; there need not be a point. -/
def readFraction : List Char → Option (List Char × Nat)
  | '.' :: cs => (digitRun? cs).map fun digits => (digits, digits.length + 1)
  | _ => some ([], 0)

/-- The power of ten after a sign. -/
def readPower : List Char → Option (Int × Nat)
  | '+' :: cs => (digitRun? cs).map fun ds => ((Nat.ofDigitChars 10 ds 0 : Nat), ds.length + 1)
  | '-' :: cs => (digitRun? cs).map fun ds => (-(Nat.ofDigitChars 10 ds 0 : Nat), ds.length + 1)
  | cs => (digitRun? cs).map fun ds => ((Nat.ofDigitChars 10 ds 0 : Nat), ds.length)

/-- The power of ten of a number; there need not be one. -/
def readExponent : List Char → Option (Int × Nat)
  | 'e' :: cs => (readPower cs).map fun (power, size) => (power, size + 1)
  | 'E' :: cs => (readPower cs).map fun (power, size) => (power, size + 1)
  | _ => some (0, 0)

/-- The unsigned number at the head, and how many characters it takes. -/
def readUnsigned (cs : List Char) : Option (Number × Nat) := do
  let whole ← readWhole cs
  let (fraction, fractionSize) ← readFraction (cs.drop whole.length)
  let (exponent, exponentSize) ← readExponent (cs.drop (whole.length + fractionSize))
  some (⟨whole, fraction, exponent⟩, whole.length + fractionSize + exponentSize)

/-- The number at the head, with its sign passed over. -/
def readNumber : List Char → Option (Number × Nat)
  | '-' :: cs => (readUnsigned cs).map fun (number, size) => (number, size + 1)
  | cs => readUnsigned cs

end Sharding.Document
