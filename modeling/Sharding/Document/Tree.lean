/-!
# Layout of documents

What documents are made of when they are written: texts, lists and records, one item or field to a
line, two blanks deeper than what it stands in.
-/

namespace Sharding.Document

inductive Tree where
  | null
  | text (s : String)
  | list (items : List Tree)
  | record (fields : List (String × Tree))

namespace Tree

/-- A control character by its code point. -/
def controlEscape (c : Char) : List Char :=
  let digits := Nat.toDigits 16 c.toNat
  ['\\', 'u'] ++ List.replicate (4 - digits.length) '0' ++ digits

def escape (c : Char) : List Char :=
  match c with
  | '"' => ['\\', '"']
  | '\\' => ['\\', '\\']
  | '\x08' => ['\\', 'b']
  | '\t' => ['\\', 't']
  | '\n' => ['\\', 'n']
  | '\x0C' => ['\\', 'f']
  | '\r' => ['\\', 'r']
  | c => if c.toNat < 0x20 then controlEscape c else [c]

def quote (s : String) : List Char :=
  ['"'] ++ s.toList.flatMap escape ++ ['"']

/-- A new line, indented. -/
def newLine (depth : Nat) : List Char :=
  '\n' :: List.replicate (2 * depth) ' '

mutual

def write (depth : Nat) : Tree → List Char
  | .null => ['n', 'u', 'l', 'l']
  | .text s => quote s
  | .list [] => ['[', ']']
  | .list (item :: items) =>
    ['['] ++ newLine (depth + 1) ++ write (depth + 1) item ++ writeItems (depth + 1) items ++
      newLine depth ++ [']']
  | .record [] => ['{', '}']
  | .record ((key, field) :: fields) =>
    ['{'] ++ newLine (depth + 1) ++ quote key ++ [':', ' '] ++ write (depth + 1) field ++
      writeFields (depth + 1) fields ++ newLine depth ++ ['}']

/-- The items after the first. -/
def writeItems (depth : Nat) : List Tree → List Char
  | [] => []
  | item :: items => [','] ++ newLine depth ++ write depth item ++ writeItems depth items

/-- The fields after the first. -/
def writeFields (depth : Nat) : List (String × Tree) → List Char
  | [] => []
  | (key, field) :: fields =>
    [','] ++ newLine depth ++ quote key ++ [':', ' '] ++ write depth field ++
      writeFields depth fields

end

def pretty (tree : Tree) : String :=
  String.ofList (write 0 tree)

end Tree

end Sharding.Document
