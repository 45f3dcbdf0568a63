import Sharding.Document.Literal
/-!
# Tokens of documents

A JSON document is cut into punctuation, words, numbers and strings; space between them is skipped.
-/

namespace Sharding.Document

inductive Token where
  | openBrace
  | closeBrace
  | openBracket
  | closeBracket
  | colon
  | comma
  | null
  | bool (b : Bool)
  | number (n : Number)
  | string (pieces : List Piece)
  deriving DecidableEq

namespace Token

def isSpace (c : Char) : Bool :=
  c == ' ' || c == '\t' || c == '\n' || c == '\r'

/-- All tokens of a document; none if something in it is no token. -/
def readAll : List Char → Option (List Token)
  | [] => some []
  | 'n' :: 'u' :: 'l' :: 'l' :: cs => (null :: ·) <$> readAll cs
  | 't' :: 'r' :: 'u' :: 'e' :: cs => (bool true :: ·) <$> readAll cs
  | 'f' :: 'a' :: 'l' :: 's' :: 'e' :: cs => (bool false :: ·) <$> readAll cs
  | '{' :: cs => (openBrace :: ·) <$> readAll cs
  | '}' :: cs => (closeBrace :: ·) <$> readAll cs
  | '[' :: cs => (openBracket :: ·) <$> readAll cs
  | ']' :: cs => (closeBracket :: ·) <$> readAll cs
  | ':' :: cs => (colon :: ·) <$> readAll cs
  | ',' :: cs => (comma :: ·) <$> readAll cs
  | '"' :: cs =>
    match readPieces cs with
    | some (pieces, size) => (string pieces :: ·) <$> readAll (cs.drop size)
    | none => none
  | c :: cs =>
    if isSpace c then readAll cs
    else
      match readNumber (c :: cs) with
      | some (n, size) => (number n :: ·) <$> readAll (cs.drop (size - 1))
      | none => none
termination_by cs => cs.length

end Token

end Sharding.Document
