import Sharding.Text.Blank
/-!
# Templates

A template is literal text with placeholders in it, each written between an opener and a closing
brace. Several templates are written with commas between them.
-/

namespace Sharding.Inline

inductive Segment where
  | literal (text : List Char)
  | placeholder (body : List Char)
  deriving DecidableEq

namespace Template

/-- The text up to the brace that closes a placeholder. Braces inside it are counted, and those in
quotes are not; in quotes a backslash hides the next character. -/
def body? : Nat → Option Char → List Char → Option (List Char)
  | _, _, [] => none
  | depth, some quote, '\\' :: c :: cs => ('\\' :: c :: ·) <$> body? depth (some quote) cs
  | depth, some quote, c :: cs =>
    (c :: ·) <$> body? depth (if c = quote then none else some quote) cs
  | depth, none, c :: cs =>
    if c = '\'' ∨ c = '"' then (c :: ·) <$> body? depth (some c) cs
    else if c = '{' then (c :: ·) <$> body? (depth + 1) none cs
    else if c = '}' then
      match depth with
      | 0 => some []
      | depth + 1 => (c :: ·) <$> body? depth none cs
    else (c :: ·) <$> body? depth none cs

/-- Puts a character in front, into the literal that stands there if there is one. -/
def consLiteral (c : Char) : List Segment → List Segment
  | .literal text :: segments => .literal (c :: text) :: segments
  | segments => .literal [c] :: segments

/-- The segments of a template, if every placeholder in it is closed. -/
def scan : List Char → Option (List Segment)
  | [] => some []
  | '$' :: '{' :: cs => do
    let body ← body? 0 none cs
    (.placeholder body :: ·) <$> scan (cs.drop (body.length + 1))
  | '$' :: '-' :: '>' :: '{' :: cs => do
    let body ← body? 0 none cs
    (.placeholder body :: ·) <$> scan (cs.drop (body.length + 1))
  | c :: cs => consLiteral c <$> scan cs
termination_by cs => cs.length

/-- An opener of a placeholder occurs in the text. -/
def hasOpener : List Char → Bool
  | [] => false
  | '$' :: '{' :: _ => true
  | '$' :: '-' :: '>' :: '{' :: _ => true
  | _ :: cs => hasOpener cs

/-- The text between the commas that stand outside all braces, when `depth` braces are open. -/
def cut (depth : Nat) : List Char → List (List Char)
  | [] => [[]]
  | c :: cs =>
    if c = ',' ∧ depth = 0 then [] :: cut depth cs
    else
      let depth := if c = '{' then depth + 1 else if c = '}' then depth - 1 else depth
      match cut depth cs with
      | [] => [[c]]
      | piece :: pieces => (c :: piece) :: pieces

end Template

/-- The templates of a comma-joined text, trimmed, without the blank ones. -/
def split (expression : String) : List String :=
  (Template.cut 0 expression.toList).filterMap fun piece => Text.content? (String.ofList piece)

def isInline (expression : String) : Bool :=
  Template.hasOpener expression.toList

end Sharding.Inline
