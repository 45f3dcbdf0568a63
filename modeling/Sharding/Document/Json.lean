import Sharding.Document.Magnitude
import Sharding.Document.Token
/-!
# JSON values

The value of a document before its strings and numbers are looked at.
-/

namespace Sharding.Document

inductive Json where
  | null
  | bool (b : Bool)
  | number (n : Number)
  | string (pieces : List Piece)
  | array (items : List Json)
  | object (members : List (List Piece × Json))

namespace Json

/-- An array or an object that is still open: what it holds so far, the latest first, and for an
object the key of the value that is due. -/
inductive Frame where
  | array (before : List Json)
  | object (before : List (List Piece × Json)) (key : List Piece)

mutual

/-- The value that the tokens complete when one is due in the innermost of the open frames. -/
def whenDue (frames : List Frame) : List Token → Option Json
  | .null :: ts => whenRead .null frames ts
  | .bool b :: ts => whenRead (.bool b) frames ts
  | .number n :: ts => whenRead (.number n) frames ts
  | .string pieces :: ts => whenRead (.string pieces) frames ts
  | .openBracket :: .closeBracket :: ts => whenRead (.array []) frames ts
  | .openBracket :: ts => whenDue (.array [] :: frames) ts
  | .openBrace :: .closeBrace :: ts => whenRead (.object []) frames ts
  | .openBrace :: .string key :: .colon :: ts => whenDue (.object [] key :: frames) ts
  | _ => none

/-- The value that the tokens complete when one has been read in the innermost of the open frames.
With no frame open it is the whole, and no token follows. -/
def whenRead (json : Json) : List Frame → List Token → Option Json
  | [], [] => some json
  | .array before :: frames, .comma :: ts => whenDue (.array (json :: before) :: frames) ts
  | .array before :: frames, .closeBracket :: ts =>
    whenRead (.array (json :: before).reverse) frames ts
  | .object before key :: frames, .comma :: .string next :: .colon :: ts =>
    whenDue (.object ((key, json) :: before) next :: frames) ts
  | .object before key :: frames, .closeBrace :: ts =>
    whenRead (.object ((key, json) :: before).reverse) frames ts
  | _, _ => none

end

/-- The value of a whole document, with nothing after it. -/
def parse (s : String) : Option Json :=
  (Token.readAll s.toList).bind (whenDue [])

mutual

/-- How many arrays and objects stand one in another. -/
def depth : Json → Nat
  | .array items => depthOfItems items + 1
  | .object members => depthOfMembers members + 1
  | .null | .bool _ | .number _ | .string _ => 0

def depthOfItems : List Json → Nat
  | [] => 0
  | item :: items => max item.depth (depthOfItems items)

def depthOfMembers : List (List Piece × Json) → Nat
  | [] => 0
  | (_, member) :: members => max member.depth (depthOfMembers members)

end

mutual

/-- Every string in the value is a text, and every number can be held. -/
def isSound : Json → Bool
  | .array items => allSound items
  | .object members => allMembersSound members
  | .number n => n.isFinite
  | .string pieces => (textOf pieces).isSome
  | .null | .bool _ => true

def allSound : List Json → Bool
  | [] => true
  | item :: items => item.isSound && allSound items

def allMembersSound : List (List Piece × Json) → Bool
  | [] => true
  | (key, member) :: members => (textOf key).isSome && member.isSound && allMembersSound members

end

end Json

end Sharding.Document
