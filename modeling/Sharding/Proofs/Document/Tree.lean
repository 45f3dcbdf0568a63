import Sharding.Document.Json
import Sharding.Proofs.Document.Quoting
/-!
# Written trees are read back

A tree is written as its tokens with space between them, and its tokens are read as one value. Both
steps are stated with something behind the tree, since every part of a tree is read on its own.
-/

namespace Sharding.Document

namespace Tree

mutual

/-- The tokens of a written tree. -/
def tokens : Tree → List Token
  | .null => [.null]
  | .text s => [.string (pieces s)]
  | .list [] => [.openBracket, .closeBracket]
  | .list (item :: items) =>
    .openBracket :: tokens item ++ tokensOfItems items ++ [.closeBracket]
  | .record [] => [.openBrace, .closeBrace]
  | .record ((key, field) :: fields) =>
    .openBrace :: .string (pieces key) :: .colon :: tokens field ++ tokensOfFields fields ++
      [.closeBrace]

/-- The tokens of the items after the first. -/
def tokensOfItems : List Tree → List Token
  | [] => []
  | item :: items => .comma :: tokens item ++ tokensOfItems items

/-- The tokens of the fields after the first. -/
def tokensOfFields : List (String × Tree) → List Token
  | [] => []
  | (key, field) :: fields =>
    .comma :: .string (pieces key) :: .colon :: tokens field ++ tokensOfFields fields

end

mutual

/-- The value that a written tree is read as. -/
def json : Tree → Json
  | .null => .null
  | .text s => .string (pieces s)
  | .list items => .array (jsonItems items)
  | .record fields => .object (jsonFields fields)

def jsonItems : List Tree → List Json
  | [] => []
  | item :: items => json item :: jsonItems items

def jsonFields : List (String × Tree) → List (List Piece × Json)
  | [] => []
  | (key, field) :: fields => (pieces key, json field) :: jsonFields fields

end

theorem jsonItems_eq (items : List Tree) : jsonItems items = items.map json := by
  induction items with
  | nil => rfl
  | cons item items ih => rw [jsonItems, ih, List.map_cons]

theorem jsonFields_eq (fields : List (String × Tree)) :
    jsonFields fields = fields.map fun (key, field) => (pieces key, json field) := by
  induction fields with
  | nil => rfl
  | cons field fields ih => rw [jsonFields, ih, List.map_cons]

end Tree

open Document.Tree

/-! ## Tokens -/

namespace Token

/-- The characters are read as the tokens, whatever follows them. -/
def ReadAs (cs : List Char) (ts : List Token) : Prop :=
  ∀ rest, readAll (cs ++ rest) = (ts ++ ·) <$> readAll rest

theorem ReadAs.append {cs ds : List Char} {ts us : List Token} (hcs : ReadAs cs ts)
    (hds : ReadAs ds us) : ReadAs (cs ++ ds) (ts ++ us) := by
  intro rest
  rw [List.append_assoc, hcs, hds, ← comp_map]
  simp only [Function.comp_def, List.append_assoc]

theorem readAs_nil : ReadAs [] [] := by
  intro rest
  simp

theorem readAs_null : ReadAs ['n', 'u', 'l', 'l'] [null] := by
  intro rest
  simp [readAll]

theorem readAs_mark {c : Char} {t : Token}
    (h : (c, t) ∈ [('{', openBrace), ('}', closeBrace), ('[', openBracket), (']', closeBracket),
      (',', comma), (':', colon)]) : ReadAs [c] [t] := by
  intro rest
  simp only [List.mem_cons, List.not_mem_nil, or_false, Prod.mk.injEq] at h
  rcases h with ⟨rfl, rfl⟩ | ⟨rfl, rfl⟩ | ⟨rfl, rfl⟩ | ⟨rfl, rfl⟩ | ⟨rfl, rfl⟩ | ⟨rfl, rfl⟩ <;>
    simp [readAll]

theorem readAll_space {c : Char} (h : isSpace c) (cs : List Char) :
    readAll (c :: cs) = readAll cs := by
  have hc : c = ' ' ∨ c = '\t' ∨ c = '\n' ∨ c = '\r' := by simpa [isSpace, or_assoc] using h
  rcases hc with rfl | rfl | rfl | rfl <;> simp [readAll, isSpace]

theorem readAs_colon : ReadAs [':', ' '] [colon] := by
  intro rest
  have hcolon : ReadAs [':'] [colon] := readAs_mark (by simp)
  exact (hcolon (' ' :: rest)).trans (congrArg _ (readAll_space (by decide) rest))

theorem readAs_newLine (depth : Nat) : ReadAs (newLine depth) [] := by
  intro rest
  rw [newLine, List.cons_append, readAll_space (by decide)]
  induction 2 * depth with
  | zero => simp
  | succ count ih => rw [List.replicate_succ, List.cons_append, readAll_space (by decide), ih]

theorem readAs_quote (s : String) : ReadAs (quote s) [string (pieces s)] := by
  intro rest
  have hquote : quote s ++ rest = '"' :: (s.toList.flatMap escape ++ '"' :: rest) := by
    simp [quote]
  have hrest : (s.toList.flatMap escape ++ '"' :: rest).drop
      ((s.toList.flatMap escape).length + 1) = rest := by
    simp [← List.drop_drop]
  rw [hquote, readAll, readPieces_flatMap_escape]
  simp only [hrest]
  rfl

mutual

/-- A written tree is read as its tokens. -/
theorem readAs_write (depth : Nat) : (tree : Tree) → ReadAs (write depth tree) tree.tokens
  | .null => readAs_null
  | .text s => readAs_quote s
  | .list [] => by
    have hopen : ReadAs ['['] [openBracket] := readAs_mark (by simp)
    exact hopen.append (readAs_mark (by simp))
  | .list (item :: items) => by
    have hopen : ReadAs ['['] [openBracket] := readAs_mark (by simp)
    have hclose : ReadAs [']'] [closeBracket] := readAs_mark (by simp)
    have h := hopen
      |>.append (readAs_newLine (depth + 1))
      |>.append (readAs_write (depth + 1) item)
      |>.append (readAs_writeItems (depth + 1) items)
      |>.append (readAs_newLine depth)
      |>.append hclose
    simpa [write, tokens] using h
  | .record [] => by
    have hopen : ReadAs ['{'] [openBrace] := readAs_mark (by simp)
    exact hopen.append (readAs_mark (by simp))
  | .record ((key, field) :: fields) => by
    have hopen : ReadAs ['{'] [openBrace] := readAs_mark (by simp)
    have hclose : ReadAs ['}'] [closeBrace] := readAs_mark (by simp)
    have h := hopen
      |>.append (readAs_newLine (depth + 1))
      |>.append (readAs_quote key)
      |>.append readAs_colon
      |>.append (readAs_write (depth + 1) field)
      |>.append (readAs_writeFields (depth + 1) fields)
      |>.append (readAs_newLine depth)
      |>.append hclose
    simpa [write, tokens] using h

theorem readAs_writeItems (depth : Nat) :
    (items : List Tree) → ReadAs (writeItems depth items) (tokensOfItems items)
  | [] => readAs_nil
  | item :: items => by
    have hcomma : ReadAs [','] [comma] := readAs_mark (by simp)
    have h := hcomma
      |>.append (readAs_newLine depth)
      |>.append (readAs_write depth item)
      |>.append (readAs_writeItems depth items)
    simpa [writeItems, tokensOfItems] using h

theorem readAs_writeFields (depth : Nat) :
    (fields : List (String × Tree)) → ReadAs (writeFields depth fields) (tokensOfFields fields)
  | [] => readAs_nil
  | (key, field) :: fields => by
    have hcomma : ReadAs [','] [comma] := readAs_mark (by simp)
    have h := hcomma
      |>.append (readAs_newLine depth)
      |>.append (readAs_quote key)
      |>.append readAs_colon
      |>.append (readAs_write depth field)
      |>.append (readAs_writeFields depth fields)
    simpa [writeFields, tokensOfFields] using h

end

end Token

/-! ## Values -/

namespace Json

/-- The tokens of a tree do not begin with the end of a list. -/
theorem tokens_ne_closeBracket (tree : Tree) (rest : List Token) :
    ∀ ts, tree.tokens ++ rest ≠ .closeBracket :: ts := by
  intro ts
  cases tree with
  | null => simp [tokens]
  | text s => simp [tokens]
  | list items => cases items <;> simp [tokens]
  | record fields => rcases fields with _ | ⟨⟨key, field⟩, fields⟩ <;> simp [tokens]

mutual

/-- The tokens of a tree complete its value where one is due. -/
theorem whenDue_tokens : (tree : Tree) → (frames : List Frame) → (rest : List Token) →
    whenDue frames (tree.tokens ++ rest) = whenRead tree.json frames rest
  | .null, frames, rest => by
    simp [tokens, whenDue, json]
  | .text s, frames, rest => by
    simp [tokens, whenDue, json]
  | .list [], frames, rest => by
    simp [tokens, whenDue, json, jsonItems]
  | .list (item :: items), frames, rest => by
    have hopen : whenDue frames (.openBracket :: (item.tokens ++
        (tokensOfItems items ++ .closeBracket :: rest))) = whenDue (.array [] :: frames)
          (item.tokens ++ (tokensOfItems items ++ .closeBracket :: rest)) := by
      rw [whenDue]
      exact tokens_ne_closeBracket item _
    simp only [tokens, List.cons_append, List.append_assoc, List.nil_append]
    rw [hopen, whenDue_tokens item, whenRead_tokensOfItems items]
    rfl
  | .record [], frames, rest => by
    simp [tokens, whenDue, json, jsonFields]
  | .record ((key, field) :: fields), frames, rest => by
    simp only [tokens, List.cons_append, List.append_assoc, List.nil_append]
    rw [whenDue, whenDue_tokens field, whenRead_tokensOfFields fields]
    rfl

theorem whenRead_tokensOfItems : (items : List Tree) → (item : Json) → (before : List Json) →
    (frames : List Frame) → (rest : List Token) →
    whenRead item (.array before :: frames) (tokensOfItems items ++ .closeBracket :: rest) =
      whenRead (.array (before.reverse ++ item :: jsonItems items)) frames rest
  | [], item, before, frames, rest => by
    simp [tokensOfItems, whenRead, jsonItems]
  | next :: items, item, before, frames, rest => by
    simp only [tokensOfItems, List.cons_append, List.append_assoc]
    rw [whenRead, whenDue_tokens next, whenRead_tokensOfItems items]
    simp [jsonItems]

theorem whenRead_tokensOfFields : (fields : List (String × Tree)) → (field : Json) →
    (before : List (List Piece × Json)) → (key : List Piece) → (frames : List Frame) →
    (rest : List Token) →
    whenRead field (.object before key :: frames) (tokensOfFields fields ++ .closeBrace :: rest) =
      whenRead (.object (before.reverse ++ (key, field) :: jsonFields fields)) frames rest
  | [], field, before, key, frames, rest => by
    simp [tokensOfFields, whenRead, jsonFields]
  | (name, next) :: fields, field, before, key, frames, rest => by
    simp only [tokensOfFields, List.cons_append, List.append_assoc]
    rw [whenRead, whenDue_tokens next, whenRead_tokensOfFields fields]
    simp [jsonFields]

end

/-- A written tree is read as its value. -/
theorem parse_pretty (tree : Tree) : parse tree.pretty = some tree.json := by
  have htokens := Token.readAs_write 0 tree []
  have hempty : Token.readAll [] = some [] := by rw [Token.readAll]
  rw [List.append_nil, hempty] at htokens
  have hvalue := whenDue_tokens tree [] []
  rw [parse, pretty, String.toList_ofList, htokens]
  rw [List.append_nil] at hvalue
  simp [hvalue, whenRead]

end Json

end Sharding.Document
