import Sharding.Document.Literal
import Sharding.Document.Tree
/-!
# Quoted texts are read back

Every text can be quoted: its quotes, backslashes and control characters are escaped. The pieces
that a reader finds between the quotes are those of the text again, whatever follows.
-/

namespace Sharding.Document

namespace Tree

/-- The piece that a reader makes of a written character. -/
def piece (c : Char) : Piece :=
  if c.toNat < 0x20 ∧ c ∉ ['\x08', '\t', '\n', '\x0C', '\r'] then .unit c.toNat else .char c

/-- The pieces that a reader makes of a quoted text. -/
def pieces (s : String) : List Piece :=
  s.toList.map piece

/-- A character is written as a letter after a backslash, by its code point, or as itself. -/
theorem escape_cases (c : Char) :
    (∃ e, e ≠ 'u' ∧ escape c = ['\\', e] ∧ escaped? e = some c ∧ piece c = .char c) ∨
      (c.toNat < 0x20 ∧ escape c = controlEscape c ∧ piece c = .unit c.toNat) ∨
        (¬c.toNat < 0x20 ∧ c ≠ '"' ∧ c ≠ '\\' ∧ escape c = [c] ∧ piece c = .char c) := by
  unfold escape
  split
  case h_8 hquote hbackslash hb ht hn hf hr =>
    by_cases hcontrol : c.toNat < 0x20
    · rw [if_pos hcontrol]
      have hpiece : piece c = .unit c.toNat :=
        if_pos ⟨hcontrol, by simpa using ⟨hb, ht, hn, hf, hr⟩⟩
      exact .inr (.inl ⟨hcontrol, rfl, hpiece⟩)
    · rw [if_neg hcontrol]
      have hpiece : piece c = .char c := if_neg fun h => hcontrol h.1
      exact .inr (.inr ⟨hcontrol, hquote, hbackslash, rfl, hpiece⟩)
  all_goals exact .inl ⟨_, by decide, rfl, rfl, rfl⟩

/-- The code point of a control character has two digits that count. -/
theorem controlEscape_eq {c : Char} (h : c.toNat < 0x20) :
    ∃ x y, controlEscape c = ['\\', 'u', '0', '0', x, y] ∧
      codeUnit? '0' '0' x y = some c.toNat := by
  have hdigits : ∀ n < 0x20,
      List.replicate (4 - (Nat.toDigits 16 n).length) '0' ++ Nat.toDigits 16 n =
          ['0', '0', Nat.digitChar (n / 16), Nat.digitChar (n % 16)] ∧
        codeUnit? '0' '0' (Nat.digitChar (n / 16)) (Nat.digitChar (n % 16)) = some n := by
    decide
  obtain ⟨hxy, hunit⟩ := hdigits c.toNat h
  refine ⟨_, _, ?_, hunit⟩
  unfold controlEscape
  rw [List.append_assoc, hxy]
  rfl

end Tree

open Document.Tree

theorem readPieces_escape (c : Char) (cs : List Char) :
    readPieces (escape c ++ cs) =
      (readPieces cs).map fun (pieces, size) => (piece c :: pieces, size + (escape c).length) := by
  rcases escape_cases c with ⟨e, he, hescape, hmeaning, hpiece⟩ | ⟨hcontrol, hescape, hpiece⟩ |
    ⟨hplain, hquote, hbackslash, hescape, hpiece⟩
  · have hread : readPieces ('\\' :: e :: cs) = (do
        let c ← escaped? e
        let (pieces, size) ← readPieces cs
        some (.char c :: pieces, size + 2)) := by
      rw [readPieces]
      rintro a b c d rest rfl
      exact absurd rfl he
    rw [hescape, hpiece]
    simp only [List.cons_append, List.nil_append, hread, hmeaning]
    cases readPieces cs <;> rfl
  · obtain ⟨x, y, hdigits, hunit⟩ := controlEscape_eq hcontrol
    rw [hescape, hpiece, hdigits]
    simp only [List.cons_append, List.nil_append, readPieces, hunit]
    cases readPieces cs <;> rfl
  · have hread : readPieces (c :: cs) = (do
        let (pieces, size) ← readPieces cs
        some (.char c :: pieces, size + 1)) := by
      rw [readPieces]
      · rw [if_neg hquote, if_neg]
        simp [hplain, hbackslash]
      · simp [hbackslash]
      · simp [hbackslash]
    rw [hescape, hpiece]
    simp only [List.cons_append, List.nil_append, hread]
    cases readPieces cs <;> rfl

/-- Between its quotes a text is read to the end, and no further. -/
theorem readPieces_flatMap_escape (cs rest : List Char) :
    readPieces (cs.flatMap escape ++ '"' :: rest) =
      some (cs.map piece, (cs.flatMap escape).length + 1) := by
  induction cs with
  | nil => simp [readPieces]
  | cons c cs ih =>
    rw [List.flatMap_cons, List.append_assoc, readPieces_escape, ih]
    simp only [Option.map_some, List.map_cons, List.length_append, Option.some.injEq,
      Prod.mk.injEq, true_and]
    omega

theorem textOf_char_cons (c : Char) (pieces : List Piece) :
    textOf (.char c :: pieces) = (c :: ·) <$> textOf pieces := by
  rw [textOf]

/-- A code unit that is no surrogate is a character on its own. -/
theorem textOf_unit_cons {n : Nat} (h : n < 0x20) (pieces : List Piece) :
    textOf (.unit n :: pieces) = (Char.ofNat n :: ·) <$> textOf pieces := by
  have hleading : isLeading n = false := by simp [isLeading]; omega
  have htrailing : isTrailing n = false := by simp [isTrailing]; omega
  match pieces with
  | .unit low :: pieces => simp [textOf, hleading, htrailing]
  | .char c :: pieces => simp [textOf, hleading, htrailing]
  | [] => simp [textOf, hleading, htrailing]

theorem textOf_map_piece (cs : List Char) : textOf (cs.map piece) = some cs := by
  induction cs with
  | nil => rfl
  | cons c cs ih =>
    have hstep : textOf (piece c :: cs.map piece) = (c :: ·) <$> textOf (cs.map piece) := by
      unfold piece
      split
      next hcontrol => rw [textOf_unit_cons hcontrol.1, Char.ofNat_toNat]
      next => exact textOf_char_cons c _
    rw [List.map_cons, hstep, ih]
    rfl

theorem textOf_pieces (s : String) : textOf (pieces s) = some s.toList :=
  textOf_map_piece s.toList

end Sharding.Document
