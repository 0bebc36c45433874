import Mathlib.Data.List.Induction
import TypedSql.Proofs.Token.Cover

/-!
# Places and bytes

A place counts the bytes of the text in front of it, the line feeds in it, and the characters behind
the last of these (`Position.IsEnd`). Its offset therefore lies between two characters, and the text
between two such places can be cut out of the bytes by their offsets (`Text.IsSlice`).
-/

namespace TypedSql

namespace Position

/-- The place behind a text, counted in the text as a whole. -/
structure IsEnd (text : List Char) (p : Position) : Prop where
  offset : p.offset = (String.ofList text).utf8ByteSize
  line : p.line = text.count '\n' + 1
  column : p.column = (text.reverse.takeWhile (· != '\n')).length + 1

theorem utf8ByteSize_ofList_cons (c : Char) (s : List Char) :
    (String.ofList (c :: s)).utf8ByteSize = c.utf8Size + (String.ofList s).utf8ByteSize := by
  have h : String.ofList (c :: s) = String.singleton c ++ String.ofList s :=
    String.toList_inj.mp (by simp)
  rw [h, String.utf8ByteSize_append, String.utf8ByteSize_singleton]

theorem offset_advance (p : Position) (s : List Char) :
    (p.advance s).offset = p.offset + (String.ofList s).utf8ByteSize := by
  induction s generalizing p with
  | nil => rfl
  | cons c s ih =>
    rw [advance_cons, ih, offset_step, utf8ByteSize_ofList_cons, Nat.add_assoc]

/-- Reading a text from the start leads to its end. -/
theorem isEnd_advance (s : List Char) : IsEnd s (start.advance s) where
  offset := by rw [offset_advance, start, Nat.zero_add]
  line := by rw [line_advance, start, Nat.add_comm]
  column := by
    induction s using List.reverseRecOn with
    | nil => rfl
    | append_singleton s c ih =>
      rw [advance_append, advance_cons, advance_nil, List.reverse_append, List.reverse_singleton,
        List.singleton_append, step]
      by_cases hc : c = '\n'
      · simp [hc]
      · simp [hc, ih]

theorem offset_advance_toList (s : String) : (start.advance s.toList).offset = s.utf8ByteSize := by
  rw [(isEnd_advance _).offset, String.ofList_toList]

end Position

namespace Text

/-- `piece` is the text between two offsets, each of which lies between two characters. -/
structure IsSlice (src : String) (i j : Nat) (piece : String) : Prop where
  start : (⟨i⟩ : String.Pos.Raw).IsValid src
  stop : (⟨j⟩ : String.Pos.Raw).IsValid src
  bytes : src.toByteArray.extract i j = piece.toByteArray

theorem isSlice_append (before piece after : String) :
    IsSlice (before ++ (piece ++ after)) before.utf8ByteSize (before ++ piece).utf8ByteSize
      piece where
  start := String.Pos.Raw.isValid_iff_exists_append.mpr ⟨before, piece ++ after, rfl, rfl⟩
  stop := String.Pos.Raw.isValid_iff_exists_append.mpr
    ⟨before ++ piece, after, String.append_assoc.symm, rfl⟩
  bytes := by
    rw [String.toByteArray_append, String.toByteArray_append, String.utf8ByteSize_append]
    exact (ByteArray.extract_append_size_add (i := 0)).trans (ByteArray.extract_append_eq_left rfl)

/-- The text between two places. -/
theorem isSlice_advance {src : String} {before piece after : List Char}
    (h : src.toList = before ++ (piece ++ after)) :
    IsSlice src (Position.start.advance before).offset
      (Position.start.advance (before ++ piece)).offset (String.ofList piece) := by
  have hsrc : src = String.ofList before ++ (String.ofList piece ++ String.ofList after) := by
    rw [← String.toList_inj, h]
    simp
  rw [(Position.isEnd_advance before).offset, (Position.isEnd_advance (before ++ piece)).offset,
    String.ofList_append, hsrc]
  exact isSlice_append _ _ _

end Text

end TypedSql
