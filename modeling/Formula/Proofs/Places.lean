import Mathlib.Data.List.Induction
import Mathlib.Data.List.TakeWhile
import Formula.Text.Position

/-! Lines and columns tell the places of a text apart. The position of a place counts the line
feeds before it and the characters since the last of them, so no two places of a text have the
same position. -/

namespace Formula

def sinceLineFeed (chars : List Char) : Nat := (chars.reverse.takeWhile (· != '\n')).length

/-- The place of a text, its end included, that a line and a column tell. -/
structure PlaceAt (text : List Char) (position : Position) (offset : Nat) : Prop where
  within : offset ≤ text.length
  line : position.line = 1 + (text.take offset).count '\n'
  column : position.column = 1 + sinceLineFeed (text.take offset)

private theorem sinceLineFeed_append (chars : List Char) {more : List Char} (oneLine : '\n' ∉ more) :
    sinceLineFeed (chars ++ more) = sinceLineFeed chars + more.length := by
  have all : ∀ c ∈ more.reverse, (c != '\n') = true := by
    intro c member
    rw [bne_iff_ne]
    rintro rfl
    exact oneLine (List.mem_reverse.mp member)
  rw [sinceLineFeed, List.reverse_append, List.takeWhile_append_of_pos all, List.length_append, List.length_reverse,
    Nat.add_comm, sinceLineFeed]

private theorem foldl_advance (chars : List Char) : chars.foldl Position.advance .start =
    ⟨1 + chars.count '\n', 1 + sinceLineFeed chars⟩ := by
  induction chars using List.reverseRecOn with
  | nil => rfl
  | append_singleton chars c ih =>
    rw [List.foldl_append, ih, List.foldl_cons, List.foldl_nil, Position.advance]
    by_cases feed : c = '\n'
    · subst feed
      have none : sinceLineFeed (chars ++ ['\n']) = 0 := by
        rw [sinceLineFeed, List.reverse_append]
        rfl
      rw [if_pos rfl, List.count_append, none]
      rfl
    · have oneLine : '\n' ∉ [c] := by
        intro member
        exact feed (List.mem_singleton.mp member).symm
      rw [if_neg feed, List.count_append, List.count_eq_zero.mpr oneLine, sinceLineFeed_append chars oneLine]
      rfl

theorem placeAt_ofOffset {text : List Char} {offset : Nat} (within : offset ≤ text.length) :
    PlaceAt text (.ofOffset text offset) offset := by
  have position : Position.ofOffset text offset = _ := foldl_advance (text.take offset)
  refine ⟨within, ?_, ?_⟩
  · rw [position]
  · rw [position]

private theorem PlaceAt.eq_of_le {text : List Char} {position : Position} {offset other : Nat}
    (place : PlaceAt text position offset) (place' : PlaceAt text position other) (le : offset ≤ other) : offset = other := by
  have split : text.take other = text.take offset ++ (text.drop offset).take (other - offset) := by
    rw [← List.take_add, Nat.add_sub_cancel' le]
  have lines := place.line.symm.trans place'.line
  have columns := place.column.symm.trans place'.column
  rw [split] at lines columns
  rw [List.count_append] at lines
  have oneLine : '\n' ∉ (text.drop offset).take (other - offset) := List.count_eq_zero.mp (by omega)
  rw [sinceLineFeed_append _ oneLine, List.length_take, List.length_drop] at columns
  have within := place'.within
  omega

/-- A text has one place at most at each position. -/
theorem PlaceAt.unique {text : List Char} {position : Position} {offset other : Nat} (place : PlaceAt text position offset)
    (place' : PlaceAt text position other) : offset = other := by
  rcases Nat.le_total offset other with le | le
  · exact place.eq_of_le place' le
  · exact (place'.eq_of_le place le).symm

end Formula
