/-!
Cutting a text at a mark. The pieces, with the mark between them, give the text back
(`join_split`), and there is always at least one.
-/

set_option autoImplicit false
set_option relaxedAutoImplicit false

namespace PipelineOperator

namespace Text

/-- Puts a character in front of the first piece. -/
def pushFront (c : Char) : List (List Char) → List (List Char)
  | [] => [[c]]
  | piece :: rest => (c :: piece) :: rest

/-- The pieces between the marks. -/
def split (mark : Char) : List Char → List (List Char)
  | [] => [[]]
  | c :: rest => if c = mark then [] :: split mark rest else pushFront c (split mark rest)

/-- The pieces with the mark between them. -/
def join (mark : Char) : List (List Char) → List Char
  | [] => []
  | [piece] => piece
  | piece :: rest => piece ++ mark :: join mark rest

theorem split_ne_nil (mark : Char) (chars : List Char) : split mark chars ≠ [] := by
  cases chars with
  | nil => simp [split]
  | cons c rest =>
    rw [split]
    split
    · simp
    · cases split mark rest <;> simp [pushFront]

theorem join_pushFront (mark c : Char) (pieces : List (List Char)) :
    join mark (pushFront c pieces) = c :: join mark pieces := by
  match pieces with
  | [] => rfl
  | [_] => rfl
  | _ :: _ :: _ => rfl

theorem join_split (mark : Char) (chars : List Char) : join mark (split mark chars) = chars := by
  induction chars with
  | nil => rfl
  | cons c rest ih =>
    rw [split]
    by_cases h : c = mark
    · have hne := split_ne_nil mark rest
      rw [if_pos h]
      match hs : split mark rest with
      | [] => exact absurd hs hne
      | piece :: pieces =>
        rw [hs] at ih
        simp [join, ih, h]
    · rw [if_neg h, join_pushFront, ih]

end Text

end PipelineOperator
