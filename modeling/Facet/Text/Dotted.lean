/-!
Dotted names: segments joined by single points.

Owns:
- `Dotted.split` and `Dotted.join` on characters;
- that joining undoes splitting, and splitting undoes joining of point-free segments.

Does not own: which segments a field path may have.
-/

namespace Facet.Text.Dotted

/-- The segments between the points; there is always at least one. -/
def split : List Char → List (List Char)
  | [] => [[]]
  | char :: rest =>
      if char = '.' then
        [] :: split rest
      else
        match split rest with
        | [] => [[char]]
        | segment :: segments => (char :: segment) :: segments

/-- The segments with a point between each two. -/
def join : List (List Char) → List Char
  | [] => []
  | [segment] => segment
  | segment :: segments => segment ++ '.' :: join segments

theorem split_ne_nil (chars : List Char) : split chars ≠ [] := by
  cases chars with
  | nil => simp [split]
  | cons char rest =>
      simp only [split]
      split
      · simp
      · split <;> simp

theorem join_cons (segment : List Char) {segments : List (List Char)}
    (more : segments ≠ []) :
    join (segment :: segments) = segment ++ '.' :: join segments := by
  cases segments with
  | nil => exact absurd rfl more
  | cons next others => rfl

/-- Joining the segments of a text gives the text. -/
theorem join_split (chars : List Char) : join (split chars) = chars := by
  induction chars with
  | nil => rfl
  | cons char rest inductionHypothesis =>
      simp only [split]
      by_cases point : char = '.'
      · subst point
        simp [join_cons [] (split_ne_nil rest), inductionHypothesis]
      · simp only [point, if_false]
        cases segments : split rest with
        | nil => exact absurd segments (split_ne_nil rest)
        | cons segment others =>
            rw [segments] at inductionHypothesis
            cases others with
            | nil => simpa [join] using inductionHypothesis
            | cons next more => simpa [join] using inductionHypothesis

private theorem split_of_pointFree {segment : List Char} (pointFree : '.' ∉ segment) :
    split segment = [segment] := by
  induction segment with
  | nil => rfl
  | cons char rest inductionHypothesis =>
      have apart : char ≠ '.' := fun same => pointFree (by simp [same])
      have restPointFree : '.' ∉ rest := fun member => pointFree (by simp [member])
      simp [split, apart, inductionHypothesis restPointFree]

theorem split_append {segment : List Char} (pointFree : '.' ∉ segment) (rest : List Char) :
    split (segment ++ '.' :: rest) = segment :: split rest := by
  induction segment with
  | nil => simp [split]
  | cons char others inductionHypothesis =>
      have apart : char ≠ '.' := fun same => pointFree (by simp [same])
      have othersPointFree : '.' ∉ others := fun member => pointFree (by simp [member])
      simp [split, apart, inductionHypothesis othersPointFree]

/-- Splitting a join of point-free segments gives the segments. -/
theorem split_join {segments : List (List Char)} (nonempty : segments ≠ [])
    (pointFree : ∀ segment ∈ segments, '.' ∉ segment) :
    split (join segments) = segments := by
  induction segments with
  | nil => exact absurd rfl nonempty
  | cons segment others inductionHypothesis =>
      have headPointFree := pointFree segment (by simp)
      cases others with
      | nil => exact split_of_pointFree headPointFree
      | cons next more =>
          rw [join_cons segment (by simp), split_append headPointFree,
            inductionHypothesis (by simp) fun other member => pointFree other (by simp [member])]

/-- No segment of a split text has a point in it. -/
theorem pointFree_of_mem_split {chars segment : List Char} (member : segment ∈ split chars) :
    '.' ∉ segment := by
  induction chars generalizing segment with
  | nil => simp_all [split]
  | cons char rest inductionHypothesis =>
      simp only [split] at member
      by_cases point : char = '.'
      · simp only [point, if_true, List.mem_cons] at member
        rcases member with rfl | member
        · simp
        · exact inductionHypothesis member
      · simp only [point, if_false] at member
        cases segments : split rest with
        | nil => exact absurd segments (split_ne_nil rest)
        | cons head tail =>
            simp only [segments, List.mem_cons] at member inductionHypothesis
            rcases member with rfl | member
            · have headPointFree := inductionHypothesis (Or.inl rfl)
              simpa [headPointFree] using fun same => point same.symm
            · exact inductionHypothesis (Or.inr member)

end Facet.Text.Dotted
