import Facet.Aggregation.Name
import Facet.Proofs.Text.Words

/-!
Names that can be read back from their capitalised words.

The capitalised words of a dotted name leave out the points. The name can be read back if the
only capitals among them are those that begin the segments.

Owns:
- dotted names without capitals, and that no two of them have the same capitalised words.
-/

namespace Facet

namespace Text

/-! ### Letters -/

/-- The lower-case letters of the ASCII alphabet. -/
def lowerLetters : List Char :=
  "abcdefghijklmnopqrstuvwxyz".toList

theorem mem_lowerLetters {char : Char} (lower : char.isLower = true) : char ∈ lowerLetters := by
  have bounds : (decide (97 ≤ char.val) && decide (char.val ≤ 122)) = true := lower
  have range : 97 ≤ char.toNat ∧ char.toNat ≤ 122 := by
    simpa [UInt32.le_iff_toNat_le, ← Char.toNat_val] using bounds
  have letters : ∀ code < 123, 97 ≤ code → Char.ofNat code ∈ lowerLetters := by decide
  rw [← Char.ofNat_toNat char]
  exact letters char.toNat (Nat.lt_succ_of_le range.2) range.1

/-- A lower-case letter has a single capital. -/
theorem upper_of_isLower {char : Char} (lower : char.isLower = true) :
    upper char = [char.toUpper] ∧ char.toUpper.isUpper = true := by
  have capitals : lowerLetters.all (fun letter =>
      upper letter == [letter.toUpper] && letter.toUpper.isUpper) = true := by decide
  have capital := List.all_eq_true.mp capitals char (mem_lowerLetters lower)
  rw [Bool.and_eq_true] at capital
  exact ⟨eq_of_beq capital.1, capital.2⟩

/-- A lower-case letter is that of its capital. -/
theorem toLower_toUpper_of_isLower {char : Char} (lower : char.isLower = true) :
    char.toUpper.toLower = char := by
  have letters : lowerLetters.all (fun letter => letter.toUpper.toLower == letter) = true := by
    decide
  exact eq_of_beq (List.all_eq_true.mp letters char (mem_lowerLetters lower))

/-- Lower-case letters are told apart by their capitals. -/
theorem toUpper_inj_of_isLower {first second : Char} (firstLower : first.isLower = true)
    (secondLower : second.isLower = true) (same : first.toUpper = second.toUpper) :
    first = second := by
  rw [← toLower_toUpper_of_isLower firstLower, same, toLower_toUpper_of_isLower secondLower]

/-! ### Segments without capitals -/

/-- Characters that do not begin a capitalised word. -/
def isNoCapital (char : Char) : Bool :=
  !char.isUpper

/-- A segment that begins with a lower-case letter of the ASCII alphabet and has none of its
capitals. -/
def IsLowerSegment : List Char → Prop
  | [] => False
  | first :: rest => first.isLower = true ∧ IsWordRow isNoCapital rest

/-- A row of capitalised segments begins with a capital, if there is a segment. -/
theorem breaks_capitalised {segments : List (List Char)}
    (lower : ∀ segment ∈ segments, IsLowerSegment segment) :
    Breaks isNoCapital (segments.flatMap upperFirst) := by
  cases segments with
  | nil => trivial
  | cons segment others =>
      have first := lower segment List.mem_cons_self
      cases segment with
      | nil => exact first.elim
      | cons char rest =>
          obtain ⟨capital, isCapital⟩ := upper_of_isLower first.1
          show Breaks isNoCapital ((upper char ++ rest) ++ others.flatMap upperFirst)
          rw [capital]
          exact (by rw [isNoCapital, isCapital]; rfl : isNoCapital char.toUpper = false)

/-- Segments without capitals can be read back from their capitalised forms in a row. -/
theorem capitalised_injective {segments others : List (List Char)}
    (lower : ∀ segment ∈ segments, IsLowerSegment segment)
    (otherLower : ∀ segment ∈ others, IsLowerSegment segment)
    (same : segments.flatMap upperFirst = others.flatMap upperFirst) : segments = others := by
  induction segments generalizing others with
  | nil =>
      cases others with
      | nil => rfl
      | cons other more =>
          have first := otherLower other List.mem_cons_self
          cases other with
          | nil => exact first.elim
          | cons char rest =>
              rw [List.flatMap_cons, upperFirst, mapFirst, (upper_of_isLower first.1).1] at same
              cases same
  | cons segment more inductionHypothesis =>
      obtain ⟨first, moreLower⟩ := List.forall_mem_cons.mp lower
      cases segment with
      | nil => exact first.elim
      | cons char rest =>
          cases others with
          | nil =>
              rw [List.flatMap_cons, upperFirst, mapFirst, (upper_of_isLower first.1).1] at same
              cases same
          | cons other moreOthers =>
              obtain ⟨otherFirst, moreOthersLower⟩ := List.forall_mem_cons.mp otherLower
              cases other with
              | nil => exact otherFirst.elim
              | cons otherChar otherRest =>
                  simp only [List.flatMap_cons, upperFirst, mapFirst,
                    (upper_of_isLower first.1).1, (upper_of_isLower otherFirst.1).1,
                    List.cons_append, List.nil_append, List.cons.injEq] at same
                  have chars := toUpper_inj_of_isLower first.1 otherFirst.1 same.1
                  -- The rest of a segment has no capital, and the next segment begins with one.
                  obtain ⟨rests, tails⟩ := IsWordRow.append_inj first.2 otherFirst.2
                    (breaks_capitalised moreLower) (breaks_capitalised moreOthersLower) same.2
                  rw [chars, rests, inductionHypothesis moreLower moreOthersLower tails]

end Text

/-! ### Names without capitals -/

/-- A dotted name of segments without capitals. -/
def IsLowerName (name : String) : Prop :=
  ∀ segment ∈ Text.Dotted.split name.toList, Text.IsLowerSegment segment

/-- No two names without capitals have the same capitalised words. -/
theorem pascal_injective {first second : String} (firstLower : IsLowerName first)
    (secondLower : IsLowerName second) (same : pascal first = pascal second) :
    first = second := by
  have rows := String.ofList_injective same
  have segments := Text.capitalised_injective firstLower secondLower rows
  have joined := congrArg Text.Dotted.join segments
  rw [Text.Dotted.join_split, Text.Dotted.join_split] at joined
  exact String.toList_inj.mp joined

end Facet
