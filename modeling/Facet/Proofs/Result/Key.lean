import Facet.Proofs.Double.Rounding
import Facet.Proofs.Outcome
import Facet.Proofs.Text.Integer
import Facet.Result.Key

/-!
Integers from the keys of buckets.

A numeric key is tried by its own text, and then by the text of the whole number that its double
equals. The double of a long integer is another integer. This one is never tried when the key is
read by its own text, and when the key is not, then neither is the other integer: rounding carries
no integer over the ends of a width, except where the whole number is too large to be tried.

Owns:
- the widths that keys are read in, and that rounding carries no integer into them;
- the texts of numeric keys, and what is read from them;
- that numeric keys are read exactly or refused.

Does not own: keys that are texts, and the engine's own text for a key.
-/

namespace Facet

/-! ### Widths -/

namespace IntegerType

/-- The widths that keys are read in. -/
def all : List IntegerType :=
  [unsigned8, signed32, unsigned32, signed64, unsigned64, size]

/-- The integers next to the ends of the width are doubles, unless they are so far out that their
whole numbers are not tried. -/
structure EndsExactly (type : IntegerType) : Prop where
  lower : type.least ≤ 0 ∧ (-2 ^ 53 < type.least ∨ type.least ≤ -2 ^ 63)
  upper : 0 ≤ type.greatest ∧ (type.greatest < 2 ^ 53 ∨ 2 ^ 63 ≤ type.greatest + 1)

private theorem endsExactly_of_mem_all {type : IntegerType} (listed : type ∈ all) :
    type.EndsExactly := by
  simp only [all, List.mem_cons, List.not_mem_nil, or_false] at listed
  rcases listed with rfl | rfl | rfl | rfl | rfl | rfl <;> exact ⟨by decide, by decide⟩

/-- Rounding carries no integer into the width from outside. -/
theorem not_holds_of_rounded {type : IntegerType} {value whole : Int} (ends : type.EndsExactly)
    (outside : ¬type.Holds value) (rounded : (Double.ofInt value).toInt? = some whole)
    (tried : whole.natAbs < 2 ^ 63) : ¬type.Holds whole := by
  by_cases small : value.natAbs < 2 ^ 53
  · rw [Double.toInt?_ofInt_of_small small, Option.some.injEq] at rounded
    rw [← rounded]
    exact outside
  · have notFar : value.natAbs < 2 ^ 63 := by
      by_contra far
      have kept :=
        Double.toInt?_ofInt_of_large (by decide : 52 ≤ 63) (Nat.le_of_not_lt far) rounded
      omega
    obtain ⟨beyond, side⟩ :=
      Double.toInt?_ofInt_of_large (by decide : 52 ≤ 53) (Nat.le_of_not_lt small) rounded
    obtain ⟨lowest, below⟩ := ends.lower
    obtain ⟨highest, above⟩ := ends.upper
    unfold Holds at outside ⊢
    omega

end IntegerType

/-! ### Texts -/

def Number.IsDouble : Number → Prop
  | .integer _ => False
  | .double _ => True

namespace Key

theorem wholeText?_eq_some_iff {value : Double} {word : String} :
    wholeText? value = some word ↔
      ∃ whole, value.toInt? = some whole ∧ whole.natAbs < 2 ^ 63 ∧ toString whole = word := by
  rw [wholeText?]
  cases value.toInt? with
  | none => simp
  | some whole => simp [Nat.pow_eq]

/-- What a numeric key is as an integer of a width: its exact value, if the width holds it, and of
keys that are doubles only what is below 2^63 in magnitude. -/
def IsInteger (number : Number) (type : IntegerType) (whole : Int) : Prop :=
  number.toRat? = some (whole : ℚ) ∧ type.Holds whole ∧
    (number.IsDouble → whole.natAbs < 2 ^ 63)

variable {type : IntegerType} {number : Number} {whole : Int}

/-- The own text of a numeric key is read if the key is an integer and the width holds it. -/
theorem read_text_eq_some_iff :
    (KeyReader.integer type).read number.text = some whole ↔
      number = .integer whole ∧ type.Holds whole := by
  cases number with
  | integer value =>
      change type.ofChars? (toString value).toList = some whole ↔ _
      rw [IntegerType.ofChars?_toString, IntegerType.check?_eq_some_iff, Number.integer.injEq]
  | double value =>
      change type.ofChars? value.jsonText.toList = some whole ↔ _
      rw [Double.ofChars?_jsonText]
      exact iff_of_false nofun nofun

/-- Of a number, its own text is tried, and then the text of its whole number. -/
theorem findSome?_rawTexts (read : String → Option Int) :
    (rawTexts (.number number)).findSome? read =
      (read number.text).or ((wholeText? number.toDouble).bind read) := by
  rw [rawTexts, List.findSome?_cons]
  cases read number.text with
  | some _ => rfl
  | none =>
      cases wholeText? number.toDouble with
      | none => rfl
      | some word => simp

/-- The whole number of a key is read if the width holds it. -/
theorem bind_wholeText?_eq_some_iff {value : Double} :
    (wholeText? value).bind (KeyReader.integer type).read = some whole ↔
      value.toInt? = some whole ∧ whole.natAbs < 2 ^ 63 ∧ type.Holds whole := by
  rw [Option.bind_eq_some_iff]
  constructor
  · intro ⟨word, tried, read⟩
    obtain ⟨found, rounded, near, rfl⟩ := wholeText?_eq_some_iff.mp tried
    change type.ofChars? (toString found).toList = some whole at read
    rw [IntegerType.ofChars?_toString, IntegerType.check?_eq_some_iff] at read
    obtain ⟨rfl, holds⟩ := read
    exact ⟨rounded, near, holds⟩
  · intro ⟨rounded, near, holds⟩
    refine ⟨toString whole, wholeText?_eq_some_iff.mpr ⟨whole, rounded, near, rfl⟩, ?_⟩
    change type.ofChars? (toString whole).toList = some whole
    rw [IntegerType.ofChars?_toString, IntegerType.check?_eq_some_iff]
    exact ⟨rfl, holds⟩

/-- The first text of a numeric key that is read gives the exact value of the key. -/
theorem findSome?_rawTexts_eq_some_iff (ends : type.EndsExactly) :
    (rawTexts (.number number)).findSome? (KeyReader.integer type).read = some whole ↔
      IsInteger number type whole := by
  rw [findSome?_rawTexts, Option.or_eq_some_iff, read_text_eq_some_iff,
    bind_wholeText?_eq_some_iff, Option.eq_none_iff_forall_ne_some]
  simp only [ne_eq, read_text_eq_some_iff, not_and]
  cases number with
  | integer value =>
      constructor
      · intro read
        rcases read with ⟨same, holds⟩ | ⟨unread, rounded, near, holds⟩
        · cases same
          exact ⟨rfl, holds, nofun⟩
        · -- the rounded integer cannot be in the width, since the key is not
          have outside : ¬type.Holds value := unread value rfl
          exact absurd holds (IntegerType.not_holds_of_rounded ends outside rounded near)
      · intro ⟨exact, holds, _⟩
        left
        refine ⟨?_, holds⟩
        rw [Number.toRat?, Option.some.injEq, Int.cast_inj] at exact
        rw [exact]
  | double value =>
      constructor
      · intro read
        rcases read with ⟨same, _⟩ | ⟨_, rounded, near, holds⟩
        · cases same
        · exact ⟨Double.toInt?_eq_some_iff.mp rounded, holds, fun _ => near⟩
      · intro ⟨exact, holds, near⟩
        right
        refine ⟨nofun, Double.toInt?_eq_some_iff.mpr exact, near trivial, holds⟩

/-! ### Keys -/

section

variable {α : Type} {reader : KeyReader α} {key : Key} {name : String}

/-- A key none of whose texts is read is shown raw in the error. -/
theorem read_eq : key.read reader name =
    (key.texts.findSome? reader.read).elim
      (Traced.failWith .coercionFailed [("name", name)]
        (.coercion name key.raw.render reader.target)) pure := by
  rw [Key.read]
  cases key.texts.findSome? reader.read <;> rfl

/-- An own text of the engine that is not read leaves the texts of the raw key. -/
theorem findSome?_texts_of_unread {raw : Json} {text : Option String}
    (unread : text.bind reader.read = none) :
    (Key.mk raw text).texts.findSome? reader.read = (rawTexts raw).findSome? reader.read := by
  have passed : text.toList.findSome? reader.read = none := by
    cases text with
    | none => rfl
    | some word => simpa using unread
  rw [texts, List.findSome?_append, passed, Option.none_or]

end

/-- **Numeric keys are read exactly or not at all.** If the engine's own text for a numeric key is
absent or is not read, the key is read as an integer of a width exactly if that integer is its
exact value, the width holds the integer, and, for a key that is a double, it is below 2^63 in
magnitude. Every other numeric key is refused as a failed conversion. So no key is read as an
integer that it is only rounded to. -/
theorem numeric_key_read_exactly (listed : type ∈ IntegerType.all) {text : Option String}
    (unread : text.bind (KeyReader.integer type).read = none) (name : String) :
    let run := (Key.mk (.number number) text).read (KeyReader.integer type) name
    (∀ whole, run.outcome = .ok whole ↔ IsInteger number type whole) ∧
      ∀ error, run.outcome = .error error ↔
        (¬∃ whole, IsInteger number type whole) ∧
          error = .coercion name (Json.number number).render type.name := by
  have found (whole : Int) :
      (Key.mk (.number number) text).texts.findSome? (KeyReader.integer type).read = some whole ↔
        IsInteger number type whole := by
    rw [findSome?_texts_of_unread unread]
    exact findSome?_rawTexts_eq_some_iff (IntegerType.endsExactly_of_mem_all listed)
  rw [read_eq]
  exact Traced.elim_outcome_of_iff found

/-- The integer after 2^53 is no double, and its double is another integer. A key with it is read
as the integer itself, and its double is never tried. -/
theorem integer_after_2_pow_53_read :
    let run := (Key.mk (.number (.integer 9007199254740993)) (some "n/a")).read
      (.integer .signed64) "count"
    IntegerType.signed64 ∈ IntegerType.all ∧
      (some "n/a").bind (KeyReader.integer .signed64).read = none ∧
      (Double.ofInt 9007199254740993).toInt? = some 9007199254740992 ∧
      run.outcome = .ok 9007199254740993 := by
  have listed : IntegerType.signed64 ∈ IntegerType.all := by decide
  have unread : (some "n/a").bind (KeyReader.integer .signed64).read = none := by decide
  obtain ⟨gives, _⟩ :=
    @numeric_key_read_exactly _ (.integer 9007199254740993) listed _ unread "count"
  exact ⟨listed, unread, by decide, (gives _).mpr ⟨rfl, ⟨by decide, by decide⟩, nofun⟩⟩

/-- The integers without a sign reach beyond 2^63, but a key that is a double is no longer read
there. -/
example :
    let at63 : Double := .finite false 1086 0
    let read (number : Number) : Option Int :=
      (rawTexts (.number number)).findSome? (KeyReader.integer .unsigned64).read
    read (.integer 9223372036854775808) = some 9223372036854775808 ∧
      at63.toInt? = some 9223372036854775808 ∧ read (.double at63) = none := by
  decide

end Key

end Facet
