import Facet.Log.Record
import Facet.Proofs.Json.Quoted
import Mathlib.Data.List.Nodup

/-!
Lines of the log.

A line is one JSON object and its end, whatever the texts are that it holds. Quoted texts have no
control characters, so nothing inside a line can break it, and they are read back as they were.
The fields are sorted by their names, and fields of one name stay in their order, so that the
line does not depend on the order of fields with different names.

Owns:
- the tokens of a line, and that the object of its fields is read from them;
- that a line has no control character but its end;
- sorted forms of rows of fields, and that a record has its fields in sorted form.
-/

namespace Facet

open Json (Lexer Token Machine Frame)

/-! ### Characters -/

namespace Text.Quotation

/-- The digits of a code are no control characters. -/
theorem isControl_digitChar : ∀ digit < 16, isControl digit.digitChar = false := by
  decide

/-- What is written for a character in a log record has no control character. -/
theorem isControl_of_mem_encodeChar {char written : Char}
    (member : written ∈ record.encodeChar char) : isControl written = false := by
  unfold encodeChar at member
  split at member
  · next letter found =>
      obtain ⟨before, after, letters, _⟩ := List.lookup_eq_some_iff.mp found
      have listed : (char, letter) ∈ record.letters := by simp [letters]
      have visible : ∀ pair ∈ record.letters, isControl pair.2 = false := by decide
      rcases List.mem_cons.mp member with rfl | rest
      · rfl
      · rw [List.mem_singleton.mp rest]
        exact visible _ listed
  · split at member
    · rcases List.mem_cons.mp member with rfl | rest
      · rfl
      · rcases List.mem_cons.mp rest with rfl | digits
        · rfl
        · obtain ⟨digit, listed, rfl⟩ := List.mem_map.mp digits
          have small : digit < 16 := by
            simp only [List.mem_cons, List.not_mem_nil, or_false] at listed
            omega
          exact isControl_digitChar digit small
    · next uncoded =>
        rw [List.mem_singleton.mp member]
        exact Bool.eq_false_iff.mpr uncoded

end Text.Quotation

namespace Log.Record

/-- The characters have no control character among them. -/
def IsUnbroken (chars : List Char) : Prop :=
  ∀ char ∈ chars, Text.isControl char = false

private theorem isUnbroken_quoted (text : String) : IsUnbroken (quoted text) := by
  have body : IsUnbroken (Text.Quotation.record.encode text.toList) := by
    intro written member
    obtain ⟨char, _, within⟩ := List.mem_flatMap.mp member
    exact Text.Quotation.isControl_of_mem_encodeChar within
  have mark : Text.isControl '"' = false := by decide
  simp only [IsUnbroken, quoted, List.cons_append, List.forall_mem_cons, List.forall_mem_append]
  exact ⟨mark, body, mark, List.forall_mem_nil _⟩

private theorem isUnbroken_member (field : String × String) : IsUnbroken (member field) := by
  have colon : Text.isControl ':' = false := by decide
  simp only [IsUnbroken, member, List.forall_mem_cons, List.forall_mem_append]
  exact ⟨isUnbroken_quoted field.1, colon, isUnbroken_quoted field.2⟩

private theorem isUnbroken_memberList : ∀ fields : List (String × String),
    IsUnbroken (memberList fields)
  | [] => List.forall_mem_nil _
  | [field] => isUnbroken_member field
  | field :: next :: fields => by
      have comma : Text.isControl ',' = false := by decide
      simp only [IsUnbroken, memberList, List.forall_mem_cons, List.forall_mem_append]
      exact ⟨isUnbroken_member field, comma, isUnbroken_memberList (next :: fields)⟩

/-! ### Tokens -/

/-- The tokens of a member. -/
def memberTokens (field : String × String) : List Token :=
  [.text field.1, .colon, .text field.2]

/-- The tokens of a row of members. -/
def memberListTokens : List (String × String) → List Token
  | [] => []
  | [field] => memberTokens field
  | field :: fields => memberTokens field ++ .comma :: memberListTokens fields

private theorem leads_member (field : String × String) (tokens : List Token) :
    Leads Lexer.step ⟨.between, tokens⟩ (member field)
      ⟨.between, (memberTokens field).reverse ++ tokens⟩ := by
  have name := Lexer.leads_quoted tokens Text.Quotation.record_isLegible field.1
  have value := Lexer.leads_quoted (.colon :: .text field.1 :: tokens)
    Text.Quotation.record_isLegible field.2
  exact name.append (.cons rfl value)

private theorem leads_memberList : ∀ (fields : List (String × String)) (tokens : List Token),
    Leads Lexer.step ⟨.between, tokens⟩ (memberList fields)
      ⟨.between, (memberListTokens fields).reverse ++ tokens⟩
  | [], tokens => .nil _
  | [field], tokens => leads_member field tokens
  | field :: next :: fields, tokens => by
      have first := leads_member field tokens
      have comma : Lexer.step ⟨.between, (memberTokens field).reverse ++ tokens⟩ ',' =
          some ⟨.between, .comma :: ((memberTokens field).reverse ++ tokens)⟩ := rfl
      have rest := leads_memberList (next :: fields)
        (.comma :: ((memberTokens field).reverse ++ tokens))
      have both := first.append (.cons comma rest)
      simpa [memberList, memberListTokens] using both

/-! ### Objects -/

/-- The object of some fields, in their order. -/
def object (fields : List (String × String)) : Json :=
  .object (fields.map fun field => (field.1, .string field.2))

private theorem leads_memberTokens (field : String × String) (read : List (String × Json))
    {expects : Json.Expectation} (due : expects = .name ∨ expects = .nameOrClose) :
    Leads Machine.step (.reading [.members read] expects) (memberTokens field)
      (.reading [.members ((field.1, .string field.2) :: read)] .separator) := by
  rcases due with rfl | rfl <;> rfl

private theorem leads_memberListTokens (field : String × String) (fields : List (String × String))
    (read : List (String × Json)) {expects : Json.Expectation}
    (due : expects = .name ∨ expects = .nameOrClose) :
    Leads Machine.step (.reading [.members read] expects) (memberListTokens (field :: fields))
      (.reading [.members (((field :: fields).map fun field =>
        (field.1, Json.string field.2)).reverse ++ read)] .separator) := by
  induction fields generalizing field read expects with
  | nil => exact leads_memberTokens field read due
  | cons next rest inductionHypothesis =>
      have first := leads_memberTokens field read due
      have comma : Machine.step
          (.reading [.members ((field.1, .string field.2) :: read)] .separator) .comma =
          some (.reading [.members ((field.1, .string field.2) :: read)] .name) := rfl
      have others := inductionHypothesis next ((field.1, .string field.2) :: read) (.inl rfl)
      have both := first.append (.cons comma others)
      simpa [memberListTokens] using both

/-- The object of some fields is read from its characters. -/
theorem parse?_braces (field : String × String) (fields : List (String × String)) :
    Json.parse? (String.ofList ('\x7b' :: memberList (field :: fields) ++ ['\x7d'])) =
      some (object (field :: fields)) := by
  let row := memberListTokens (field :: fields)
  have opened : Lexer.step ⟨.between, []⟩ '\x7b' = some ⟨.between, [.openObject]⟩ := rfl
  have closed : Lexer.step ⟨.between, row.reverse ++ [.openObject]⟩ '\x7d' =
      some ⟨.between, .closeObject :: (row.reverse ++ [.openObject])⟩ := rfl
  have lexed : Leads Lexer.step ⟨.between, []⟩ ('\x7b' :: memberList (field :: fields) ++ ['\x7d'])
      ⟨.between, .closeObject :: (row.reverse ++ [.openObject])⟩ :=
    .cons opened ((leads_memberList (field :: fields) [.openObject]).append (.single closed))
  have begun : Machine.step (.reading [] .value) .openObject =
      some (.reading [.members []] .nameOrClose) := rfl
  have members := leads_memberListTokens field fields [] (.inr rfl)
  have ended (read : List (String × Json)) :
      Machine.step (.reading [.members read] .separator) .closeObject =
        some (.done (.object read.reverse)) := rfl
  have built : Leads Machine.step (.reading [] .value) (.openObject :: row ++ [.closeObject])
      (.done (object (field :: fields))) := by
    have all := Leads.cons begun (members.append (.single (ended _)))
    rwa [List.append_nil, List.reverse_reverse] at all
  have tokens : Token.ofChars? ('\x7b' :: memberList (field :: fields) ++ ['\x7d']) =
      some (.openObject :: row ++ [.closeObject]) := by
    rw [Token.ofChars?, show List.foldlM _ _ _ = some _ from lexed]
    simp [Lexer.finish?]
  rw [Json.parse?, String.toList_ofList, tokens, Option.bind_some, Json.ofTokens?,
    show List.foldlM _ _ _ = some _ from built]
  rfl

/-! ### Sorted forms -/

/-- A row of fields in the order of their names, where fields of one name keep their order. -/
structure IsSortedForm (fields sorted : List (String × String)) : Prop where
  perm : sorted.Perm fields
  ordered : sorted.Pairwise fun left right => left.1 ≤ right.1
  stable : ∀ name, sorted.filter (·.1 = name) = fields.filter (·.1 = name)

/-- Two ordered rows of the same fields agree if no name is there twice. -/
theorem eq_of_perm_of_ordered {first second : List (String × String)}
    (perm : first.Perm second) (distinct : (first.map (·.1)).Nodup)
    (firstOrdered : first.Pairwise fun left right => left.1 ≤ right.1)
    (secondOrdered : second.Pairwise fun left right => left.1 ≤ right.1) : first = second := by
  refine perm.eq_of_pairwise ?_ firstOrdered secondOrdered
  intro left right leftMember rightMember below above
  have rightMember := perm.mem_iff.mpr rightMember
  exact List.inj_on_of_nodup_map distinct leftMember rightMember (String.le_antisymm below above)

/-- A record has its fields in sorted form. -/
theorem sortedFields_isSortedForm (record : Record) :
    IsSortedForm record.fields record.sortedFields := by
  have transitive (first second third : String × String)
      (below : decide (first.1 ≤ second.1) = true) (above : decide (second.1 ≤ third.1) = true) :
      decide (first.1 ≤ third.1) = true :=
    decide_eq_true (String.le_trans (of_decide_eq_true below) (of_decide_eq_true above))
  have total (first second : String × String) :
      (decide (first.1 ≤ second.1) || decide (second.1 ≤ first.1)) = true := by
    simpa using String.le_total first.1 second.1
  have perm : record.sortedFields.Perm record.fields := List.mergeSort_perm ..
  refine ⟨perm, ?_, fun name => ?_⟩
  · simpa [sortedFields] using List.pairwise_mergeSort transitive total record.fields
  · -- Fields of one name are an ordered part of the fields, and such a part survives the sorting.
    let named := record.fields.filter (·.1 = name)
    have level : named.Pairwise fun left right => decide (left.1 ≤ right.1) = true := by
      refine List.pairwise_of_forall_mem_list fun left leftMember right rightMember => ?_
      have leftName : left.1 = name := by simpa using (List.mem_filter.mp leftMember).2
      have rightName : right.1 = name := by simpa using (List.mem_filter.mp rightMember).2
      simp [leftName, rightName]
    have kept : named.Sublist record.sortedFields :=
      List.sublist_mergeSort transitive total level List.filter_sublist
    have again : named.Sublist (record.sortedFields.filter (·.1 = name)) := by
      simpa [named] using kept.filter (·.1 = name)
    exact (again.eq_of_length (perm.filter _).length_eq.symm).symm

/-- Records that differ in the order of fields with different names have one sorted form. -/
theorem sortedFields_eq_of_perm {record other : Record}
    (perm : other.fields.Perm record.fields) (distinct : (record.fields.map (·.1)).Nodup) :
    other.sortedFields = record.sortedFields := by
  have otherForm := other.sortedFields_isSortedForm
  have form := record.sortedFields_isSortedForm
  have same : other.sortedFields.Perm record.sortedFields :=
    (otherForm.perm.trans perm).trans form.perm.symm
  have otherDistinct : (other.sortedFields.map (·.1)).Nodup :=
    ((otherForm.perm.trans perm).map (·.1)).nodup_iff.mpr distinct
  exact eq_of_perm_of_ordered same otherDistinct otherForm.ordered form.ordered

/-! ### Lines -/

/-- The line without its end. -/
def body (record : Record) : String :=
  String.ofList ('\x7b' :: memberList record.allFields ++ ['\x7d'])

private theorem line_eq_body (record : Record) : record.line = record.body ++ "\n" := by
  apply String.toList_injective
  simp [line, body]

private theorem isUnbroken_body (record : Record) : IsUnbroken record.body.toList := by
  have opening : Text.isControl '\x7b' = false := by decide
  have closing : Text.isControl '\x7d' = false := by decide
  simp only [IsUnbroken, body, String.toList_ofList, List.cons_append, List.forall_mem_cons,
    List.forall_mem_append]
  exact ⟨opening, isUnbroken_memberList _, closing, List.forall_mem_nil _⟩

private theorem parse?_body (record : Record) :
    Json.parse? record.body = some (object record.allFields) :=
  parse?_braces _ _

/-- A line is one JSON object and a newline, and has no other newline. The object has the event,
the severity and the sorted form of the fields, with their texts as they were. The order in which
fields with different names are given does not matter. -/
theorem line_is_one_object (record : Record) :
    (∃ text sorted, record.line = text ++ "\n" ∧ '\n' ∉ text.toList ∧
      IsSortedForm record.fields sorted ∧
      Json.parse? text = some (object
        (("event", record.event) :: ("severity", record.severity.name) :: sorted))) ∧
    ∀ fields : List (String × String), fields.Perm record.fields →
      (record.fields.map (·.1)).Nodup → { record with fields }.line = record.line := by
  constructor
  · have unbroken : '\n' ∉ record.body.toList := by
      intro member
      have plain := record.isUnbroken_body '\n' member
      exact absurd plain (by decide)
    exact ⟨record.body, record.sortedFields, record.line_eq_body, unbroken,
      record.sortedFields_isSortedForm, record.parse?_body⟩
  · intro fields perm distinct
    have sorted : { record with fields }.sortedFields = record.sortedFields :=
      sortedFields_eq_of_perm perm distinct
    rw [line, line, allFields, allFields, sorted]

/-- A name with marks, a newline and a delete character stays inside its line, and the line is
the same if the two fields are given the other way round. -/
theorem coercionFailed_line :
    let metric : String × String := ("metric", "say \"a\\b\"\n\x7f")
    let key : String × String := ("key", "Sedan")
    let record : Record := ⟨.warn, "VALUE_COERCION_FAILED", [metric, key]⟩
    '\n' ∈ metric.2.toList ∧
      (∃ text, record.line = text ++ "\n" ∧ '\n' ∉ text.toList ∧
        Json.parse? text = some (object
          [("event", "VALUE_COERCION_FAILED"), ("severity", "WARN"), key, metric])) ∧
      [key, metric].Perm record.fields ∧ (record.fields.map (·.1)).Nodup ∧
      { record with fields := [key, metric] }.line = record.line := by
  intro metric key record
  obtain ⟨⟨text, sorted, line, unbroken, form, parsed⟩, others⟩ := line_is_one_object record
  have perm : [key, metric].Perm record.fields := .swap ..
  have distinct : (record.fields.map (·.1)).Nodup := by decide
  have ordered : [key, metric].Pairwise fun left right => left.1 ≤ right.1 := by decide
  obtain rfl : sorted = [key, metric] :=
    (eq_of_perm_of_ordered (perm.trans form.perm.symm)
      ((perm.map (·.1)).nodup_iff.mpr distinct) ordered form.ordered).symm
  exact ⟨by decide, ⟨text, line, unbroken, parsed⟩, perm, distinct, others _ perm distinct⟩

end Log.Record

end Facet
