/-
This file proves that cuts at counted bytes find the same components as reading characters does.
-/

import GedcomGrammar.Component.Scanner
import GedcomGrammar.Proofs.Component.Splits
import GedcomGrammar.Proofs.Text.Cuts

namespace GedcomGrammar.Component

open Text

variable {component : Component} {components : List Component} {definition text tail rest : Text}

section Leading

variable {kind : Kind} {opener closer head : Char}

theorem delimited?_of_ne (different : head ≠ opener) :
    delimited? opener closer (head :: rest) = .ok none := by
  have kept : dropLead? [opener] (head :: rest) = none := by
    simp [dropLead?, List.isPrefixOf?, different.symm]
  rw [delimited?, kept]

/-- A text can be cut before the first character that is not in a class. -/
theorem before?_takeWhile (kept : Char → Bool) (text : Text) :
    before? (utf8Length (text.takeWhile kept)) text =
      .ok (if text.takeWhile kept = [] then none else some (text.takeWhile kept)) := by
  simp only [before?, utf8Length_eq_zero_iff, slice_takeWhile]
  split <;> rfl

theorem delimited?_cons (kind : Kind) (opener closer : Char) (rest : Text) :
    delimited? opener closer (opener :: rest) =
      .ok ((enclosed? kind closer rest).map fun found => found.1.value) := by
  have opened : dropLead? [opener] (opener :: rest) = some rest := by simp
  have stop : byteOf? (· == closer) rest =
      if rest.dropWhile (· != closer) = [] then none
      else some (utf8Length (rest.takeWhile (· != closer))) := byteOf?_eq (· == closer) rest
  rw [delimited?, opened, enclosed?]
  dsimp only
  rw [stop]
  cases rest.dropWhile (· != closer) with
  | nil => cases rest.takeWhile (· != closer) <;> rfl
  | cons last later =>
      rw [if_neg (List.cons_ne_nil _ _)]
      dsimp only
      rw [before?_takeWhile]
      cases rest.takeWhile (· != closer) <;> rfl

theorem literal?_eq (text : Text) :
    literal? text =
      .ok (if text.takeWhile isPlain = [] then none else some (text.takeWhile isPlain)) := by
  have joined := List.takeWhile_append_dropWhile (p := isPlain) (l := text)
  have stop : (byteOf? (fun char => !isPlain char) text).getD (utf8Length text) =
      utf8Length (text.takeWhile isPlain) := by
    rw [byteOf?_eq]
    simp only [Bool.not_not]
    split
    · rename_i dropped
      rw [dropped, List.append_nil] at joined
      rw [joined]
      rfl
    · rfl
  rw [literal?, stop, before?_takeWhile]

/-- A reference takes its name and two delimiters of one byte each. -/
theorem utf8Length_text (delimited : component.kind.delimiters? = some (opener, closer)) :
    utf8Length component.text = utf8Length component.value + 2 := by
  have single : opener.utf8Size = 1 ∧ closer.utf8Size = 1 := by
    rcases Kind.cases_of_delimiters? delimited with
      ⟨-, rfl, rfl⟩ | ⟨-, rfl, rfl⟩ | ⟨-, rfl, rfl⟩ <;> decide
  rw [text_of_delimiters? delimited, List.cons_append, utf8Length_cons, utf8Length_append,
    utf8Length_cons, utf8Length_nil, single.1, single.2]
  omega

/-- References that the first character does not open are passed over. -/
theorem first?_append {passed others : List (Kind × Char × Char)}
    (apart : ∀ reference ∈ passed, head ≠ reference.2.1) :
    first? (head :: rest) (passed ++ others) = first? (head :: rest) others := by
  induction passed with
  | nil => rfl
  | cons reference passed inductionHypothesis =>
      obtain ⟨different, apart⟩ := List.forall_mem_cons.mp apart
      rw [List.cons_append, first?, delimited?_of_ne different, ← inductionHypothesis apart]
      rfl

theorem first?_cons_self {others : List (Kind × Char × Char)}
    (delimited : kind.delimiters? = some (opener, closer)) :
    first? (opener :: rest) ((kind, opener, closer) :: others) =
      match enclosed? kind closer rest with
      | some (component, _) => .ok (some (component, utf8Length component.text))
      | none => first? (opener :: rest) others := by
  rw [first?, delimited?_cons kind]
  cases found : enclosed? kind closer rest with
  | none => rfl
  | some first =>
      obtain ⟨component, after⟩ := first
      obtain ⟨rfl, -⟩ := enclosed?_eq_some_iff.mp found
      dsimp only
      rw [utf8Length_text delimited]
      rfl

theorem first?_nil_of_opens (opens : isPlain head = false) :
    first? (head :: rest) [] = .ok none := by
  rw [first?, literal?_eq, List.takeWhile_cons, opens]
  rfl

theorem first?_nil_of_plain (plain : isPlain head = true) :
    first? (head :: rest) [] =
      .ok (some (⟨.literal, head :: rest.takeWhile isPlain⟩,
        utf8Length (head :: rest.takeWhile isPlain))) := by
  rw [first?, literal?_eq, List.takeWhile_cons, plain]
  rfl

/-- Each reference is announced by its own character. -/
theorem exists_references_eq (delimited : kind.delimiters? = some (opener, closer)) :
    ∃ front back, references = front ++ (kind, opener, closer) :: back ∧
      (∀ reference ∈ front, opener ≠ reference.2.1) ∧
      ∀ reference ∈ back, opener ≠ reference.2.1 := by
  rcases Kind.cases_of_delimiters? delimited with
    ⟨rfl, rfl, rfl⟩ | ⟨rfl, rfl, rfl⟩ | ⟨rfl, rfl, rfl⟩
  · exact ⟨[], references.drop 1, rfl, by decide, by decide⟩
  · exact ⟨references.take 1, references.drop 2, rfl, by decide, by decide⟩
  · exact ⟨references.take 2, [], rfl, by decide, by decide⟩

end Leading

/-- Trying each kind of reference finds the component that the first character announces. -/
theorem first?_eq (text : Text) :
    first? text references =
      .ok ((leading? text).map fun found => (found.1, utf8Length found.1.text)) := by
  cases text with
  | nil => rfl
  | cons head rest =>
      cases opened : Kind.opened? head with
      | none =>
          have plain : isPlain head = true := Option.isNone_iff_eq_none.mpr opened
          have apart : ∀ reference ∈ references, head ≠ reference.2.1 := by
            rintro reference listed rfl
            have opening : ∀ reference ∈ references, isPlain reference.2.1 = false := by decide
            exact absurd (plain.symm.trans (opening reference listed)) (by simp)
          rw [← List.append_nil references, first?_append apart, first?_nil_of_plain plain,
            leading?, opened]
          rfl
      | some announced =>
          obtain ⟨kind, closer⟩ := announced
          have opens : isPlain head = false := by rw [isPlain, opened]; rfl
          have delimited := Kind.opened?_eq_some_iff.mp opened
          obtain ⟨front, back, split, before, after⟩ := exists_references_eq delimited
          rw [split, first?_append before, first?_cons_self delimited, ← List.append_nil back,
            first?_append after, first?_nil_of_opens opens, leading?, opened]
          dsimp only
          cases enclosed? kind closer rest <;> rfl

/-- What a call answers decides how collecting goes on. -/
theorem Scanner.collect_eq {scanner after : Scanner} {before : List Component} {found : KindSet}
    {answer : Except Unmatched (Option Component)} :
    scanner.next = .ok (answer, after) →
      scanner.collect before found =
        match answer with
        | .error error => .ok (.error error)
        | .ok none => .ok (.ok (before, found))
        | .ok (some component) =>
            after.collect (before ++ [component]) (found.insert component.kind) := by
  intro called
  rw [collect]
  split
  · rename_i failed
    exact absurd (failed.symm.trans called) (by simp)
  all_goals
    rename_i step
    obtain ⟨rfl, rfl⟩ := Prod.mk.inj (Except.ok.inj (step.symm.trans called))
    rfl

namespace Cursor

variable {cursor after : Cursor}

/-- The offset of a place counts the bytes of what was read before it. -/
def Placed (cursor : Cursor) : Prop :=
  ∃ front, cursor.definition = front ++ cursor.rest ∧ utf8Length front = cursor.offset

/-- The scanner that stands at a place. -/
def scanner (cursor : Cursor) : Scanner :=
  ⟨cursor.definition, cursor.offset⟩

theorem placed_start (definition : Text) : (start definition).Placed :=
  ⟨[], rfl, rfl⟩

/-- The answer at a place, and the place at which the next answer is given. -/
def answer (cursor : Cursor) : Except Unmatched (Option Component) × Cursor :=
  match cursor.next with
  | .error error => (.error error, cursor)
  | .ok none => (.ok none, cursor)
  | .ok (some (component, after)) => (.ok (some component), after)

theorem steps_succ (cursor : Cursor) (count : Nat) :
    cursor.steps (count + 1) = cursor.answer.1 :: cursor.answer.2.steps count := by
  rw [steps, answer]
  split <;> simp_all

/-- A place is at the end, before a component, or where no component begins. -/
theorem answer_cases (cursor : Cursor) :
    (cursor.rest = [] ∧ cursor.answer = (.ok none, cursor)) ∨
      (∃ component rest, leading? cursor.rest = some (component, rest) ∧
        cursor.answer = (.ok (some component), cursor.past component rest)) ∨
      (Blocked cursor.rest ∧ cursor.answer = (.error cursor.error, cursor)) := by
  by_cases ended : cursor.rest = []
  · exact .inl ⟨ended, by rw [answer, next_of_nil ended]⟩
  · cases found : leading? cursor.rest with
    | some first => exact .inr (.inl ⟨_, _, rfl, by rw [answer, next_of_leading? found]⟩)
    | none =>
        have blocked := blocked_iff.mpr ⟨ended, found⟩
        exact .inr (.inr ⟨blocked, by rw [answer, next_of_blocked blocked]⟩)

theorem Placed.answer (placed : cursor.Placed) : cursor.answer.2.Placed := by
  rcases cursor.answer_cases with ⟨-, stays⟩ | ⟨component, rest, found, moves⟩ | ⟨-, stays⟩
  · rw [stays]
    exact placed
  · obtain ⟨front, whole, same⟩ := placed
    obtain ⟨-, joined, -⟩ := leading?_eq_some_iff.mp found
    rw [moves]
    refine ⟨front ++ component.text, ?_, ?_⟩
    · rw [List.append_assoc]
      exact whole.trans (congrArg (front ++ ·) joined)
    · rw [utf8Length_append, same]
      rfl
  · rw [stays]
    exact placed

/-- The cut at a place gives the text that is still to be read, and so the same answer. -/
theorem Placed.scanner_next (placed : cursor.Placed) :
    cursor.scanner.next = .ok (cursor.answer.1, cursor.answer.2.scanner) := by
  obtain ⟨front, whole, same⟩ := placed
  have cut : slice cursor.offset cursor.definition = .ok (front, cursor.rest) :=
    slice_eq_ok_iff.mpr ⟨whole, same⟩
  simp only [Scanner.next, scanner, cut, first?_eq, bind, Except.bind, pure, Except.pure]
  rcases cursor.answer_cases with
    ⟨ended, stays⟩ | ⟨component, rest, found, moves⟩ | ⟨blocked, stays⟩
  · rw [stays, if_pos ended]
  · have nonempty : cursor.rest ≠ [] := by
      intro ended
      simp [ended, leading?] at found
    rw [moves, if_neg nonempty, found]
    rfl
  · obtain ⟨nonempty, missing⟩ := blocked_iff.mp blocked
    rw [stays, if_neg nonempty, missing]
    rfl

theorem Placed.scanner_answers (placed : cursor.Placed) (count : Nat) :
    cursor.scanner.answers count = .ok (cursor.steps count) := by
  induction count generalizing cursor with
  | zero => rfl
  | succ count inductionHypothesis =>
      rw [Scanner.answers, placed.scanner_next, steps_succ]
      dsimp only [bind, Except.bind]
      rw [inductionHypothesis placed.answer]
      rfl

/-- What is collected at a place goes on after the components that were collected before it. -/
theorem Placed.scanner_collect {cursor : Cursor} (placed : cursor.Placed)
    (before : List Component) (found : KindSet) :
    cursor.scanner.collect before found =
      .ok (cursor.remaining.map fun components => (before ++ components,
        components.foldl (fun found component => found.insert component.kind) found)) := by
  -- By recursion on the text that is still to be read, which each component makes shorter.
  rw [Scanner.collect_eq placed.scanner_next]
  have later := placed.answer
  rcases cursor.answer_cases with
    ⟨ended, stays⟩ | ⟨component, rest, leading, moves⟩ | ⟨blocked, stays⟩
  · rw [stays, remaining_of_next_none (next_of_nil ended)]
    simp [Except.map]
  · rw [moves] at later
    have := leading?_length_lt leading
    rw [moves, remaining_of_next_some (next_of_leading? leading)]
    dsimp only
    rw [later.scanner_collect]
    cases (cursor.past component rest).remaining <;> simp [Except.map]
  · rw [stays, remaining_of_next_error (next_of_blocked blocked)]
    rfl
termination_by cursor.rest.length

end Cursor

/-- Counting bytes gives what reading characters gives. -/
theorem tokenize_eq (definition : Text) :
    tokenize definition =
      .ok ((ofDefinition definition).map fun components => (components, kinds components)) :=
  (Cursor.placed_start definition).scanner_collect [] {}

theorem answers_start (definition : Text) (count : Nat) :
    (Scanner.start definition).answers count = .ok ((Cursor.start definition).steps count) :=
  (Cursor.placed_start definition).scanner_answers count

/-- A definition begins with some components, after which no further component begins. -/
def StuckAt (definition : Text) (components : List Component) (byte : Nat) : Prop :=
  ∃ front tail, definition = front ++ tail ∧ utf8Length front = byte ∧
    tokenize front = .ok (.ok (components, kinds components)) ∧
    Component.definition components = front ∧ Blocked tail

theorem tokenize_eq_ok_iff :
    tokenize definition = .ok (.ok (components, kinds components)) ↔
      Canonical components ∧ Component.definition components = definition := by
  rw [tokenize_eq, Except.ok.injEq, map_eq_ok_iff, ← ofDefinition_eq_ok_iff]
  constructor
  · rintro ⟨found, read, same⟩
    rw [read, (Prod.mk.inj same).1]
  · intro read
    exact ⟨components, read, rfl⟩

theorem Splits.leading?_eq_none (splits : Splits text [] tail) : leading? text = none := by
  have same : text = tail := splits.joined
  rcases splits.ends with rfl | blocked
  · rw [same, leading?]
  · rw [same]
    exact (blocked_iff.mp blocked).2

/-- A text splits in one way. -/
theorem Splits.unique {others : List Component} {last : Text}
    (splits : Splits text components tail) (other : Splits text others last) :
    components = others ∧ tail = last := by
  induction components generalizing text others with
  | nil =>
      cases others with
      | nil => exact ⟨rfl, splits.joined.symm.trans other.joined⟩
      | cons component others =>
          obtain ⟨rest, found, -⟩ := splits_cons_iff.mp other
          exact absurd (splits.leading?_eq_none.symm.trans found) (by simp)
  | cons component components inductionHypothesis =>
      obtain ⟨rest, found, later⟩ := splits_cons_iff.mp splits
      cases others with
      | nil => exact absurd (other.leading?_eq_none.symm.trans found) (by simp)
      | cons another others =>
          obtain ⟨after, alsoFound, alsoLater⟩ := splits_cons_iff.mp other
          rw [found, Option.some.injEq, Prod.mk.injEq] at alsoFound
          obtain ⟨rfl, rfl⟩ := alsoFound
          obtain ⟨rfl, rfl⟩ := inductionHypothesis later alsoLater
          exact ⟨rfl, rfl⟩

theorem Splits.length_le (splits : Splits text components tail) :
    components.length + tail.length ≤ text.length := by
  induction components generalizing text with
  | nil =>
      obtain rfl : text = tail := splits.joined
      rw [List.length_nil, Nat.zero_add]
  | cons component components inductionHypothesis =>
      obtain ⟨rest, found, later⟩ := splits_cons_iff.mp splits
      have shorter := leading?_length_lt found
      have bound := inductionHypothesis later
      rw [List.length_cons]
      omega

/-- A definition is stuck at most once, after the components that it splits into. -/
theorem stuckAt_iff {others : List Component} {byte : Nat}
    (splits : Splits definition components tail) :
    StuckAt definition others byte ↔
      tail ≠ [] ∧ components = others ∧ utf8Length (Component.definition components) = byte := by
  simp only [StuckAt, tokenize_eq_ok_iff]
  constructor
  · rintro ⟨front, last, joined, same, ⟨canonical, rfl⟩, -, blocked⟩
    obtain ⟨rfl, rfl⟩ := splits.unique ⟨canonical, joined, .inr blocked⟩
    exact ⟨(blocked_iff.mp blocked).1, rfl, same⟩
  · rintro ⟨nonempty, rfl, same⟩
    exact ⟨_, tail, splits.joined, same, ⟨splits.canonical, rfl⟩, rfl,
      splits.ends.resolve_left nonempty⟩

/--
Repeated calls never cut inside a character. They answer with at most one component for each
character and then always with the end, or always with the one place where the definition is stuck.
-/
theorem scans_to_end_or_fault (definition : Text) :
    ∃ (components : List Component) (ending : Except Unmatched Unit),
      (∀ count, (Scanner.start definition).answers count =
        .ok ((components.map fun component => .ok (some component)).take count ++
          List.replicate (count - components.length) (ending.map fun _ => none))) ∧
      components.length ≤ definition.length ∧
      (∀ error, ending = .error error → components.length < definition.length) ∧
      tokenize definition = .ok (ending.map fun _ => (components, kinds components)) ∧
      ofDefinition definition = ending.map (fun _ => components) ∧
      ∀ error others, ending = .error error ∧ components = others ↔
        error.definition = definition ∧ StuckAt definition others error.offset := by
  obtain ⟨components, tail, splits⟩ := exists_splits definition
  have bound := splits.length_le
  have read := ofDefinition_of_splits splits
  have answered := @Cursor.steps_of_splits _ _ (Cursor.start definition) splits
  by_cases ended : tail = []
  · rw [if_pos ended] at read
    refine ⟨components, .ok (), fun count => ?_, by omega, by simp, ?_, read,
      fun error others => ?_⟩
    · rw [answers_start, answered, if_pos ended]
      rfl
    · rw [tokenize_eq, read]
      rfl
    · rw [stuckAt_iff splits]
      simp [ended]
  · have longer := List.length_pos_iff.mpr ended
    rw [if_neg ended] at read
    refine ⟨components, .error ⟨utf8Length (Component.definition components), definition⟩,
      fun count => ?_, by omega, fun _ _ => by omega, ?_, read, fun error others => ?_⟩
    · rw [answers_start, answered, if_neg ended, Cursor.fault, Cursor.start, Nat.zero_add]
      rfl
    · rw [tokenize_eq, read]
      rfl
    · obtain ⟨offset, whole⟩ := error
      rw [stuckAt_iff splits, Except.error.injEq, Unmatched.mk.injEq]
      constructor
      · rintro ⟨⟨same, rfl⟩, joined⟩
        exact ⟨rfl, ended, joined, same⟩
      · rintro ⟨rfl, -, joined, same⟩
        exact ⟨⟨same, rfl⟩, joined⟩

end GedcomGrammar.Component
