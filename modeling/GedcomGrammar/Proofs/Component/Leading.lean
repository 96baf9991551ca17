/-
This file proves with which component a text begins, and when it begins with none.
-/

import GedcomGrammar.Component.Canonical
import GedcomGrammar.Component.Cursor
import GedcomGrammar.Proofs.Text.Trimmed

namespace GedcomGrammar.Component

variable {component : Component} {text rest : Text}

section Kinds

variable {kind : Kind} {opener closer char : Char}

theorem Kind.cases_of_delimiters? (delimited : kind.delimiters? = some (opener, closer)) :
    (kind = .primitive ∧ opener = '<' ∧ closer = '>') ∨
      (kind = .term ∧ opener = '{' ∧ closer = '}') ∨
      (kind = .tag ∧ opener = '%' ∧ closer = '%') := by
  cases kind <;> simp_all [delimiters?, eq_comm]

/-- The delimiters of a reference are those that open it and close it. -/
theorem Kind.opened?_eq_some_iff :
    opened? opener = some (kind, closer) ↔ kind.delimiters? = some (opener, closer) := by
  constructor
  · intro opened
    unfold opened? at opened
    split_ifs at opened with angle brace percent <;>
      simp only [Option.some.injEq, Prod.mk.injEq] at opened <;>
      obtain ⟨rfl, rfl⟩ := opened
    · rw [angle, delimiters?]
    · rw [brace, delimiters?]
    · rw [percent, delimiters?]
  · intro delimited
    rcases cases_of_delimiters? delimited with
      ⟨rfl, rfl, rfl⟩ | ⟨rfl, rfl, rfl⟩ | ⟨rfl, rfl, rfl⟩ <;> rfl

theorem exists_opened?_iff :
    (∃ kind, Kind.opened? opener = some (kind, closer)) ↔
      (opener, closer) ∈ [('<', '>'), ('{', '}'), ('%', '%')] := by
  simp only [Kind.opened?_eq_some_iff]
  constructor
  · rintro ⟨kind, delimited⟩
    rcases Kind.cases_of_delimiters? delimited with
      ⟨-, rfl, rfl⟩ | ⟨-, rfl, rfl⟩ | ⟨-, rfl, rfl⟩ <;> simp
  · intro listed
    simp only [List.mem_cons, Prod.mk.injEq, List.not_mem_nil, or_false] at listed
    rcases listed with ⟨rfl, rfl⟩ | ⟨rfl, rfl⟩ | ⟨rfl, rfl⟩
    · exact ⟨.primitive, rfl⟩
    · exact ⟨.term, rfl⟩
    · exact ⟨.tag, rfl⟩

theorem Kind.excluded_of_delimiters? (delimited : kind.delimiters? = some (opener, closer)) :
    kind.excluded = [closer] := by
  rcases cases_of_delimiters? delimited with
    ⟨rfl, -, rfl⟩ | ⟨rfl, -, rfl⟩ | ⟨rfl, -, rfl⟩ <;> rfl

theorem Kind.delimiters?_eq_none_iff : kind.delimiters? = none ↔ kind = .literal := by
  cases kind <;> simp [delimiters?]

theorem isPlain_iff : isPlain char = true ↔ char ∉ Kind.literal.excluded := by
  unfold isPlain Kind.opened? Kind.excluded
  split_ifs with angle brace percent <;> simp_all

end Kinds

/-- A reference ends at the first closing delimiter, which is not the first character. -/
theorem enclosed?_eq_some_iff {kind : Kind} {closer : Char} :
    enclosed? kind closer text = some (component, rest) ↔
      component.kind = kind ∧ component.value ≠ [] ∧ closer ∉ component.value ∧
        text = component.value ++ closer :: rest := by
  constructor
  · intro found
    have joined := List.takeWhile_append_dropWhile (p := (· != closer)) (l := text)
    unfold enclosed? at found
    split at found
    · rename_i first others last later taken dropped
      simp only [Option.some.injEq, Prod.mk.injEq] at found
      obtain ⟨rfl, rfl⟩ := found
      obtain rfl : last = closer := by
        have refused := @Text.head?_dropWhile (· != closer) text last (by rw [dropped]; rfl)
        simpa using refused
      refine ⟨rfl, by rw [taken]; exact List.cons_ne_nil _ _, ?_, ?_⟩
      · intro member
        simpa using List.mem_takeWhile_imp member
      · rw [← dropped]
        exact joined.symm
    · simp at found
  · rintro ⟨rfl, nonempty, absent, rfl⟩
    have accepted : ∀ char ∈ component.value, (char != closer) = true := by
      intro char member
      rw [bne_iff_ne]
      rintro rfl
      exact absent member
    have stops : (closer != closer) = false := by simp
    obtain ⟨kind, value⟩ := component
    obtain ⟨first, others, rfl⟩ := List.exists_cons_of_ne_nil nonempty
    unfold enclosed?
    rw [Text.takeWhile_append_cons rest accepted stops,
      Text.dropWhile_append_cons rest accepted stops]

theorem enclosed?_eq_none_iff {kind : Kind} {closer : Char} :
    enclosed? kind closer text = none ↔ closer ∉ text ∨ text.head? = some closer := by
  constructor
  · intro missing
    by_contra both
    rw [not_or, not_not] at both
    obtain ⟨name, rest, rfl, absent⟩ := List.eq_append_cons_of_mem both.1
    have nonempty : name ≠ [] := by
      rintro rfl
      exact both.2 rfl
    have found : enclosed? kind closer (name ++ closer :: rest) = some (⟨kind, name⟩, rest) :=
      enclosed?_eq_some_iff.mpr ⟨rfl, nonempty, absent, rfl⟩
    exact absurd (missing.symm.trans found) (by simp)
  · intro unclosed
    rw [Option.eq_none_iff_forall_ne_some]
    rintro ⟨component, rest⟩ found
    obtain ⟨-, nonempty, absent, rfl⟩ := enclosed?_eq_some_iff.mp found
    rcases unclosed with missing | immediate
    · exact missing (by simp)
    · obtain ⟨first, others, named⟩ := List.exists_cons_of_ne_nil nonempty
      rw [named, List.cons_append, List.head?_cons, Option.some.injEq] at immediate
      exact absent (by rw [named, immediate]; exact List.mem_cons_self)

/-- The text goes on with an opening delimiter, if it goes on. -/
def Opens (text : Text) : Prop :=
  ∀ char, text.head? = some char → isPlain char = false

theorem takeWhile_isPlain {front : Text} (plain : ∀ char ∈ front, isPlain char = true)
    (opens : Opens rest) :
    (front ++ rest).takeWhile isPlain = front ∧ (front ++ rest).dropWhile isPlain = rest := by
  cases rest with
  | nil =>
      rw [List.append_nil, List.takeWhile_eq_self_iff.mpr plain,
        List.dropWhile_eq_nil_iff.mpr plain]
      exact ⟨rfl, rfl⟩
  | cons stop later =>
      have stops := opens stop rfl
      exact ⟨Text.takeWhile_append_cons later plain stops,
        Text.dropWhile_append_cons later plain stops⟩

theorem text_of_delimiters? {opener closer : Char}
    (delimited : component.kind.delimiters? = some (opener, closer)) :
    component.text = opener :: component.value ++ [closer] := by
  rw [text, delimited]

theorem text_of_literal (literal : component.kind = .literal) :
    component.text = component.value := by
  rw [text, literal]
  rfl

/-- Literal text is proper when it is plain and not empty. -/
theorem proper_iff_of_literal (literal : component.kind = .literal) :
    component.Proper ↔ component.value ≠ [] ∧ ∀ char ∈ component.value, isPlain char = true := by
  rw [Proper, literal]
  refine and_congr_right fun _ => ?_
  simp only [isPlain_iff]
  exact ⟨fun clean char member excluded => clean char excluded member,
    fun plain char excluded member => plain char member excluded⟩

theorem proper_iff_of_delimiters? {opener closer : Char}
    (delimited : component.kind.delimiters? = some (opener, closer)) :
    component.Proper ↔ component.value ≠ [] ∧ closer ∉ component.value := by
  rw [Proper, Kind.excluded_of_delimiters? delimited, List.forall_mem_singleton]

theorem leading?_reference_append {opener closer : Char}
    (delimited : component.kind.delimiters? = some (opener, closer)) (proper : component.Proper)
    (rest : Text) : leading? (component.text ++ rest) = some (component, rest) := by
  obtain ⟨nonempty, absent⟩ := (proper_iff_of_delimiters? delimited).mp proper
  have joined : component.text ++ rest = opener :: (component.value ++ closer :: rest) := by
    simp [text_of_delimiters? delimited]
  rw [joined, leading?, Kind.opened?_eq_some_iff.mpr delimited]
  exact enclosed?_eq_some_iff.mpr ⟨rfl, nonempty, absent, rfl⟩

theorem leading?_literal_append (literal : component.kind = .literal) (proper : component.Proper)
    (opens : Opens rest) : leading? (component.text ++ rest) = some (component, rest) := by
  obtain ⟨nonempty, plain⟩ := (proper_iff_of_literal literal).mp proper
  rw [text_of_literal literal]
  obtain ⟨kind, value⟩ := component
  obtain rfl : kind = .literal := literal
  obtain ⟨head, later, rfl⟩ := List.exists_cons_of_ne_nil nonempty
  obtain ⟨first, others⟩ := List.forall_mem_cons.mp plain
  have unopened : Kind.opened? head = none := Option.isNone_iff_eq_none.mp first
  obtain ⟨taken, dropped⟩ := takeWhile_isPlain others opens
  rw [List.cons_append, leading?, unopened, taken, dropped]

/-- A text begins with a proper component, of which literal text goes as far as it can. -/
theorem leading?_eq_some_iff :
    leading? text = some (component, rest) ↔
      component.Proper ∧ text = component.text ++ rest ∧
        (component.kind = .literal → Opens rest) := by
  constructor
  · intro found
    unfold leading? at found
    split at found
    · simp at found
    · rename_i head later
      split at found
      · rename_i unopened
        simp only [Option.some.injEq, Prod.mk.injEq] at found
        obtain ⟨rfl, rfl⟩ := found
        have plain : isPlain head = true := by rw [isPlain, unopened]; rfl
        refine ⟨(proper_iff_of_literal rfl).mpr ⟨List.cons_ne_nil _ _, ?_⟩, ?_, ?_⟩
        · exact List.forall_mem_cons.mpr ⟨plain, fun char member => List.mem_takeWhile_imp member⟩
        · rw [text_of_literal rfl, List.cons_append, List.takeWhile_append_dropWhile]
        · exact fun _ char first => Text.head?_dropWhile first
      · rename_i kind closer opened
        have delimited := Kind.opened?_eq_some_iff.mp opened
        obtain ⟨rfl, nonempty, absent, rfl⟩ := enclosed?_eq_some_iff.mp found
        refine ⟨(proper_iff_of_delimiters? delimited).mpr ⟨nonempty, absent⟩, ?_, fun literal => ?_⟩
        · simp [text_of_delimiters? delimited]
        · rw [Kind.delimiters?_eq_none_iff.mpr literal] at delimited
          exact absurd delimited (by simp)
  · rintro ⟨proper, rfl, opens⟩
    cases delimited : component.kind.delimiters? with
    | some delimiters => exact leading?_reference_append delimited proper rest
    | none =>
        have literal := Kind.delimiters?_eq_none_iff.mp delimited
        exact leading?_literal_append literal proper (opens literal)

theorem blocked_iff : Blocked text ↔ text ≠ [] ∧ leading? text = none := by
  constructor
  · rintro ⟨opener, closer, rest, listed, rfl, unclosed⟩
    obtain ⟨kind, opened⟩ := exists_opened?_iff.mpr listed
    refine ⟨List.cons_ne_nil _ _, ?_⟩
    rw [leading?, opened]
    exact enclosed?_eq_none_iff.mpr unclosed
  · rintro ⟨nonempty, missing⟩
    obtain ⟨opener, rest, rfl⟩ := List.exists_cons_of_ne_nil nonempty
    rw [leading?] at missing
    split at missing
    · simp at missing
    · rename_i kind closer opened
      exact ⟨opener, closer, rest, exists_opened?_iff.mp ⟨kind, opened⟩, rfl,
        enclosed?_eq_none_iff.mp missing⟩

end GedcomGrammar.Component
