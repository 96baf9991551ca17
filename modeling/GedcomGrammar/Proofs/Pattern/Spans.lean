/-
This file proves that the text of a pattern describes what the pattern accepts.
-/

import GedcomGrammar.Pattern.Language
import GedcomGrammar.Proofs.Pattern.Reading
import GedcomGrammar.Proofs.Regex.Spans

namespace GedcomGrammar

namespace Leaf

/-- One unit of a leaf. -/
def IsUnit (leaf : Leaf) (value : Text) : Prop :=
  (∃ char, value = [char] ∧ leaf.role char = .whole) ∨
    ∃ char, value = [char, char] ∧ leaf.role char = .half

theorem units_succ_iff {leaf : Leaf} {count : Nat} {value : Text} :
    Units leaf (count + 1) value ↔
      ∃ left right, value = left ++ right ∧ leaf.IsUnit left ∧ Units leaf count right := by
  constructor
  · intro units
    cases units with
    | whole role later => exact ⟨_, _, List.singleton_append.symm, .inl ⟨_, rfl, role⟩, later⟩
    | doubled role later => exact ⟨[_, _], _, rfl, .inr ⟨_, rfl, role⟩, later⟩
  · rintro ⟨left, right, rfl, ⟨char, rfl, role⟩ | ⟨char, rfl, role⟩, later⟩
    · exact .whole role later
    · exact .doubled role later

theorem units_zero_iff {leaf : Leaf} {value : Text} : Units leaf 0 value ↔ value = [] := by
  constructor
  · rintro ⟨⟩
    rfl
  · rintro rfl
    exact .none

/-- As many units are described one after another. -/
theorem times_units {leaf : Leaf} {unit : Regex} (describes : unit.Describes leaf.IsUnit)
    {count : Nat} {before middle after : Text} :
    Regex.Times unit.Spans count before middle after ↔ Units leaf count middle := by
  induction count generalizing before middle with
  | zero => exact units_zero_iff.symm
  | succ count inductionHypothesis =>
      simp only [Regex.times_iff describes, units_succ_iff, inductionHypothesis]

theorem textRole_half_iff {char : Char} : textRole char = .half ↔ char = '@' := by
  unfold textRole
  split
  · simp [*]
  · split <;> simp [*]

theorem textRole_whole_iff {char : Char} :
    textRole char = .whole ↔ char ≠ '@' ∧ 0x20 ≤ char.toNat ∧ char ≠ '\x7f' := by
  unfold textRole
  split
  · simp [*]
  · rename_i other
    split
    · rename_i control
      rw [iff_false_left (by simp)]
      rintro ⟨-, printable, kept⟩
      rcases control with low | delete
      · omega
      · exact kept delete
    · rename_i plain
      rw [not_or, not_lt] at plain
      simp [other, plain]

/-- The set for text values leaves out the control characters and the at sign. -/
theorem textRole_whole_iff_holds {char : Char} :
    textRole char = .whole ↔
      Regex.holds true [('\x00', '\x1f'), ('\x7f', '\x7f'), ('@', '@')] char = true := by
  have order (low high : Char) : low ≤ high ↔ low.toNat ≤ high.toNat := Iff.rfl
  have equal (left right : Char) : left = right ↔ left.toNat = right.toNat :=
    ⟨congrArg Char.toNat, fun same => Char.ext (UInt32.toNat_inj.mp same)⟩
  have lowest : '\x00'.toNat = 0 := rfl
  have highest : '\x1f'.toNat = 0x1f := rfl
  simp only [textRole_whole_iff, Regex.holds, List.any_cons, List.any_nil, Bool.or_false,
    bne_iff_ne, ne_eq, Bool.not_eq_true, Bool.or_eq_false_iff, Bool.and_eq_false_iff,
    decide_eq_false_iff_not, order, equal, lowest, highest]
  omega

theorem digitRole_whole_iff_holds {char : Char} :
    digitRole char = .whole ↔ Regex.holds false [('0', '9')] char = true := by
  simp [digitRole, Regex.holds, Char.isDigit, Char.le_def]

theorem digitRole_ne_half (char : Char) : digitRole char ≠ .half := by
  unfold digitRole
  split <;> simp

theorem textUnit_describes : textUnit.Describes (IsUnit .text) := by
  intro before middle after
  have doubled : (Regex.concat [.single '@', .single '@']).Spans before middle after ↔
      ∃ char, middle = [char, char] ∧ role .text char = .half := by
    simp [Regex.concat, Regex.Spans, role, textRole_half_iff]
  have whole : (Regex.concat
      [.set true [('\x00', '\x1f'), ('\x7f', '\x7f'), ('@', '@')]]).Spans before middle after ↔
      ∃ char, middle = [char] ∧ role .text char = .whole := by
    simp only [Regex.spans_singleton, Regex.Spans, role, textRole_whole_iff_holds]
  rw [textUnit, Regex.spans_anyOf, List.exists_mem_cons_iff, doubled, whole]
  simp [IsUnit, or_comm]

theorem digitUnit_describes {leaf : Leaf} (digits : leaf.role = digitRole) :
    digitUnit.Describes leaf.IsUnit := by
  intro before middle after
  simp only [digitUnit, Regex.Spans, IsUnit, digits, digitRole_whole_iff_holds, digitRole_ne_half,
    and_false, exists_false, or_false]

end Leaf

namespace Pattern

open Regex (Frame)

/-- Choices stand only in groups, and there only on top. -/
def Grouped : Pattern → (inGroup : Bool) → Prop
  | .literal _, _ => True
  | .leaf _ _, _ => True
  | .sequence first second, _ => first.Grouped false ∧ second.Grouped false
  | .choice first second, inGroup =>
      inGroup = true ∧ first.Grouped false ∧ second.Grouped true
  | .group body, _ => body.Grouped true

/-- What is read of a pattern without choices goes after the items before it. -/
structure ReadAs (pattern : Pattern) (items : List Regex) : Prop where
  read : ∀ frame : Frame, pattern.read frame = { frame with items := items ++ frame.items }
  describes : (Regex.concat items).Describes pattern.Accepts

theorem literal_readAs (spelling : Text) :
    (Pattern.literal spelling).ReadAs (spelling.reverse.map .single) where
  read frame := by
    change readLiteral spelling frame = _
    unfold readLiteral
    induction spelling generalizing frame with
    | nil => rfl
    | cons char later inductionHypothesis =>
        rw [List.foldl_cons, inductionHypothesis, List.reverse_cons, List.map_append,
          List.append_assoc]
        rfl
  describes := by
    induction spelling using List.reverseRecOn with
    | nil => exact fun before middle after => Iff.rfl
    | append_singleton first char inductionHypothesis =>
        intro before middle after
        have earlier (left right : Text) := inductionHypothesis before left right
        simp only [Accepts] at earlier
        simp only [List.reverse_append, List.reverse_singleton, List.singleton_append,
          List.map_cons, Regex.concat, Regex.Spans, Accepts, earlier]
        simp

theorem leaf_readAs (kind : Leaf) (bound : Nat) :
    (Pattern.leaf kind bound).ReadAs (leafItem? bound kind).toList where
  read frame := by cases kind <;> rfl
  describes := by
    intro before middle after
    cases kind with
    | text =>
        simp only [leafItem?, Option.toList_some, Regex.spans_singleton, Regex.Spans,
          Leaf.times_units Leaf.textUnit_describes, Accepts, Leaf.Accepts]
    | number =>
        simp only [leafItem?, Option.toList_some, Regex.spans_singleton, Regex.Spans,
          Leaf.times_units (@Leaf.digitUnit_describes .number rfl), Accepts, Leaf.Accepts]
    | digit =>
        have one := @Leaf.units_succ_iff .digit 0 middle
        simp only [Leaf.units_zero_iff] at one
        simp only [leafItem?, Option.toList_some, Regex.spans_singleton, Accepts, Leaf.Accepts,
          one, @Leaf.digitUnit_describes .digit rfl before middle after]
        simp
    | null => exact Iff.rfl

theorem ReadAs.sequence {first second : Pattern} {earlier later : List Regex}
    (readFirst : first.ReadAs earlier) (readSecond : second.ReadAs later) :
    (Pattern.sequence first second).ReadAs (later ++ earlier) where
  read frame := by
    rw [Pattern.read, readFirst.read, readSecond.read, List.append_assoc]
  describes before middle after := by
    simp only [Regex.spans_concat_append, readFirst.describes _ _ _, readSecond.describes _ _ _,
      Accepts]

/-- A pattern without choices is read as one more alternative. -/
theorem ReadAs.regex {pattern : Pattern} {items : List Regex} (readAs : pattern.ReadAs items)
    (complete : List Regex) (before middle after : Text) :
    (pattern.read ⟨complete, []⟩).regex.Spans before middle after ↔
      pattern.Accepts middle ∨ ∃ regex ∈ complete, regex.Spans before middle after := by
  rw [readAs.read, List.append_nil, Frame.regex, Regex.spans_anyOf,
    readAs.describes before middle after]

theorem ReadAs.group {body : Pattern}
    (described : ∀ before middle after,
      (body.read {}).regex.Spans before middle after ↔ body.Accepts middle) :
    (Pattern.group body).ReadAs [(body.read {}).regex] where
  read _ := rfl
  describes before middle after := by
    rw [Regex.spans_singleton, described, Accepts]

/--
A pattern whose choices stand only in groups is read as items.
One whose choices stand on top as well is read as more alternatives.
-/
theorem readAs_of_grouped (pattern : Pattern) :
    (pattern.Grouped false → ∃ items, pattern.ReadAs items) ∧
      (pattern.Grouped true → ∀ complete before middle after,
        (pattern.read ⟨complete, []⟩).regex.Spans before middle after ↔
          pattern.Accepts middle ∨ ∃ regex ∈ complete, regex.Spans before middle after) := by
  induction pattern with
  | literal spelling =>
      exact ⟨fun _ => ⟨_, literal_readAs spelling⟩, fun _ => (literal_readAs spelling).regex⟩
  | leaf kind bound =>
      exact ⟨fun _ => ⟨_, leaf_readAs kind bound⟩, fun _ => (leaf_readAs kind bound).regex⟩
  | sequence first second inductionFirst inductionSecond =>
      have items (grouped : first.Grouped false ∧ second.Grouped false) :
          ∃ items, (Pattern.sequence first second).ReadAs items := by
        obtain ⟨earlier, readFirst⟩ := inductionFirst.1 grouped.1
        obtain ⟨later, readSecond⟩ := inductionSecond.1 grouped.2
        exact ⟨_, readFirst.sequence readSecond⟩
      exact ⟨items, fun grouped => (items grouped).choose_spec.regex⟩
  | choice first second inductionFirst inductionSecond =>
      refine ⟨fun grouped => absurd grouped.1 (by decide), ?_⟩
      intro grouped complete before middle after
      obtain ⟨items, readFirst⟩ := inductionFirst.1 grouped.2.1
      have later := inductionSecond.2 grouped.2.2 (Regex.concat items :: complete) before middle
        after
      rw [Pattern.read, readFirst.read, List.append_nil]
      refine later.trans ?_
      rw [List.exists_mem_cons_iff, readFirst.describes before middle after, Accepts, or_assoc,
        or_left_comm]
  | group body inductionBody =>
      have items (grouped : body.Grouped true) :
          (Pattern.group body).ReadAs [(body.read {}).regex] :=
        .group fun before middle after => by
          simpa using inductionBody.2 grouped [] before middle after
      exact ⟨fun grouped => ⟨_, items grouped⟩, fun grouped => (items grouped).regex⟩

/-- The written form of a pattern matches exactly the values that the pattern accepts. -/
theorem matches_anchored_iff {pattern : Pattern} (grouped : pattern.Grouped true) (value : Text) :
    (Regex.concat [.finish, (pattern.read {}).regex, .start]).Matches value ↔
      pattern.Accepts value := by
  have described := pattern.readAs_of_grouped.2 grouped [] [] value []
  simp only [List.not_mem_nil, false_and, exists_false, or_false] at described
  rw [← described]
  simp [Regex.Matches, Regex.concat, Regex.Spans]

end Pattern

end GedcomGrammar
