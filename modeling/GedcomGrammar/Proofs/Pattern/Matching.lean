/-
This file proves that matching by marks accepts exactly what a pattern describes.
-/

import GedcomGrammar.Pattern.Matching
import GedcomGrammar.Proofs.Pattern.Spans

namespace GedcomGrammar

namespace Leaf

/-- Only one character of a leaf can be doubled. -/
theorem eq_of_role_half {leaf : Leaf} {first second : Char} (firstHalf : leaf.role first = .half)
    (secondHalf : leaf.role second = .half) : first = second := by
  cases leaf with
  | text => exact (textRole_half_iff.mp firstHalf).trans (textRole_half_iff.mp secondHalf).symm
  | number | digit | null => exact absurd firstHalf (digitRole_ne_half first)

/-- A text goes on in units, so that with the steps taken before it stays within a bound. -/
def Continues (leaf : Leaf) (bound : Nat) (steps : Option Nat) (text : Text) : Prop :=
  ∃ taken ∈ steps, ∃ count, taken + count ≤ bound ∧ Units leaf count text

section Continues

variable {leaf : Leaf} {bound : Nat} {steps : Option Nat} {char : Char} {rest : Text}

theorem not_continues_none {text : Text} : ¬leaf.Continues bound none text := by
  simp [Continues]

theorem continues_nil_iff :
    leaf.Continues bound steps [] ↔ Pattern.withinBound bound steps = true := by
  have empty (count : Nat) : Units leaf count [] ↔ count = 0 := by
    constructor
    · rintro ⟨⟩
      rfl
    · rintro rfl
      exact .none
  cases steps <;> simp [Continues, Pattern.withinBound, empty]

theorem continues_zero_iff {text : Text} :
    leaf.Continues bound (some 0) text ↔ ∃ count, count ≤ bound ∧ Units leaf count text := by
  simp [Continues]

/-- Steps taken before leave less room. -/
theorem Continues.zero {text : Text} (continues : leaf.Continues bound steps text) :
    leaf.Continues bound (some 0) text := by
  obtain ⟨taken, -, count, within, units⟩ := continues
  exact continues_zero_iff.mpr ⟨count, by omega, units⟩

/-- A text of one unit and more continues one step later. -/
theorem continues_of_unit_iff {whole : Text}
    (unit : ∀ count, Units leaf count whole ↔ ∃ later, count = later + 1 ∧ Units leaf later rest) :
    leaf.Continues bound steps whole ↔ leaf.Continues bound (steps.map (· + 1)) rest := by
  cases steps with
  | none => exact iff_of_false not_continues_none not_continues_none
  | some taken =>
      simp only [Continues, unit, Option.map_some, Option.mem_def, Option.some.injEq,
        exists_eq_left']
      constructor
      · rintro ⟨_, within, later, rfl, units⟩
        exact ⟨later, by omega, units⟩
      · rintro ⟨later, within, units⟩
        exact ⟨later + 1, by omega, later, rfl, units⟩

theorem continues_whole_iff (role : leaf.role char = .whole) :
    leaf.Continues bound steps (char :: rest) ↔
      leaf.Continues bound (steps.map (· + 1)) rest := by
  apply continues_of_unit_iff
  intro count
  constructor
  · intro units
    cases units with
    | whole _ later => exact ⟨_, rfl, later⟩
    | doubled half _ => exact absurd (role.symm.trans half) (by decide)
  · rintro ⟨later, rfl, units⟩
    exact .whole role units

theorem continues_doubled_iff (role : leaf.role char = .half) :
    leaf.Continues bound steps (char :: char :: rest) ↔
      leaf.Continues bound (steps.map (· + 1)) rest := by
  apply continues_of_unit_iff
  intro count
  constructor
  · intro units
    cases units with
    | whole whole _ => exact absurd (role.symm.trans whole) (by decide)
    | doubled _ later => exact ⟨_, rfl, later⟩
  · rintro ⟨later, rfl, units⟩
    exact .doubled role units

theorem not_continues_outside (role : leaf.role char = .outside) :
    ¬leaf.Continues bound steps (char :: rest) := by
  rintro ⟨_, _, _, _, units⟩
  cases units with
  | whole whole _ => exact absurd (role.symm.trans whole) (by decide)
  | doubled half _ => exact absurd (role.symm.trans half) (by decide)

/-- A half goes on with its other half or not at all. -/
theorem not_continues_half (role : leaf.role char = .half) (other : rest.head? ≠ some char) :
    ¬leaf.Continues bound steps (char :: rest) := by
  rintro ⟨_, _, _, _, units⟩
  cases units with
  | whole whole _ => exact absurd (role.symm.trans whole) (by decide)
  | doubled _ _ => exact absurd rfl other

end Continues

end Leaf

namespace Pattern

/-- A place is marked. -/
def Marked (marks : Marks) (place : Nat) : Prop :=
  marks[place]? = some true

@[simp] theorem marked_cons_zero {mark : Bool} {marks : Marks} :
    Marked (mark :: marks) 0 ↔ mark = true := by
  simp [Marked]

@[simp] theorem marked_cons_succ {mark : Bool} {marks : Marks} {place : Nat} :
    Marked (mark :: marks) (place + 1) ↔ Marked marks place := by
  simp [Marked]

section Runs

variable {kind : Leaf} {bound : Nat}

theorem length_unitRun {fewest opened : Option Nat} {value : Text} {marks : Marks}
    (fits : marks.length = value.length + 1) :
    (unitRun kind bound fewest opened value marks).length = value.length + 1 := by
  induction value generalizing fewest opened marks with
  | nil =>
      obtain ⟨mark, rfl⟩ := List.length_eq_one_iff.mp fits
      rfl
  | cons char value inductionHypothesis =>
      obtain ⟨mark, marks, rfl⟩ := List.exists_cons_of_length_eq_add_one fits
      have shorter : marks.length = value.length + 1 := Nat.succ.inj fits
      rw [unitRun, List.length_cons, List.length_cons]
      split <;> rw [inductionHypothesis shorter]

/-- Units that begin at a mark end with the text. -/
def FromMark (kind : Leaf) (bound : Nat) (marks : Marks) (text : Text) : Prop :=
  ∃ left middle, text = left ++ middle ∧ middle ≠ [] ∧ Marked marks left.length ∧
    kind.Continues bound (some 0) middle

/-- Units that begin with an open half end with the text. -/
def FromHalf (kind : Leaf) (bound : Nat) (opened : Option Nat) (text : Text) : Prop :=
  ∃ half, kind.role half = .half ∧ kind.Continues bound opened (half :: text)

/-- Units lead to the end of a text from the fewest steps, from an open half or from a mark. -/
def Arrives (kind : Leaf) (bound : Nat) (fewest opened : Option Nat) (marks : Marks)
    (text : Text) : Prop :=
  kind.Continues bound fewest text ∨ FromHalf kind bound opened text ∨
    FromMark kind bound marks text

section Arrivals

variable {fewest opened : Option Nat} {mark : Bool} {marks : Marks} {char : Char} {text : Text}

theorem not_fromHalf_none : ¬FromHalf kind bound none text :=
  fun ⟨_, _, continues⟩ => Leaf.not_continues_none continues

/-- Another character breaks an open half. -/
theorem not_fromHalf_cons (other : kind.role char ≠ .half) :
    ¬FromHalf kind bound opened (char :: text) := by
  rintro ⟨half, role, continues⟩
  refine Leaf.not_continues_half role (fun same => ?_) continues
  exact other (Option.some.inj same ▸ role)

theorem fromHalf_iff (role : kind.role char = .half) :
    FromHalf kind bound opened text ↔ kind.Continues bound opened (char :: text) := by
  constructor
  · rintro ⟨half, roleHalf, continues⟩
    exact Leaf.eq_of_role_half roleHalf role ▸ continues
  · intro continues
    exact ⟨char, role, continues⟩

/-- The other half completes a unit. -/
theorem fromHalf_cons_iff (role : kind.role char = .half) :
    FromHalf kind bound opened (char :: text) ↔
      kind.Continues bound (opened.map (· + 1)) text := by
  rw [fromHalf_iff role, Leaf.continues_doubled_iff role]

theorem arrives_nil_iff :
    Arrives kind bound fewest opened marks [] ↔ withinBound bound fewest = true := by
  rw [Arrives, Leaf.continues_nil_iff, or_iff_left]
  rintro (⟨half, role, continues⟩ | ⟨left, middle, empty, nonempty, -⟩)
  · exact Leaf.not_continues_half role (by simp) continues
  · exact nonempty (List.append_eq_nil_iff.mp empty.symm).2

theorem fromMark_cons_iff :
    FromMark kind bound (mark :: marks) (char :: text) ↔
      (mark = true ∧ kind.Continues bound (some 0) (char :: text)) ∨
        FromMark kind bound marks text := by
  constructor
  · rintro ⟨left, middle, whole, nonempty, marked, continues⟩
    rcases List.cons_eq_append_iff.mp whole with ⟨rfl, rfl⟩ | ⟨left, rfl, rfl⟩
    · exact .inl ⟨marked_cons_zero.mp marked, continues⟩
    · exact .inr ⟨left, middle, rfl, nonempty, marked_cons_succ.mp marked, continues⟩
  · rintro (⟨marked, continues⟩ | ⟨left, middle, rfl, nonempty, marked, continues⟩)
    · exact ⟨[], _, rfl, List.cons_ne_nil _ _, marked_cons_zero.mpr marked, continues⟩
    · exact ⟨char :: left, middle, rfl, nonempty, marked_cons_succ.mpr marked, continues⟩

/-- A mark at the place itself is the best start from there. -/
theorem continues_best_iff :
    kind.Continues bound (if mark then some 0 else fewest) text ↔
      kind.Continues bound fewest text ∨ mark = true ∧ kind.Continues bound (some 0) text := by
  cases mark with
  | false => simp
  | true =>
      simp only [if_true, true_and]
      exact ⟨.inr, fun either => either.elim Leaf.Continues.zero id⟩

theorem arrives_cons_iff :
    Arrives kind bound fewest opened (mark :: marks) (char :: text) ↔
      kind.Continues bound (if mark then some 0 else fewest) (char :: text) ∨
        FromHalf kind bound opened (char :: text) ∨ FromMark kind bound marks text := by
  rw [Arrives, fromMark_cons_iff, continues_best_iff, or_assoc,
    or_left_comm (a := FromHalf kind bound opened (char :: text))]

theorem arrives_whole_iff (role : kind.role char = .whole) :
    Arrives kind bound fewest opened (mark :: marks) (char :: text) ↔
      Arrives kind bound ((if mark then some 0 else fewest).map (· + 1)) none marks text := by
  have broken := @not_fromHalf_cons kind bound opened char text (by simp [role])
  rw [arrives_cons_iff, Leaf.continues_whole_iff role, or_iff_right broken, Arrives,
    or_iff_right not_fromHalf_none]

theorem arrives_half_iff (role : kind.role char = .half) :
    Arrives kind bound fewest opened (mark :: marks) (char :: text) ↔
      Arrives kind bound (opened.map (· + 1)) (if mark then some 0 else fewest) marks text := by
  rw [arrives_cons_iff, fromHalf_cons_iff role, Arrives, fromHalf_iff role, or_left_comm]

theorem arrives_outside_iff (role : kind.role char = .outside) :
    Arrives kind bound fewest opened (mark :: marks) (char :: text) ↔
      Arrives kind bound none none marks text := by
  have broken := @not_fromHalf_cons kind bound opened char text (by simp [role])
  rw [arrives_cons_iff, or_iff_right (Leaf.not_continues_outside role), or_iff_right broken,
    Arrives, or_iff_right Leaf.not_continues_none, or_iff_right not_fromHalf_none]

end Arrivals

/-- The run marks a place exactly when units of the leaf arrive there. -/
theorem marked_unitRun_iff {fewest opened : Option Nat} {before after : Text} {marks : Marks}
    (fits : marks.length = (before ++ after).length + 1) :
    Marked (unitRun kind bound fewest opened (before ++ after) marks) before.length ↔
      Arrives kind bound fewest opened marks before := by
  induction before generalizing fewest opened marks with
  | nil =>
      obtain ⟨mark, marks, rfl⟩ := List.exists_cons_of_length_eq_add_one fits
      rw [arrives_nil_iff]
      cases after <;> exact marked_cons_zero
  | cons char before inductionHypothesis =>
      obtain ⟨mark, marks, rfl⟩ := List.exists_cons_of_length_eq_add_one fits
      have shorter : marks.length = (before ++ after).length + 1 := Nat.succ.inj fits
      rw [List.cons_append, unitRun, List.length_cons, marked_cons_succ]
      split
      · rename_i role
        rw [inductionHypothesis shorter, arrives_whole_iff role]
      · rename_i role
        rw [inductionHypothesis shorter, arrives_half_iff role]
      · rename_i role
        rw [inductionHypothesis shorter, arrives_outside_iff role]

end Runs

/-- The texts of a language lead from some marks in a value to others. -/
structure Leads (value : Text) (marks reached : Marks) (language : Text → Prop) : Prop where
  length : reached.length = value.length + 1
  marked : ∀ before after, value = before ++ after →
    (Marked reached before.length ↔
      ∃ left middle, before = left ++ middle ∧ Marked marks left.length ∧ language middle)

section Leads

variable {value : Text} {marks between reached : Marks} {first second : Text → Prop}

theorem Leads.of_iff (leads : Leads value marks reached first)
    (same : ∀ text, first text ↔ second text) : Leads value marks reached second := by
  rwa [← show first = second from funext fun text => propext (same text)]

theorem leads_refl (fits : marks.length = value.length + 1) :
    Leads value marks marks (· = []) where
  length := fits
  marked before after _ := by simp

theorem Leads.append (toMiddle : Leads value marks between first)
    (toEnd : Leads value between reached second) :
    Leads value marks reached fun text =>
      ∃ left right, text = left ++ right ∧ first left ∧ second right where
  length := toEnd.length
  marked before after whole := by
    rw [toEnd.marked before after whole]
    constructor
    · rintro ⟨front, right, rfl, marked, later⟩
      rw [List.append_assoc] at whole
      obtain ⟨start, left, rfl, marked, earlier⟩ :=
        (toMiddle.marked front (right ++ after) whole).mp marked
      exact ⟨start, left ++ right, List.append_assoc _ _ _, marked, left, right, rfl, earlier,
        later⟩
    · rintro ⟨start, _, rfl, marked, left, right, rfl, earlier, later⟩
      refine ⟨start ++ left, right, (List.append_assoc _ _ _).symm, ?_, later⟩
      have whole : value = start ++ left ++ (right ++ after) := by simpa using whole
      exact (toMiddle.marked _ _ whole).mpr ⟨start, left, rfl, marked, earlier⟩

/-- Either of two ways leads to the marks of both. -/
theorem Leads.either (left : Leads value marks between first)
    (right : Leads value marks reached second) :
    Leads value marks (List.zipWith or between reached) fun text => first text ∨ second text where
  length := by rw [List.length_zipWith, left.length, right.length, Nat.min_self]
  marked before after whole := by
    have inside : before.length < value.length + 1 := by
      rw [whole, List.length_append]
      omega
    have either : Marked (List.zipWith or between reached) before.length ↔
        Marked between before.length ∨ Marked reached before.length := by
      have leftInside := left.length ▸ inside
      have rightInside := right.length ▸ inside
      simp [Marked, leftInside, rightInside]
    rw [either, left.marked before after whole, right.marked before after whole]
    simp only [← exists_or, ← and_or_left]

theorem leads_shift (fits : marks.length = value.length + 1) (accepted : Char → Bool) :
    Leads value marks (shift accepted value marks) fun text =>
      ∃ char, text = [char] ∧ accepted char = true where
  length := by
    rw [shift, List.length_cons, List.length_zipWith, fits]
    omega
  marked before after whole := by
    rw [shift]
    rcases List.eq_nil_or_concat before with rfl | ⟨front, char, rfl⟩
    · simp
    · have here : value[front.length]? = some char := by
        rw [whole]
        simp
      have step : Marked (List.zipWith (fun mark char => mark && accepted char) marks value)
          front.length ↔ Marked marks front.length ∧ accepted char = true := by
        rw [Marked, Marked, List.getElem?_zipWith, here]
        cases marks[front.length]? <;> simp
      rw [List.concat_eq_append, List.length_append, List.length_singleton, marked_cons_succ, step]
      constructor
      · rintro ⟨marked, holds⟩
        exact ⟨front, [char], rfl, marked, char, rfl, holds⟩
      · rintro ⟨left, _, same, marked, other, rfl, holds⟩
        obtain ⟨rfl, rfl⟩ := List.append_singleton_inj.mp same
        exact ⟨marked, holds⟩

end Leads

variable {value : Text} {marks : Marks}

/-- The characters of a literal are accepted one after another. -/
theorem leads_literal (fits : marks.length = value.length + 1) (spelling : Text) :
    Leads value marks ((Pattern.literal spelling).advance value marks) (· = spelling) := by
  induction spelling generalizing marks with
  | nil => exact leads_refl fits
  | cons char rest inductionHypothesis =>
      have first := leads_shift fits (· == char)
      have later := inductionHypothesis first.length
      refine (first.append later).of_iff fun text => ?_
      simp

/-- The units of a leaf that its run takes are those that its values have. -/
theorem leads_unitRun (fits : marks.length = value.length + 1) (kind : Leaf) (bound : Nat) :
    Leads value marks (unitRun kind bound none none value marks) fun text =>
      ∃ count, 1 ≤ count ∧ count ≤ bound ∧ Leaf.Units kind count text where
  length := length_unitRun fits
  marked before after whole := by
    subst whole
    rw [marked_unitRun_iff fits, Arrives, or_iff_right Leaf.not_continues_none,
      or_iff_right not_fromHalf_none, FromMark]
    have counted (text : Text) : text ≠ [] ∧ kind.Continues bound (some 0) text ↔
        ∃ count, 1 ≤ count ∧ count ≤ bound ∧ Leaf.Units kind count text := by
      rw [Leaf.continues_zero_iff]
      constructor
      · rintro ⟨nonempty, count, within, units⟩
        refine ⟨count, ?_, within, units⟩
        cases units with
        | none => exact absurd rfl nonempty
        | whole | doubled => exact Nat.succ_le_succ (Nat.zero_le _)
      · rintro ⟨count, positive, within, units⟩
        refine ⟨?_, count, within, units⟩
        rintro rfl
        cases units
        exact absurd positive (Nat.not_succ_le_zero 0)
    refine exists₂_congr fun left middle => and_congr_right fun _ => ?_
    rw [← counted, and_left_comm]

theorem leads_leaf (fits : marks.length = value.length + 1) (kind : Leaf) (bound : Nat) :
    Leads value marks ((Pattern.leaf kind bound).advance value marks) (kind.Accepts bound) := by
  cases kind with
  | text => exact leads_unitRun fits .text (room bound)
  | number => exact leads_unitRun fits .number (room bound)
  | digit =>
      refine (leads_unitRun fits .digit 1).of_iff fun text => ?_
      constructor
      · rintro ⟨count, least, most, units⟩
        obtain rfl := Nat.le_antisymm most least
        exact units
      · intro units
        exact ⟨1, le_rfl, le_rfl, units⟩
  | null => exact leads_refl fits

/-- A pattern leads over the texts that it describes. -/
theorem leads_advance (fits : marks.length = value.length + 1) (pattern : Pattern) :
    Leads value marks (pattern.advance value marks) pattern.Accepts := by
  induction pattern generalizing marks with
  | literal spelling => exact leads_literal fits spelling
  | leaf kind bound => exact leads_leaf fits kind bound
  | sequence first second inductionFirst inductionSecond =>
      have toMiddle := inductionFirst fits
      exact toMiddle.append (inductionSecond toMiddle.length)
  | choice first second inductionFirst inductionSecond =>
      exact (inductionFirst fits).either (inductionSecond fits)
  | group body inductionBody => exact inductionBody fits

/-- Matching accepts a value exactly when the pattern describes it. -/
theorem accepts_iff {pattern : Pattern} : pattern.accepts value = true ↔ pattern.Accepts value := by
  let marks : Marks := true :: value.map fun _ => false
  have atStart (left : Text) : Marked marks left.length ↔ left = [] := by
    cases left with
    | nil => exact iff_of_true (marked_cons_zero.mpr rfl) rfl
    | cons char left =>
        refine iff_of_false (fun marked => ?_) (List.cons_ne_nil char left)
        simp [marks, Marked, List.getElem?_replicate] at marked
  have leads := leads_advance (show marks.length = value.length + 1 by simp [marks]) pattern
  have last : pattern.accepts value = true ↔ Marked (pattern.advance value marks) value.length := by
    rw [accepts, List.getLast?_eq_getElem?, leads.length, Nat.add_sub_cancel, Marked]
    cases (pattern.advance value marks)[value.length]? <;> simp
  rw [last, leads.marked value [] (List.append_nil value).symm]
  simp [atStart]

end Pattern

end GedcomGrammar
