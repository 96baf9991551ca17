/-
This file proves that arguments are read in one way from left to right, and what comes of it.
-/

import GedcomGrammar.Proofs.CommandLine.Segments

namespace GedcomGrammar.CommandLine

namespace Segment

variable {segment other : Segment} {segments others : List Segment}
variable {front back rest last arguments : List Text}

/-- What the first argument of a segment does. -/
def role : Segment → Role
  | .output _ => .output
  | .pattern _ => .pattern
  | .check _ _ => .check
  | .quiet => .quiet
  | .input _ => .input

def operands : Segment → List Text
  | .output path => [path]
  | .pattern label => [label]
  | .check label value => [label, value]
  | .quiet => []
  | .input _ => []

/-- A segment is an argument of its role and the operands after it. -/
theorem Spelling.exists_cons (spelling : segment.Spelling front) :
    ∃ first, front = first :: segment.operands ∧ Role.ofArgument first = segment.role := by
  obtain ⟨output, pattern, check, quiet⟩ := Role.ofArgument_of_mem
  cases spelling with
  | output path known => exact ⟨_, rfl, output _ known⟩
  | pattern label known => exact ⟨_, rfl, pattern _ known⟩
  | check label value known => exact ⟨_, rfl, check _ known⟩
  | quiet known => exact ⟨_, rfl, quiet _ known⟩
  | input plain => exact ⟨_, rfl, Role.ofArgument_of_plain plain⟩

/-- Arguments that begin with a segment begin with no other one. -/
theorem Spelling.unique (spelling : segment.Spelling front) (spellingToo : other.Spelling back)
    (same : front ++ rest = back ++ last) : segment = other ∧ rest = last := by
  have sameRole : segment.role = other.role := by
    obtain ⟨first, rfl, plays⟩ := spelling.exists_cons
    obtain ⟨second, rfl, playsToo⟩ := spellingToo.exists_cons
    rw [← plays, ← playsToo, (List.cons.inj same).1]
  -- Of the pairs of spellings only those of one role are left.
  cases spelling <;> cases spellingToo <;> simp_all [role]

/-- No segment stands at the front of the arguments. -/
def Stops (arguments : List Text) : Prop :=
  ∀ segment front rest, Spelling segment front → arguments ≠ front ++ rest

theorem stops_nil : Stops [] := by
  intro segment front rest spelling empty
  obtain ⟨first, rfl, -⟩ := spelling.exists_cons
  exact absurd empty (by simp)

/-- How many operands an argument of a role has. -/
def arity : Role → Nat
  | .output => 1
  | .pattern => 1
  | .check => 2
  | .quiet => 0
  | .unknown => 0
  | .input => 0

theorem length_operands (segment : Segment) : segment.operands.length = arity segment.role := by
  cases segment <;> rfl

theorem Unfinished.exists_cons (unfinished : Unfinished arguments) :
    ∃ flag operands, arguments = flag :: operands ∧
      operands.length < arity (Role.ofArgument flag) := by
  obtain ⟨output, pattern, check, -⟩ := Role.ofArgument_of_mem
  rcases unfinished with ⟨flag, known, begins⟩ | ⟨flag, known, operands, few, begins⟩
  · refine ⟨flag, [], begins, ?_⟩
    rcases List.mem_append.mp known with isOutput | isPattern
    · simp [output flag isOutput, arity]
    · simp [pattern flag isPattern, arity]
  · exact ⟨flag, operands, begins, by rwa [check flag known]⟩

/-- An option whose operands are not all there is no segment. -/
theorem Unfinished.stops (unfinished : Unfinished arguments) : Stops arguments := by
  intro segment front rest spelling same
  obtain ⟨flag, few, rfl, short⟩ := unfinished.exists_cons
  obtain ⟨first, rfl, plays⟩ := spelling.exists_cons
  rw [List.cons_append, List.cons.injEq] at same
  obtain ⟨rfl, operands⟩ := same
  rw [plays, ← length_operands, operands, List.length_append] at short
  omega

/-- Arguments are read in one way only, up to where no segment follows. -/
theorem Spelled.unique (spelled : Spelled segments front) (spelledToo : Spelled others back)
    (same : front ++ rest = back ++ last) (stops : Stops rest) (stopsToo : Stops last) :
    segments = others ∧ rest = last := by
  induction spelled generalizing others back with
  | nil =>
      cases spelledToo with
      | nil => exact ⟨rfl, same⟩
      | cons spelling _ =>
          rw [List.nil_append, List.append_assoc] at same
          exact absurd same (stops _ _ _ spelling)
  | cons spelling _ inductionHypothesis =>
      cases spelledToo with
      | nil =>
          rw [List.nil_append, List.append_assoc] at same
          exact absurd same.symm (stopsToo _ _ _ spelling)
      | cons spellingToo later =>
          rw [List.append_assoc, List.append_assoc] at same
          obtain ⟨rfl, sameRest⟩ := spelling.unique spellingToo same
          obtain ⟨rfl, sameLast⟩ := inductionHypothesis later sameRest
          exact ⟨rfl, sameLast⟩

/-- The part of a request that a group of segments makes does not depend on other groups. -/
theorem filterMap_of_rearranged {Part : Type} {part? : Segment → Option Part} (group : Group)
    (about : ∀ segment, (part? segment).isSome → segment.group = group)
    (rearranged : Rearranged segments others) :
    segments.filterMap part? = others.filterMap part? := by
  have within (list : List Segment) :
      list.filterMap part? =
        (list.filter fun segment => segment.group = group).filterMap part? := by
    rw [List.filterMap_filter]
    congr 1
    funext segment
    cases found : part? segment with
    | none => simp
    | some part => simp [about segment (by simp [found])]
  rw [within segments, within others, rearranged group]

/-- Segments that are moved past those of other groups ask for the same. -/
theorem ofSegments_of_rearranged (rearranged : Rearranged segments others) :
    Request.ofSegments segments = Request.ofSegments others := by
  have inputs : segments.filterMap input? = others.filterMap input? := by
    apply filterMap_of_rearranged .inputs _ rearranged
    intro segment
    cases segment <;> simp [input?, group]
  have output : segments.filterMap output? = others.filterMap output? := by
    apply filterMap_of_rearranged .output _ rearranged
    intro segment
    cases segment <;> simp [output?, group]
  have mode : segments.filterMap mode? = others.filterMap mode? := by
    apply filterMap_of_rearranged .mode _ rearranged
    intro segment
    cases segment <;> simp [mode?, group]
  have quiet : segments.contains .quiet = others.contains .quiet := by
    have within (list : List Segment) : Segment.quiet ∈ list ↔
        Segment.quiet ∈ list.filter fun segment => segment.group = .quiet := by
      simp [List.mem_filter, group]
    rw [Bool.eq_iff_iff, List.contains_iff_mem, List.contains_iff_mem, within segments,
      within others, rearranged .quiet]
  rw [Request.ofSegments, Request.ofSegments, inputs, output, mode, quiet]

theorem inputs_ofSegments_eq_nil_iff :
    (Request.ofSegments segments).inputs = [] ↔ ∀ path, Segment.input path ∉ segments := by
  rw [Request.ofSegments, List.filterMap_eq_nil_iff]
  constructor
  · intro none path member
    exact absurd (none _ member) (by simp [input?])
  · intro none segment member
    cases segment with
    | input path => exact absurd member (none path)
    | _ => rfl

theorem inputs_ofSegments_ne_nil_iff :
    (Request.ofSegments segments).inputs ≠ [] ↔ ∃ path, Segment.input path ∈ segments := by
  rw [ne_eq, inputs_ofSegments_eq_nil_iff, not_forall]
  simp only [not_not]

theorem Dangling.not_halfCheck (dangling : Dangling arguments) : ¬HalfCheck arguments := by
  have apart : ∀ flag ∈ outputFlags ++ patternFlags, flag ∉ checkFlags := by decide +kernel
  obtain ⟨flag, known, rfl⟩ := dangling
  rintro ⟨check, knownToo, operands, -, same⟩
  obtain ⟨rfl, -⟩ := List.cons.inj same
  exact apart flag known knownToo

end Segment

variable {segments : List Segment} {arguments rest : List Text}

theorem Segment.Spelled.understood (spelled : Spelled segments arguments) :
    Understood arguments segments :=
  ⟨arguments, [], (List.append_nil arguments).symm, spelled, .inl rfl⟩

/-- A check without all its operands is refused, whatever stands in front of it. -/
theorem Request.ofArguments_of_halfCheck (reads : Segment.Reads arguments segments rest)
    (half : Segment.HalfCheck rest) : Request.ofArguments arguments = .error .usage := by
  obtain ⟨front, rfl, spelled⟩ := reads
  obtain ⟨flag, known, operands, few, rfl⟩ := half
  have refused (request : Request) : request.extend (flag :: operands) = .error .usage := by
    rw [extend.eq_def]
    simp only [Role.ofArgument_of_mem.2.2.1 flag known]
    match operands, few with
    | [], _ => rfl
    | [_], _ => rfl
  rw [ofArguments, extend_spelled {} spelled, refused]

/--
Segments with an input among them are understood as what they say.
They may be moved past those of other groups without a change in what is asked for.
-/
theorem ofArguments_of_spelled (spelled : Segment.Spelled segments arguments) :
    ((∃ path, Segment.input path ∈ segments) →
        Request.ofArguments arguments = .ok (.ofSegments segments)) ∧
      ∀ moved movedArguments, Segment.Spelled moved movedArguments →
        Segment.Rearranged segments moved →
          Request.ofArguments movedArguments = Request.ofArguments arguments := by
  have result := Request.ofArguments_of_understood spelled.understood
  constructor
  · intro named
    rw [result, if_neg (Segment.inputs_ofSegments_ne_nil_iff.mpr named)]
  · intro moved movedArguments spelledToo rearranged
    rw [result, Request.ofArguments_of_understood spelledToo.understood,
      Segment.ofSegments_of_rearranged rearranged]

/-- An output named like an option, two patterns, and the input and the quiet flag moved. -/
theorem ofArguments_of_twoPatterns :
    let segments : List Segment :=
      [.output "-c".toList, .pattern "A".toList, .pattern "B".toList, .quiet,
        .input "g.txt".toList]
    let moved : List Segment :=
      [.input "g.txt".toList, .quiet, .pattern "A".toList, .output "-c".toList,
        .pattern "B".toList]
    let arguments :=
      ["-o".toList, "-c".toList, "-p".toList, "A".toList, "--pattern".toList, "B".toList,
        "-q".toList, "g.txt".toList]
    let movedArguments :=
      ["g.txt".toList, "--quiet".toList, "-p".toList, "A".toList, "--output".toList, "-c".toList,
        "-p".toList, "B".toList]
    Segment.Spelled segments arguments ∧ Segment.Spelled moved movedArguments ∧
      Segment.Rearranged segments moved ∧
        Request.ofArguments arguments = .ok (.ofSegments segments) ∧
          Request.ofArguments movedArguments = Request.ofArguments arguments := by
  intro segments moved arguments movedArguments
  have spelled : Segment.Spelled segments arguments :=
    .cons (.output _ (by decide)) (.cons (.pattern _ (by decide))
      (.cons (.pattern _ (by decide)) (.cons (.quiet (by decide))
        (.cons (.input (by decide)) .nil))))
  have spelledToo : Segment.Spelled moved movedArguments :=
    .cons (.input (by decide)) (.cons (.quiet (by decide)) (.cons (.pattern _ (by decide))
      (.cons (.output _ (by decide)) (.cons (.pattern _ (by decide)) .nil))))
  have rearranged : Segment.Rearranged segments moved := by
    intro group
    cases group <;> rfl
  obtain ⟨understood, unmoved⟩ := ofArguments_of_spelled spelled
  exact ⟨spelled, spelledToo, rearranged, understood ⟨"g.txt".toList, by simp [segments]⟩,
    unmoved moved movedArguments spelledToo rearranged⟩

/--
Arguments that end inside an option are refused exactly if the option is a check or if no input
stands in front of it. Any other option at the end is passed over, so that accepted arguments are
complete segments unless they end with such an option.
-/
theorem refused_of_unfinished_iff (arguments : List Text) :
    (∀ segments rest, Segment.Reads arguments segments rest → Segment.Unfinished rest →
        (Request.ofArguments arguments = .error .usage ↔
          Segment.HalfCheck rest ∨ ∀ path, Segment.input path ∉ segments) ∧
        (Request.ofArguments arguments = .ok (.ofSegments segments) ↔
          Segment.Dangling rest ∧ ∃ path, Segment.input path ∈ segments)) ∧
      ∀ request, Request.ofArguments arguments = .ok request →
        ((∃ segments, Segment.Spelled segments arguments) ↔
          ∀ segments rest, Segment.Reads arguments segments rest → ¬Segment.Dangling rest) := by
  constructor
  · intro segments rest reads unfinished
    rw [← Segment.inputs_ofSegments_eq_nil_iff, ← Segment.inputs_ofSegments_ne_nil_iff]
    rcases unfinished with dangling | half
    · obtain ⟨front, same, spelled⟩ := reads
      rw [Request.ofArguments_of_understood ⟨front, rest, same, spelled, .inr dangling⟩]
      split
      · rename_i unnamed
        simp [unnamed]
      · rename_i named
        simp [named, dangling, dangling.not_halfCheck]
    · have whole : ¬Segment.Dangling rest := fun dangling => dangling.not_halfCheck half
      rw [Request.ofArguments_of_halfCheck reads half]
      simp [half, whole]
  · intro request accepted
    obtain ⟨-, segments, ⟨front, rest, same, spelled, ended⟩, -⟩ :=
      Request.ofArguments_eq_ok_iff.mp accepted
    constructor
    · rintro ⟨others, complete⟩ read last ⟨part, sameToo, spelledToo⟩ dangling
      rw [← List.append_nil arguments] at sameToo
      obtain ⟨-, rfl⟩ := complete.unique spelledToo sameToo Segment.stops_nil
        (Segment.Unfinished.stops (.inl dangling))
      obtain ⟨flag, -, empty⟩ := dangling
      exact absurd empty (by simp)
    · intro none
      rcases ended with rfl | dangling
      · rw [List.append_nil] at same
        exact ⟨segments, same ▸ spelled⟩
      · exact absurd dangling (none segments rest ⟨front, same, spelled⟩)

/-- A check that is missing its value, and a complete one whose value is named like an option. -/
theorem refused_of_valueless_check :
    let segments : List Segment := [.input "g.txt".toList]
    let rest := ["-c".toList, "X".toList]
    let complete := ["g.txt".toList, "-c".toList, "X".toList, "-p".toList]
    Segment.Reads ("g.txt".toList :: rest) segments rest ∧ Segment.Unfinished rest ∧
      Request.ofArguments ("g.txt".toList :: rest) = .error .usage ∧
        Request.ofArguments complete =
          .ok { inputs := ["g.txt".toList], mode := .check "X".toList "-p".toList } ∧
          ∀ segments rest, Segment.Reads complete segments rest → ¬Segment.Dangling rest := by
  intro segments rest complete
  have reads : Segment.Reads ("g.txt".toList :: rest) segments rest :=
    ⟨["g.txt".toList], rfl, .cons (.input (by decide)) .nil⟩
  have half : Segment.HalfCheck rest := ⟨_, by decide, ["X".toList], by decide, rfl⟩
  have accepted : Request.ofArguments complete =
      .ok { inputs := ["g.txt".toList], mode := .check "X".toList "-p".toList } := by
    decide +kernel
  have spelled : Segment.Spelled [.input "g.txt".toList, .check "X".toList "-p".toList] complete :=
    .cons (.input (by decide)) (.cons (.check _ _ (by decide)) .nil)
  obtain ⟨unfinished, -⟩ := refused_of_unfinished_iff ("g.txt".toList :: rest)
  obtain ⟨-, finished⟩ := refused_of_unfinished_iff complete
  exact ⟨reads, .inr half, (unfinished segments rest reads (.inr half)).1.mpr (.inl half), accepted,
    (finished _ accepted).mp ⟨_, spelled⟩⟩

/-- A pattern without its label leaves the request what it was without the option. -/
theorem pattern_without_label_accepted :
    let arguments := ["g.txt".toList, "-p".toList]
    Segment.Reads arguments [.input "g.txt".toList] ["-p".toList] ∧
      Segment.Unfinished ["-p".toList] ∧
        Request.ofArguments arguments = .ok { inputs := ["g.txt".toList], mode := .dump } :=
  ⟨⟨["g.txt".toList], rfl, .cons (.input (by decide)) .nil⟩,
    .inl ⟨_, by decide, rfl⟩, by decide +kernel⟩

end GedcomGrammar.CommandLine
