/-
This file proves that accepted arguments are a sequence of options and inputs.
-/

import GedcomGrammar.CommandLine.Segment
import GedcomGrammar.Proofs.Results

namespace GedcomGrammar.CommandLine

/-- How an argument is spelled that plays a role. -/
def Role.Spells (argument : Text) : Role → Prop
  | .output => argument ∈ Segment.outputFlags
  | .pattern => argument ∈ Segment.patternFlags
  | .check => argument ∈ Segment.checkFlags
  | .quiet => argument ∈ Segment.quietFlags
  | .unknown => argument.head? = some '-'
  | .input => argument.head? ≠ some '-'

theorem Role.spells_of_ofArgument {argument : Text} {role : Role}
    (plays : Role.ofArgument argument = role) : role.Spells argument := by
  rw [← plays]
  unfold Role.ofArgument
  split_ifs with output pattern check quiet dashed
  · simpa [Spells, Segment.outputFlags] using output
  · simpa [Spells, Segment.patternFlags] using pattern
  · simpa [Spells, Segment.checkFlags] using check
  · simpa [Spells, Segment.quietFlags] using quiet
  · exact dashed
  · exact dashed

/-- What one more segment adds to a request. -/
def Request.add (request : Request) : Segment → Request
  | .output path => { request with output := some path }
  | .pattern label => { request with mode := .pattern label }
  | .check label value => { request with mode := .check label value }
  | .quiet => { request with quiet := true }
  | .input path => { request with inputs := request.inputs ++ [path] }

/-- Segments that are added one by one override what was asked before. -/
theorem Request.foldl_add (segments : List Segment) :
    segments.foldl Request.add {} = .ofSegments segments := by
  induction segments using List.reverseRecOn with
  | nil => rfl
  | append_singleton front last inductionHypothesis =>
      rw [List.foldl_append, inductionHypothesis]
      cases last <;>
        simp [ofSegments, add, Segment.input?, Segment.output?, Segment.mode?]

/-- The segments of some arguments, and the request that they make of another one. -/
def Request.Leads (request : Request) (arguments : List Text) (result : Request) : Prop :=
  ∃ segments, Understood arguments segments ∧ segments.foldl Request.add request = result

theorem Request.leads_nil (request : Request) : request.Leads [] request :=
  ⟨[], ⟨[], [], rfl, .nil, .inl rfl⟩, rfl⟩

/-- An option without its operand asks for nothing. -/
theorem Request.leads_dangling (request : Request) {flag : Text}
    (known : flag ∈ Segment.outputFlags ++ Segment.patternFlags) : request.Leads [flag] request :=
  ⟨[], ⟨[], [flag], rfl, .nil, .inr ⟨flag, known, rfl⟩⟩, rfl⟩

theorem Request.Leads.cons {request result : Request} {segment : Segment} {front rest : List Text}
    (spelling : segment.Spelling front) (later : (request.add segment).Leads rest result) :
    request.Leads (front ++ rest) result := by
  obtain ⟨segments, ⟨middle, final, rfl, spelled, ended⟩, added⟩ := later
  refine ⟨segment :: segments, ⟨front ++ middle, final, ?_, .cons spelling spelled, ended⟩, added⟩
  rw [List.append_assoc]

/-- Arguments that are accepted are segments, possibly before an option without its operand. -/
theorem Request.leads_of_extend {request result : Request} {arguments : List Text}
    (read : request.extend arguments = .ok result) : request.Leads arguments result := by
  fun_induction Request.extend request arguments with
  | case1 => exact Except.ok.inj read ▸ leads_nil _
  | case2 request flag role =>
      have known : flag ∈ Segment.outputFlags := Role.spells_of_ofArgument role
      exact Except.ok.inj read ▸ leads_dangling _ (List.mem_append_left _ known)
  | case3 request flag role path rest inductionHypothesis =>
      exact .cons (.output path (Role.spells_of_ofArgument role)) (inductionHypothesis read)
  | case4 request flag role =>
      have known : flag ∈ Segment.patternFlags := Role.spells_of_ofArgument role
      exact Except.ok.inj read ▸ leads_dangling _ (List.mem_append_right _ known)
  | case5 request flag role label rest inductionHypothesis =>
      exact .cons (.pattern label (Role.spells_of_ofArgument role)) (inductionHypothesis read)
  | case6 request flag role label value rest inductionHypothesis =>
      exact .cons (.check label value (Role.spells_of_ofArgument role)) (inductionHypothesis read)
  | case7 => exact absurd read (by simp)
  | case8 request flag rest role inductionHypothesis =>
      exact .cons (.quiet (Role.spells_of_ofArgument role)) (inductionHypothesis read)
  | case9 => exact absurd read (by simp)
  | case10 request path rest role inductionHypothesis =>
      exact .cons (.input (Role.spells_of_ofArgument role)) (inductionHypothesis read)

/-- Each option is recognised in both of its spellings. -/
theorem Role.ofArgument_of_mem :
    (∀ flag ∈ Segment.outputFlags, ofArgument flag = .output) ∧
      (∀ flag ∈ Segment.patternFlags, ofArgument flag = .pattern) ∧
      (∀ flag ∈ Segment.checkFlags, ofArgument flag = .check) ∧
      ∀ flag ∈ Segment.quietFlags, ofArgument flag = .quiet := by
  decide +kernel

/-- Whatever is not an input starts with a dash. -/
theorem Role.Spells.dashed {argument : Text} {role : Role} (spells : role.Spells argument)
    (option : role ≠ .input) : argument.head? = some '-' := by
  have known : ∀ flag ∈ Segment.outputFlags ++ Segment.patternFlags ++ Segment.checkFlags ++
      Segment.quietFlags, flag.head? = some '-' := by decide +kernel
  simp only [List.mem_append] at known
  cases role with
  | output => exact known argument (.inl (.inl (.inl spells)))
  | pattern => exact known argument (.inl (.inl (.inr spells)))
  | check => exact known argument (.inl (.inr spells))
  | quiet => exact known argument (.inr spells)
  | unknown => exact spells
  | input => exact absurd rfl option

/-- An argument without a dash at its start is none of the options. -/
theorem Role.ofArgument_of_plain {path : Text} (plain : path.head? ≠ some '-') :
    ofArgument path = .input := by
  by_contra option
  exact plain ((spells_of_ofArgument rfl).dashed option)

/-- Arguments that spell a segment add it to the request. -/
theorem Request.extend_spelling (request : Request) {segment : Segment} {front : List Text}
    (spelling : segment.Spelling front) (rest : List Text) :
    request.extend (front ++ rest) = (request.add segment).extend rest := by
  obtain ⟨output, pattern, check, quiet⟩ := Role.ofArgument_of_mem
  cases spelling with
  | output path known => simp [extend, add, output _ known]
  | pattern label known => simp [extend, add, pattern _ known]
  | check label value known => simp [extend, add, check _ known]
  | quiet known => rw [List.singleton_append, extend.eq_def]; simp [add, quiet _ known]
  | input plain =>
      rw [List.singleton_append, extend.eq_def]
      simp [add, Role.ofArgument_of_plain plain]

/-- Arguments that spell segments add them to the request one by one. -/
theorem Request.extend_spelled (request : Request) {segments : List Segment} {front : List Text}
    (spelled : Segment.Spelled segments front) (rest : List Text) :
    request.extend (front ++ rest) = (segments.foldl Request.add request).extend rest := by
  induction spelled generalizing request with
  | nil => rfl
  | cons spelling _ inductionHypothesis =>
      rw [List.append_assoc, extend_spelling request spelling, inductionHypothesis,
        List.foldl_cons]

/-- Segments are always accepted, and an option without its operand changes nothing after them. -/
theorem Request.extend_understood (request : Request) {segments : List Segment}
    {arguments : List Text} (understood : Understood arguments segments) :
    request.extend arguments = .ok (segments.foldl Request.add request) := by
  obtain ⟨front, rest, rfl, spelled, ended⟩ := understood
  rw [extend_spelled request spelled]
  rcases ended with rfl | ⟨flag, known, rfl⟩
  · rfl
  · rcases List.mem_append.mp known with output | pattern
    · simp [extend, Role.ofArgument_of_mem.1 _ output]
    · simp [extend, Role.ofArgument_of_mem.2.1 _ pattern]

/-- Arguments that are understood ask for what their segments say, or for no input. -/
theorem Request.ofArguments_of_understood {segments : List Segment} {arguments : List Text}
    (understood : Understood arguments segments) :
    Request.ofArguments arguments =
      if (Request.ofSegments segments).inputs = [] then .error .usage
      else .ok (.ofSegments segments) := by
  rw [ofArguments, extend_understood {} understood, foldl_add]

/-- Accepted arguments are those that split into segments, of which one is an input at least. -/
theorem Request.ofArguments_eq_ok_iff {arguments : List Text} {request : Request} :
    Request.ofArguments arguments = .ok request ↔
      request.inputs ≠ [] ∧
        ∃ segments, Understood arguments segments ∧ request = .ofSegments segments := by
  constructor
  · intro read
    unfold Request.ofArguments at read
    split at read
    · exact absurd read (by simp)
    · rename_i result extended
      split at read
      · exact absurd read (by simp)
      · rename_i nonempty
        obtain ⟨segments, understood, added⟩ := leads_of_extend extended
        rw [foldl_add] at added
        rw [← Except.ok.inj read]
        exact ⟨nonempty, segments, understood, added.symm⟩
  · rintro ⟨nonempty, segments, understood, rfl⟩
    rw [ofArguments_of_understood understood, if_neg nonempty]

/-- The second output overrides the first one, and the pattern is missing its label. -/
example : Request.ofArguments ["a".toList, "-o".toList, "x".toList, "-o".toList, "y".toList,
    "-p".toList] = .ok { inputs := ["a".toList], output := some "y".toList } := by
  decide +kernel

end GedcomGrammar.CommandLine
