/-
This file proves with which code a run ends that makes a pattern or checks a value.
-/

import GedcomGrammar.Proofs.CommandLine.Loading

namespace GedcomGrammar

/-- The code that tells a value that is not allowed from a fault of the grammar. -/
def Verdict.code : Verdict → Nat
  | .ok _ => 0
  | .error (.pattern _) => 1
  | .error _ => 2

namespace CommandLine

variable {compiler : Regex.Compiler} {schema : Schema} {label : Text} {primitive : Primitive}

/-- A declared primitive has a pattern, or its fault is reported. -/
theorem code_printPattern (declared : schema.primitive? label = some primitive) :
    ((printPattern schema label).code = 0 ↔
        ∃ pattern, schema.pattern primitive none = .ok pattern) ∧
      ((printPattern schema label).code = 1 ↔
        ∃ fault, schema.pattern primitive none = .error fault) := by
  rw [printPattern, declared]
  dsimp only
  cases schema.pattern primitive none with
  | error fault => simp [failure]
  | ok pattern => simp

/-- A check ends with the code of an invalid value whatever it was that kept it from accepting. -/
theorem code_check (declared : schema.primitive? label = some primitive) (value : Text) :
    ((check compiler schema label value).code = 0 ↔
        ∃ accepted, schema.validate compiler primitive value = .ok accepted) ∧
      ((check compiler schema label value).code = 2 ↔
        ∃ error, schema.validate compiler primitive value = .error error) ∧
      ((check compiler schema label value).code =
          (schema.validate compiler primitive value).code ↔
        ∀ fault, schema.validate compiler primitive value ≠ .error (.pattern fault)) := by
  rw [check, declared]
  dsimp only
  rcases schema.validate compiler primitive value with error | (- | definition)
  · cases error <;> simp [failure, Verdict.code]
  · simp [Verdict.code]
  · simp [Verdict.code]

/--
What the code of a run tells about a declared primitive.
A fault of its pattern is a failure of its own when the pattern is asked for.
A check that meets a fault ends like one of a value that is not allowed.
-/
theorem code_of_ends {program : Text} {arguments : List Text} {request : Request}
    {tree after : FileTree} {exit : Exit}
    (parsed : Request.ofArguments arguments = .ok request)
    (loads : tree.Loads request.inputs schema)
    (declared : schema.primitive? label = some primitive)
    (ends : (script compiler program arguments).Ends tree exit after) :
    (∀ value, request.mode = .check label value →
        (exit.code = 0 ↔ ∃ accepted, schema.validate compiler primitive value = .ok accepted) ∧
          (exit.code = 2 ↔ ∃ error, schema.validate compiler primitive value = .error error) ∧
          (exit.code = (schema.validate compiler primitive value).code ↔
            ∀ fault, schema.validate compiler primitive value ≠ .error (.pattern fault))) ∧
      (request.mode = .pattern label →
        (exit.code = 0 ↔ ∃ pattern, schema.pattern primitive none = .ok pattern) ∧
          (exit.code = 1 ↔ ∃ fault, schema.pattern primitive none = .error fault)) := by
  have serves := ends_serve parsed loads ends
  constructor
  · intro value mode
    rw [serve, mode] at serves
    obtain ⟨rfl, -⟩ := Script.ends_done_iff.mp serves
    exact code_check declared value
  · intro mode
    rw [serve, mode] at serves
    obtain ⟨rfl, -⟩ := Script.ends_done_iff.mp serves
    exact code_printPattern declared

/-- The second alternative refers to a primitive that is not declared. -/
def faultyPrimitive : Primitive :=
  { label := ['A'], sizeMin := 1, sizeMax := 9, alternatives := .ofText "7|<B>".toList }

def faultySchema : Schema := { elements := [.primitive faultyPrimitive] }

def faultyTree : FileTree :=
  .ofNodes [(["g.txt".toList], .text (faultySchema.text ++ ['\n']))]

theorem loads_faultyTree : faultyTree.Loads ["g.txt".toList] faultySchema :=
  ⟨[faultySchema.text ++ ['\n']], .cons (by decide +kernel) .nil, by decide +kernel⟩

/-- A value is accepted by an alternative before the faulty one, and is told from invalid ones. -/
theorem code_of_accepted :
    faultyTree.Loads ["g.txt".toList] faultySchema ∧
      faultySchema.primitive? ['A'] = some faultyPrimitive ∧
      faultySchema.validate .unlimited faultyPrimitive ['7'] = .ok (some ['7']) ∧
      ((script .unlimited [] ["g.txt".toList, "-c".toList, ['A'], ['7']]).run faultyTree).1.code =
        0 := by
  have parsed : Request.ofArguments ["g.txt".toList, "-c".toList, ['A'], ['7']] =
      .ok { inputs := ["g.txt".toList], mode := .check ['A'] ['7'] } := by decide +kernel
  have declared : faultySchema.primitive? ['A'] = some faultyPrimitive := by decide +kernel
  have accepted : faultySchema.validate .unlimited faultyPrimitive ['7'] = .ok (some ['7']) := by
    decide +kernel
  obtain ⟨checks, -⟩ := code_of_ends parsed loads_faultyTree declared (Script.ends_run _ _)
  exact ⟨loads_faultyTree, declared, accepted, (checks _ rfl).1.mpr ⟨_, accepted⟩⟩

/-- One fault of the grammar, met by a check and by a request for the pattern. -/
theorem code_of_fault :
    faultyTree.Loads ["g.txt".toList] faultySchema ∧
      faultySchema.primitive? ['A'] = some faultyPrimitive ∧
      faultySchema.validate .unlimited faultyPrimitive ['x'] =
        .error (.pattern (.unknownPrimitive ['B'])) ∧
      ((script .unlimited [] ["g.txt".toList, "-c".toList, ['A'], ['x']]).run faultyTree).1.code =
        2 ∧
      ((script .unlimited [] ["g.txt".toList, "-p".toList, ['A']]).run faultyTree).1.code = 1 :=
  ⟨loads_faultyTree, by decide +kernel, by decide +kernel, by decide +kernel, by decide +kernel⟩

end CommandLine

end GedcomGrammar
