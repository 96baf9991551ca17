/-
This file proves which file a run of the program changes, and what it prints.
-/

import GedcomGrammar.Proofs.CommandLine.FileTree
import GedcomGrammar.Proofs.CommandLine.Loading
import GedcomGrammar.Proofs.CommandLine.Segments

namespace GedcomGrammar.CommandLine

variable {compiler : Regex.Compiler} {tree after : FileTree} {exit : Exit}

/-- A grammar is printed, saved to its file, or neither when the system refuses the file. -/
theorem ends_dump {schema : Schema} {output : Option Text}
    (ends : (dump schema output).Ends tree exit after) :
    (output = none ∧ exit = { code := 0, output := schema.text ++ ['\n'] } ∧ after = tree) ∨
      ∃ path, output = some path ∧
        (exit = { code := 0 } ∧ tree.Saves path (schema.text ++ ['\n']) after ∨
          exit.code = 1 ∧ exit.output = [] ∧ after = tree) := by
  cases output with
  | none =>
      obtain ⟨rfl, rfl⟩ := Script.ends_done_iff.mp ends
      exact .inl ⟨rfl, rfl, rfl⟩
  | some path =>
      refine .inr ⟨path, rfl, ?_⟩
      cases ends with
      | write ends =>
          obtain ⟨saves, unchanged⟩ := tree.write_saves path (schema.text ++ ['\n'])
          cases failed : (tree.write path (schema.text ++ ['\n'])).1 with
          | none =>
              rw [failed] at ends
              obtain ⟨rfl, rfl⟩ := Script.ends_done_iff.mp ends
              exact .inl ⟨rfl, saves failed⟩
          | some error =>
              rw [failed] at ends
              obtain ⟨rfl, rfl⟩ := Script.ends_done_iff.mp ends
              exact .inr ⟨rfl, rfl, unchanged error failed⟩
      | refused error ends =>
          obtain ⟨rfl, rfl⟩ := Script.ends_done_iff.mp ends
          exact .inr ⟨rfl, rfl, rfl⟩

/-- No pattern is printed where one cannot be made. -/
theorem output_printPattern (schema : Schema) (label : Text) :
    (printPattern schema label).code ≠ 0 → (printPattern schema label).output = [] := by
  unfold printPattern
  cases schema.primitive? label with
  | none => exact fun _ => rfl
  | some primitive =>
      dsimp only
      cases schema.pattern primitive none with
      | error error => exact fun _ => rfl
      | ok pattern => exact fun failed => absurd rfl failed

/-- No verdict is printed where a value is not accepted. -/
theorem output_check (compiler : Regex.Compiler) (schema : Schema) (label value : Text) :
    (check compiler schema label value).code ≠ 0 →
      (check compiler schema label value).output = [] := by
  unfold check
  cases schema.primitive? label with
  | none => exact fun _ => rfl
  | some primitive =>
      dsimp only
      rcases schema.validate compiler primitive value with error | (- | definition)
      · exact fun _ => rfl
      · exact fun failed => absurd rfl failed
      · exact fun failed => absurd rfl failed

/-- Every service but a dump is over at once, and prints nothing if it fails. -/
theorem exists_serve_of_ne_dump {schema : Schema} {request : Request}
    (other : request.mode ≠ .dump) :
    ∃ served, serve compiler schema request = .done served ∧
      (served.code ≠ 0 → served.output = []) := by
  unfold serve
  split
  · rename_i dumps
    exact absurd dumps other
  · exact ⟨_, rfl, output_printPattern schema _⟩
  · exact ⟨_, rfl, output_check compiler schema _ _⟩

/-- A run saves the grammar of its inputs, or it changes no file. -/
theorem saves_or_unchanged {program : Text} {arguments : List Text}
    (ends : (script compiler program arguments).Ends tree exit after) :
    (∃ request schema path, Request.ofArguments arguments = .ok request ∧
        tree.Loads request.inputs schema ∧ request.mode = .dump ∧ request.output = some path ∧
        exit = { code := 0 } ∧ tree.Saves path (schema.text ++ ['\n']) after) ∨
      after = tree ∧ (exit.code ≠ 0 → exit.output = []) := by
  rcases served_or_failed ends with ⟨request, schema, parsed, loads⟩ | ⟨-, silent, unchanged⟩
  · have serves := ends_serve parsed loads ends
    by_cases dumps : request.mode = .dump
    · rw [serve, dumps] at serves
      rcases ends_dump serves with
        ⟨-, rfl, unchanged⟩ | ⟨path, output, ⟨finished, saves⟩ | ⟨-, silent, unchanged⟩⟩
      · exact .inr ⟨unchanged, fun failed => absurd rfl failed⟩
      · exact .inl ⟨request, schema, path, parsed, loads, dumps, output, finished, saves⟩
      · exact .inr ⟨unchanged, fun _ => silent⟩
    · obtain ⟨served, only, silent⟩ := exists_serve_of_ne_dump dumps
      rw [only] at serves
      obtain ⟨rfl, unchanged⟩ := Script.ends_done_iff.mp serves
      exact .inr ⟨unchanged, silent⟩
  · exact .inr ⟨unchanged, fun _ => silent⟩

/-- What a run does besides printing errors. -/
structure Effects (arguments : List Text) (tree : FileTree) (exit : Exit) (after : FileTree) :
    Prop where
  /-- A failed run leaves nothing behind. -/
  failed : exit.code ≠ 0 → after = tree ∧ exit.output = []
  /-- Only a run that saves its grammar changes files. -/
  changed : after ≠ tree → ∃ request schema path,
    Request.ofArguments arguments = .ok request ∧ tree.Loads request.inputs schema ∧
      request.mode = .dump ∧ request.output = some path ∧
      exit = { code := 0 } ∧ tree.Saves path (schema.text ++ ['\n']) after
  /-- A grammar goes to its file or, for lack of one, to the output. -/
  dumped : ∀ request schema, Request.ofArguments arguments = .ok request →
    tree.Loads request.inputs schema → request.mode = .dump →
      match request.output with
      | none => exit = { code := 0, output := schema.text ++ ['\n'] } ∧ after = tree
      | some path => exit.output = [] ∧
          (exit.code = 0 → tree.Saves path (schema.text ++ ['\n']) after)
  /-- All inputs count, and the last of the outputs. -/
  asked : ∀ request, Request.ofArguments arguments = .ok request →
    ∃ segments, Understood arguments segments ∧ request = .ofSegments segments

/-- The effects of every run, also of one that is refused its output file. -/
theorem effects_of_ends {program : Text} {arguments : List Text}
    (ends : (script compiler program arguments).Ends tree exit after) :
    Effects arguments tree exit after := by
  constructor
  · intro failed
    rcases saves_or_unchanged ends with ⟨_, _, _, -, -, -, -, rfl, -⟩ | ⟨unchanged, silent⟩
    · exact absurd rfl failed
    · exact ⟨unchanged, silent failed⟩
  · intro changed
    rcases saves_or_unchanged ends with saves | ⟨unchanged, -⟩
    · exact saves
    · exact absurd unchanged changed
  · intro request schema parsed loads dumps
    have serves := ends_serve parsed loads ends
    rw [serve, dumps] at serves
    rcases ends_dump serves with
      ⟨output, finished, unchanged⟩ | ⟨path, output, ⟨rfl, saves⟩ | ⟨code, silent, -⟩⟩
    · rw [output]
      exact ⟨finished, unchanged⟩
    · rw [output]
      exact ⟨rfl, fun _ => saves⟩
    · rw [output]
      exact ⟨silent, fun finished => absurd finished (by simp [code])⟩
  · intro request parsed
    exact (Request.ofArguments_eq_ok_iff.mp parsed).2

/-- A directory with one grammar. -/
def grammarTree : FileTree :=
  .ofNodes [(["g.txt".toList], .text "A {ADDR}:=\n\n".toList)]

/-- The same directory with the grammar of a dump. -/
def dumpedTree : FileTree :=
  grammarTree.put [[], "out.txt".toList] (.text "A {ADDR}:=\n".toList)

theorem effects_dumpedTree :
    (script .unlimited [] ["g.txt".toList, "-o".toList, "out.txt".toList]).Ends grammarTree
        { code := 0 } dumpedTree ∧
      Effects ["g.txt".toList, "-o".toList, "out.txt".toList] grammarTree { code := 0 }
        dumpedTree := by
  have run :
      (script .unlimited [] ["g.txt".toList, "-o".toList, "out.txt".toList]).run grammarTree =
        ({ code := 0 }, dumpedTree) := by decide +kernel
  have ends := Script.ends_run
    (script .unlimited [] ["g.txt".toList, "-o".toList, "out.txt".toList]) grammarTree
  rw [run] at ends
  exact ⟨ends, effects_of_ends ends⟩

end GedcomGrammar.CommandLine
