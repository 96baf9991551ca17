/-
This file proves that loading files leaves them alone and gives the schema of their texts.
-/

import GedcomGrammar.CommandLine.Outcome
import GedcomGrammar.Proofs.Schema.Union

namespace GedcomGrammar.CommandLine

variable {tree after : FileTree}

namespace Script

variable {First Second Result : Type}

theorem ends_done_iff {result finished : Result} :
    (Script.done result).Ends tree finished after ↔ finished = result ∧ after = tree := by
  constructor
  · rintro ⟨⟩
    exact ⟨rfl, rfl⟩
  · rintro ⟨rfl, rfl⟩
    exact .done

/-- A script in two parts passes through the end of the first part. -/
theorem exists_of_ends_bind {first : Script First} {next : First → Script Second}
    {finished : Second} (ends : (first.bind next).Ends tree finished after) :
    ∃ result between, first.Ends tree result between ∧
      (next result).Ends between finished after := by
  induction first generalizing tree with
  | done result => exact ⟨result, tree, .done, ends⟩
  | read path later inductionHypothesis =>
      cases ends with
      | read ends =>
          obtain ⟨result, between, firstEnds, nextEnds⟩ := inductionHypothesis _ ends
          exact ⟨result, between, .read firstEnds, nextEnds⟩
  | write path content later inductionHypothesis =>
      cases ends with
      | write ends =>
          obtain ⟨result, between, firstEnds, nextEnds⟩ := inductionHypothesis _ ends
          exact ⟨result, between, .write firstEnds, nextEnds⟩
      | refused error ends =>
          obtain ⟨result, between, firstEnds, nextEnds⟩ := inductionHypothesis _ ends
          exact ⟨result, between, .refused error firstEnds, nextEnds⟩

/-- A run in which the system refuses nothing of its own accord. -/
theorem ends_run (script : Script Result) (tree : FileTree) :
    script.Ends tree (script.run tree).1 (script.run tree).2 := by
  induction script generalizing tree with
  | done result => exact .done
  | read path later inductionHypothesis => exact .read (inductionHypothesis _ tree)
  | write path content later inductionHypothesis => exact .write (inductionHypothesis _ _)

end Script

namespace FileTree

/-- All files can be read, and their texts in this order extend one schema to another. -/
def Extends (tree : FileTree) (schema : Schema) (paths : List Text) (target : Schema) : Prop :=
  ∃ texts, List.Forall₂ (fun path text => tree.read path = .ok text) paths texts ∧
    texts.foldlM Schema.readText schema = .ok target

/-- The schema is the one of all the files, in this order. -/
def Loads (tree : FileTree) (paths : List Text) (schema : Schema) : Prop :=
  tree.Extends {} paths schema

theorem extends_nil_iff {schema target : Schema} :
    tree.Extends schema [] target ↔ schema = target := by
  constructor
  · rintro ⟨texts, ⟨⟩, read⟩
    exact Except.ok.inj read
  · rintro rfl
    exact ⟨[], .nil, rfl⟩

theorem extends_cons_iff {schema target : Schema} {path : Text} {rest : List Text} :
    tree.Extends schema (path :: rest) target ↔
      ∃ text next, tree.read path = .ok text ∧ schema.addText text = (next, none) ∧
        tree.Extends next rest target := by
  constructor
  · rintro ⟨texts, readable, read⟩
    cases readable with
    | cons file files =>
        obtain ⟨next, first, later⟩ := foldlM_cons_eq_ok_iff.mp read
        exact ⟨_, next, file, Schema.readText_eq_ok_iff.mp first, _, files, later⟩
  · rintro ⟨text, next, file, first, texts, files, later⟩
    exact ⟨text :: texts, .cons file files, foldlM_cons_eq_ok_iff.mpr
      ⟨next, Schema.readText_eq_ok_iff.mpr first, later⟩⟩

end FileTree

/-- Loading changes no file, and it succeeds when all files can be read into the schema. -/
theorem ends_loadFiles {schema : Schema} {paths : List Text} {loaded : Except ParseError Schema}
    (ends : (loadFiles schema paths).Ends tree loaded after) :
    after = tree ∧ ∀ target, loaded = .ok target ↔ tree.Extends schema paths target := by
  -- A file that fails ends the script, whatever the files before it have added.
  induction paths generalizing schema with
  | nil =>
      obtain ⟨rfl, rfl⟩ := Script.ends_done_iff.mp ends
      simp [FileTree.extends_nil_iff]
  | cons path rest inductionHypothesis =>
      cases ends with
      | read ends =>
          simp only [FileTree.extends_cons_iff]
          cases file : tree.read path with
          | error error =>
              rw [file] at ends
              obtain ⟨rfl, rfl⟩ := Script.ends_done_iff.mp ends
              simp
          | ok text =>
              rw [file] at ends
              dsimp only at ends
              split at ends
              · rename_i error refused
                obtain ⟨rfl, rfl⟩ := Script.ends_done_iff.mp ends
                simp [refused]
              · rename_i extended accepted
                obtain ⟨rfl, loads⟩ := inductionHypothesis ends
                simp [accepted, loads]

/-- A request is served with the schema that its inputs load. -/
theorem ends_serve {compiler : Regex.Compiler} {program : Text} {arguments : List Text}
    {request : Request} {schema : Schema} {exit : Exit}
    (parsed : Request.ofArguments arguments = .ok request)
    (loads : tree.Loads request.inputs schema)
    (ends : (script compiler program arguments).Ends tree exit after) :
    (serve compiler schema request).Ends tree exit after := by
  rw [script, parsed] at ends
  obtain ⟨loaded, between, loadEnds, serveEnds⟩ := Script.exists_of_ends_bind ends
  obtain ⟨rfl, whole⟩ := ends_loadFiles loadEnds
  rw [(whole schema).mpr loads] at serveEnds
  exact serveEnds

/-- A run that cannot serve its request fails without output and without effect. -/
theorem served_or_failed {compiler : Regex.Compiler} {program : Text} {arguments : List Text}
    {exit : Exit} (ends : (script compiler program arguments).Ends tree exit after) :
    (∃ request schema, Request.ofArguments arguments = .ok request ∧
        tree.Loads request.inputs schema) ∨
      exit.code ≠ 0 ∧ exit.output = [] ∧ after = tree := by
  unfold script at ends
  split at ends
  · obtain ⟨rfl, rfl⟩ := Script.ends_done_iff.mp ends
    exact .inr ⟨by simp, rfl, rfl⟩
  · obtain ⟨rfl, rfl⟩ := Script.ends_done_iff.mp ends
    exact .inr ⟨by simp [failure], rfl, rfl⟩
  · rename_i request parsed
    obtain ⟨loaded, between, loadEnds, serveEnds⟩ := Script.exists_of_ends_bind ends
    obtain ⟨rfl, whole⟩ := ends_loadFiles loadEnds
    cases loaded with
    | error error =>
        obtain ⟨rfl, rfl⟩ := Script.ends_done_iff.mp serveEnds
        exact .inr ⟨by simp [failure], rfl, rfl⟩
    | ok schema => exact .inl ⟨request, schema, parsed, (whole schema).mp rfl⟩

end GedcomGrammar.CommandLine
