/-
This file proves what a schema becomes when several texts are read into it.
-/

import GedcomGrammar.CommandLine.FileTree
import GedcomGrammar.CommandLine.Run
import GedcomGrammar.Proofs.Schema.Declarations

namespace GedcomGrammar

namespace Schema

variable {schema : Schema}

/-- The elements of another schema are declared again, in their order. -/
def union (schema other : Schema) : Schema :=
  other.elements.foldl insert schema.close

@[simp] theorem close_foldl_insert (schema : Schema) (elements : List Element) :
    (elements.foldl insert schema).close = elements.foldl insert schema.close := by
  rw [foldl_insert, foldl_insert]
  rfl

@[simp] theorem close_union (schema other : Schema) :
    (schema.union other).close = schema.union other :=
  close_foldl_insert schema.close other.elements

/-- Lines that an empty schema takes add the same elements to every schema. -/
theorem foldlM_of_empty {lines : List Text} (noFeed : ∀ line ∈ lines, '\n' ∉ line)
    {read : Schema} (run : lines.foldlM readLine {} = .ok read) (schema : Schema) :
    ∃ final, lines.foldlM readLine schema = .ok final ∧ final.close = schema.union read := by
  have trimmed := Block.trimmed_map noFeed
  rw [← foldlM_withoutLineEnd] at run
  have blank := blank_cut_of_foldlM rfl trimmed run
  obtain ⟨elements, declared, made⟩ :=
    (@exists_foldlM_iff_blocks {} _ trimmed blank read.close).mp ⟨read, run, rfl⟩
  have whole : read.elements = Keyed.ofList Element.key elements := by
    rw [foldl_insert] at made
    exact (congrArg Schema.elements made).symm
  have same : schema.union read = elements.foldl insert schema.close := by
    rw [union, foldl_insert, foldl_insert, whole, Keyed.foldl_insert_ofList]
  rw [← foldlM_withoutLineEnd, same]
  exact (exists_foldlM_iff_blocks trimmed blank).mpr ⟨elements, declared, rfl⟩

theorem foldlM_of_ofText {text : Text} {part : Schema} (read : ofText text = .ok part)
    (schema : Schema) :
    ∃ final, (text.splitOn '\n').foldlM readLine schema = .ok final ∧
      final.close = schema.union part := by
  obtain ⟨before, lines, rfl⟩ := ofText_eq_ok_iff.mp read
  exact foldlM_of_empty (fun _ member => Text.notMem_of_mem_splitOn member) lines schema

/-- A text that is read by itself is read into every schema, whose own elements it replaces. -/
theorem readText_of_ofText {text : Text} {part : Schema} (read : ofText text = .ok part)
    (schema : Schema) : schema.readText text = .ok (schema.union part) :=
  readText_eq_ok_iff_splitOn.mpr (foldlM_of_ofText read schema.close)

/-- The schema of several texts, read one after another. -/
def ofTexts (texts : List Text) : Except ParseError Schema :=
  texts.foldlM readText {}

theorem foldlM_readText {texts : List Text} {parts : List Schema}
    (each : List.Forall₂ (fun text part => ofText text = .ok part) texts parts) (schema : Schema) :
    texts.foldlM readText schema = .ok (parts.foldl union schema) := by
  induction each generalizing schema with
  | nil => rfl
  | cons read _ inductionHypothesis =>
      rw [List.foldlM_cons, readText_of_ofText read]
      exact inductionHypothesis _

/-- The lines of several texts may be read without closing the schema between them. -/
theorem foldlM_flatMap {texts : List Text} {parts : List Schema}
    (each : List.Forall₂ (fun text part => ofText text = .ok part) texts parts) (schema : Schema) :
    ∃ final, (texts.flatMap fun text => text.splitOn '\n').foldlM readLine schema = .ok final ∧
      final.close = parts.foldl union schema.close := by
  induction each generalizing schema with
  | nil => exact ⟨schema, rfl, rfl⟩
  | cons read _ inductionHypothesis =>
      obtain ⟨next, front, closed⟩ := foldlM_of_ofText read schema
      obtain ⟨final, back, result⟩ := inductionHypothesis next
      rw [closed] at result
      exact ⟨final, foldlM_append_eq_ok_iff.mpr ⟨next, front, back⟩, result⟩

/-- Texts may be joined by line feeds and read as one. -/
theorem ofText_joinWith {texts : List Text} {parts : List Schema}
    (each : List.Forall₂ (fun text part => ofText text = .ok part) texts parts) :
    ofText (Text.joinWith ['\n'] texts) = .ok (parts.foldl union {}) := by
  by_cases empty : texts = []
  · rw [empty] at each ⊢
    cases each
    rfl
  · rw [ofText_eq_ok_iff, Text.splitOn_joinWith empty]
    exact foldlM_flatMap each {}

theorem foldl_union (parts : List Schema) (closed : schema.close = schema) :
    parts.foldl union schema = (parts.flatMap elements).foldl insert schema := by
  induction parts generalizing schema with
  | nil => rfl
  | cons part rest inductionHypothesis =>
      have first : schema.union part = part.elements.foldl insert schema := by rw [union, closed]
      rw [List.foldl_cons, inductionHypothesis (close_union schema part), first,
        List.flatMap_cons, List.foldl_append]

/-- A text whose elements a schema has as they are changes nothing. -/
theorem addText_of_find? {text : Text} {part : Schema} (read : ofText text = .ok part)
    (closed : schema.close = schema)
    (found : ∀ element ∈ part.elements, schema.find? element.key = some element) :
    schema.addText text = (schema, none) := by
  have unchanged : schema.union part = schema := by
    rw [union, closed, foldl_insert, Keyed.foldl_insert_of_find? found]
  have readAgain := readText_of_ofText read schema
  rw [unchanged] at readAgain
  exact readText_eq_ok_iff.mp readAgain

end Schema

namespace CommandLine

/-- Files that can all be read are read one after another into the schema. -/
theorem run_loadFiles {tree : FileTree} {paths texts : List Text}
    (readable : List.Forall₂ (fun path text => tree.read path = .ok text) paths texts)
    {schema target : Schema} (read : texts.foldlM Schema.readText schema = .ok target) :
    (loadFiles schema paths).run tree = (.ok target, tree) := by
  induction readable generalizing schema with
  | nil => rw [loadFiles, Script.run, Except.ok.inj read]
  | cons file _ inductionHypothesis =>
      obtain ⟨next, first, later⟩ := foldlM_cons_eq_ok_iff.mp read
      rw [loadFiles, Script.run, file]
      dsimp only
      rw [Schema.readText_eq_ok_iff.mp first]
      exact inductionHypothesis later

end CommandLine

namespace Schema

/--
What the schemas of several texts tell about the schema that the texts give together.
The last text that has an element gives it, and the first one its place.
-/
structure Unites (texts : List Text) (parts : List Schema) (whole : Schema) : Prop where
  together : ofTexts texts = .ok whole
  files : ∀ tree paths,
    List.Forall₂ (fun path text => CommandLine.FileTree.read tree path = .ok text) paths texts →
      (CommandLine.loadFiles {} paths).run tree = (.ok whole, tree)
  latest : ∀ key, whole.find? key = parts.reverse.findSome? fun part => part.find? key
  order : whole.elements.map Element.key =
    (parts.flatMap fun part => part.elements.map Element.key).eraseDups
  joined : ofText (Text.joinWith ['\n'] texts) = .ok whole
  again : ∀ (position : Nat) text part, texts[position]? = some text →
    parts[position]? = some part →
    (∀ later ∈ parts.drop (position + 1), ∀ element ∈ part.elements,
      later.find? element.key = none) →
    whole.addText text = (whole, none)

theorem drop_of_getElem? {Item : Type} {items : List Item} {item : Item} {position : Nat}
    (found : items[position]? = some item) :
    items.drop position = item :: items.drop (position + 1) := by
  obtain ⟨within, rfl⟩ := List.getElem?_eq_some_iff.mp found
  exact List.drop_eq_getElem_cons within

theorem loaded_of_ofText {texts : List Text} {parts : List Schema}
    (each : List.Forall₂ (fun text part => ofText text = .ok part) texts parts) :
    ∀ part ∈ parts, part.Loaded := by
  have loaded : List.Forall₂ (fun part text => part.Loaded ∧ ofText text = .ok part) parts texts :=
    List.Forall₂.flip (each.imp fun _ _ read => ⟨(loaded_ofText read).1, read⟩)
  exact ((List.forall₂_and_left parts texts).mp loaded).1

/-- What no later part has is found as the part has it. -/
theorem findSome?_of_untouched {parts : List Schema} {part : Schema} {position : Nat}
    (partAt : parts[position]? = some part) {key : Element.Key} {element : Element}
    (found : part.find? key = some element)
    (untouched : ∀ later ∈ parts.drop (position + 1), later.find? key = none) :
    (parts.reverse.findSome? fun part => part.find? key) = some element := by
  have later : ((parts.drop (position + 1)).reverse.findSome? fun part => part.find? key) =
      none :=
    List.findSome?_eq_none_iff.mpr fun other member =>
      untouched other (List.mem_reverse.mp member)
  rw [← List.take_append_drop position parts, drop_of_getElem? partAt, List.reverse_append,
    List.reverse_cons, List.findSome?_append, List.findSome?_append, later]
  simp [found]

/-- Texts that are read one by one give one schema together, however they are put together. -/
theorem exists_unites {texts : List Text} {parts : List Schema}
    (each : List.Forall₂ (fun text part => ofText text = .ok part) texts parts) :
    ∃ whole, Unites texts parts whole := by
  have loaded := loaded_of_ofText each
  have collects := collects_iff.mpr (foldl_union parts (rfl : close {} = {})).symm
  have latest (key : Element.Key) : (parts.foldl union {}).find? key =
      parts.reverse.findSome? fun part => part.find? key :=
    (collects.latest key).trans
      (Keyed.findLast?_flatMap (fun part member => (loaded part member).distinct) key)
  refine ⟨parts.foldl union {}, ?_⟩
  exact
    { together := foldlM_readText each {}
      files := fun tree paths readable =>
        CommandLine.run_loadFiles readable (foldlM_readText each {})
      latest := latest
      order := by rw [collects.order, List.map_flatMap]
      joined := ofText_joinWith each
      again := by
        intro position text part textAt partAt untouched
        have read : ofText text = .ok part := by
          have behind := List.forall₂_drop position each
          rw [drop_of_getElem? textAt, drop_of_getElem? partAt] at behind
          exact (List.forall₂_cons.mp behind).1
        have member : part ∈ parts := List.mem_of_getElem? partAt
        have closed : (parts.foldl union {}).close = parts.foldl union {} := by
          rw [foldl_union parts (rfl : close {} = {}), close_foldl_insert]
          rfl
        apply addText_of_find? read closed
        intro element inside
        rw [latest]
        exact findSome?_of_untouched partAt
          (Keyed.find?_of_mem (loaded part member).distinct inside)
          fun later behind => untouched later behind element inside }

/-- Two texts that declare one structure, and each one more element. -/
def neighbours : List (Text × Schema) :=
  [("S:=\nOld.\n\nT \x7bT\x7d:=\n".toList,
      { elements := [
          .struct { label := "S".toList, description := "Old.".toList },
          .tag { code := "T".toList, label := "T".toList }] }),
    ("\nR:=\nS:=\nNew.".toList,
      { elements := [
          .struct { label := "R".toList },
          .struct { label := "S".toList, description := "New.".toList }] })]

theorem neighbours_unite :
    List.Forall₂ (fun text part => ofText text = .ok part) (neighbours.map Prod.fst)
        (neighbours.map Prod.snd) ∧
      Unites (neighbours.map Prod.fst) (neighbours.map Prod.snd)
        { elements := [
            .struct { label := "S".toList, description := "New.".toList },
            .tag { code := "T".toList, label := "T".toList },
            .struct { label := "R".toList }] } := by
  have each : List.Forall₂ (fun text part => ofText text = .ok part) (neighbours.map Prod.fst)
      (neighbours.map Prod.snd) :=
    .cons (by decide +kernel) (.cons (by decide +kernel) .nil)
  obtain ⟨whole, unites⟩ := exists_unites each
  have together : ofTexts (neighbours.map Prod.fst) = .ok
      { elements := [
          .struct { label := "S".toList, description := "New.".toList },
          .tag { code := "T".toList, label := "T".toList },
          .struct { label := "R".toList }] } := by decide +kernel
  have same := Except.ok.inj (unites.together.symm.trans together)
  exact ⟨each, same ▸ unites⟩

end Schema

end GedcomGrammar
