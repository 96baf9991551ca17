/-
This file proves that a write changes one file or none.
-/

import GedcomGrammar.CommandLine.Outcome
import GedcomGrammar.Proofs.Results

namespace GedcomGrammar.CommandLine.FileTree

variable {tree : FileTree}

theorem isOnTheWay_iff {names : List Text} :
    tree.isOnTheWay names = true ↔
      names <+: tree.working ∨ ∃ entry ∈ tree.nodes, names <+: entry.1 := by
  simp [isOnTheWay, List.isPrefixOf_iff_prefix]

theorem isOnTheWay_of_prefix {names further : List Text} (leads : names <+: further)
    (onTheWay : tree.isOnTheWay further = true) : tree.isOnTheWay names = true := by
  rw [isOnTheWay_iff] at onTheWay ⊢
  exact onTheWay.imp leads.trans fun ⟨entry, member, inside⟩ => ⟨entry, member, leads.trans inside⟩

/-- A directory is on the way to itself, or to something in it. -/
theorem isOnTheWay_of_directory {names : List Text} (found : tree.node? names = some .directory) :
    tree.isOnTheWay names = true := by
  unfold node? at found
  split at found
  · rename_i node entry
    rw [isOnTheWay_iff]
    obtain ⟨front, back, split, -⟩ := List.lookup_eq_some_iff.mp entry
    exact .inr ⟨(names, node), by simp [split], List.prefix_rfl⟩
  · by_contra off
    simp [off] at found

theorem isOnTheWay_start (path : Text) : tree.isOnTheWay (tree.start path) = true := by
  rw [isOnTheWay_iff]
  unfold start
  split
  · exact .inl List.nil_prefix
  · exact .inl List.prefix_rfl

theorem child_eq_ok_iff {directory : List Text} {name : Text} {node : Option FileNode} :
    tree.child directory name = .ok node ↔
      ¬nameLimit < name.utf8Length ∧ tree.node? (directory ++ [name]) = node := by
  unfold child
  split <;> simp_all

/-- Where a name leads that names no child: to the parent, or nowhere else. -/
def turned (directory : List Text) (name : Text) : List Text :=
  if name = ['.', '.'] then directory.dropLast else directory

/-- A step makes a turn or enters a directory. -/
theorem step_eq_ok_iff {directory next : List Text} {name : Text} :
    tree.step directory name = .ok next ↔
      isTurn name = true ∧ next = turned directory name ∨
        isTurn name = false ∧ ¬nameLimit < name.utf8Length ∧ next = directory ++ [name] ∧
          tree.node? next = some .directory := by
  unfold step turned
  by_cases parent : name = ['.', '.']
  · have turn : isTurn name = true := by simp [isTurn, parent]
    rw [if_pos parent, if_pos parent, turn]
    simp [eq_comm]
  · rw [if_neg parent, if_neg parent]
    by_cases turn : isTurn name = true
    · rw [if_pos turn, turn]
      simp [eq_comm]
    · rw [if_neg turn, Bool.eq_false_iff.mpr turn]
      simp only [child, Bool.false_eq_true, false_and, false_or, true_and]
      by_cases long : nameLimit < name.utf8Length
      · simp [long]
      · rw [if_neg long]
        rcases found : tree.node? (directory ++ [name]) with - | (- | content | bytes)
        · simp +contextual [found]
        · simp +contextual [found, eq_comm, long]
        · simp +contextual [found]
        · simp +contextual [found]

theorem isOnTheWay_step {directory next : List Text} {name : Text}
    (stepped : tree.step directory name = .ok next)
    (onTheWay : tree.isOnTheWay directory = true) : tree.isOnTheWay next = true := by
  rcases step_eq_ok_iff.mp stepped with ⟨-, rfl⟩ | ⟨-, -, -, entered⟩
  · refine isOnTheWay_of_prefix ?_ onTheWay
    unfold turned
    split
    · exact List.dropLast_prefix directory
    · exact List.prefix_rfl
  · exact isOnTheWay_of_directory entered

theorem locate_eq_ok_iff {path : Text} {names directory : List Text} {name : Text} :
    tree.locate path names = .ok (directory, name) ↔
      pathError? path = none ∧ names.dropLast.foldlM tree.step (tree.start path) = .ok directory ∧
        name = names.getLast?.getD [] := by
  unfold locate
  cases pathError? path with
  | some error => simp
  | none =>
      simp only [map_eq_ok_iff, Prod.mk.injEq, true_and]
      constructor
      · rintro ⟨found, walked, rfl, rfl⟩
        exact ⟨walked, rfl⟩
      · rintro ⟨walked, rfl⟩
        exact ⟨directory, walked, rfl, rfl⟩

theorem isOnTheWay_locate {path : Text} {names directory : List Text} {name : Text}
    (located : tree.locate path names = .ok (directory, name)) :
    tree.isOnTheWay directory = true := by
  obtain ⟨-, walked, -⟩ := locate_eq_ok_iff.mp located
  refine @foldlM_keeps _ _ _ _ (fun directory => tree.isOnTheWay directory = true) _ _ _
    (isOnTheWay_start path) ?_ walked
  intro directory name next _ onTheWay stepped
  exact isOnTheWay_step stepped onTheWay

/-- Entries with another key do not matter to a look-up. -/
theorem lookup_filter_of_ne {names other : List Text} (different : other ≠ names)
    (nodes : List (List Text × FileNode)) :
    (nodes.filter fun entry => entry.1 != names).lookup other = nodes.lookup other := by
  induction nodes with
  | nil => rfl
  | cons entry rest inductionHypothesis =>
      obtain ⟨key, node⟩ := entry
      by_cases here : key = names
      · subst here
        simp [List.lookup_cons, beq_eq_false_iff_ne.mpr different, inductionHypothesis]
      · simp [here, List.lookup_cons, inductionHypothesis]

/-- A file put into a directory that is there puts no other names on the way. -/
theorem isOnTheWay_put {directory other : List Text} {name : Text} {node : FileNode}
    (onTheWay : tree.isOnTheWay directory = true) (different : other ≠ directory ++ [name]) :
    (tree.put (directory ++ [name]) node).isOnTheWay other = tree.isOnTheWay other := by
  rw [Bool.eq_iff_iff, isOnTheWay_iff]
  constructor
  · rintro (working | ⟨entry, member, leads⟩)
    · exact isOnTheWay_iff.mpr (.inl working)
    · rcases List.mem_cons.mp member with rfl | old
      · -- The new node is only on the way to itself, past a directory that was there.
        rcases List.prefix_concat_iff.mp leads with same | shorter
        · exact absurd same different
        · exact isOnTheWay_of_prefix shorter onTheWay
      · exact isOnTheWay_iff.mpr (.inr ⟨entry, List.mem_of_mem_filter old, leads⟩)
  · intro before
    refine (isOnTheWay_iff.mp before).imp_right ?_
    rintro ⟨entry, member, leads⟩
    by_cases replaced : entry.1 = directory ++ [name]
    · exact ⟨_, List.mem_cons_self, replaced ▸ leads⟩
    · exact ⟨entry, List.mem_cons_of_mem _ (List.mem_filter.mpr ⟨member, by simpa⟩), leads⟩

/-- A file in a directory that is there can be put without moving anything else. -/
theorem node?_put_of_ne {directory other : List Text} {name : Text} {node : FileNode}
    (onTheWay : tree.isOnTheWay directory = true) (different : other ≠ directory ++ [name]) :
    (tree.put (directory ++ [name]) node).node? other = tree.node? other := by
  have looked : (tree.put (directory ++ [name]) node).nodes.lookup other =
      tree.nodes.lookup other := by
    rw [put, List.lookup_cons, beq_eq_false_iff_ne.mpr different]
    exact lookup_filter_of_ne different tree.nodes
  rw [node?, node?, looked, isOnTheWay_put onTheWay different]

theorem node?_put_self (names : List Text) (node : FileNode) :
    (tree.put names node).node? names = some node := by
  simp [node?, put]

/-- Where every node but one file is the same, the same directories are found. -/
theorem step_of_others {after : FileTree} {place : List Text}
    (file : tree.node? place ≠ some .directory)
    (others : ∀ other, other ≠ place → after.node? other = tree.node? other)
    {directory next : List Text} {name : Text} (stepped : tree.step directory name = .ok next) :
    after.step directory name = .ok next := by
  rw [step_eq_ok_iff] at stepped ⊢
  refine stepped.imp_right fun ⟨named, short, joined, entered⟩ => ⟨named, short, joined, ?_⟩
  rw [others next, entered]
  rintro rfl
  exact file entered

theorem locate_of_others {after : FileTree} {place : List Text}
    (working : after.working = tree.working) (file : tree.node? place ≠ some .directory)
    (others : ∀ other, other ≠ place → after.node? other = tree.node? other)
    {path : Text} {names directory : List Text} {name : Text}
    (located : tree.locate path names = .ok (directory, name)) :
    after.locate path names = .ok (directory, name) := by
  obtain ⟨fine, walked, rfl⟩ := locate_eq_ok_iff.mp located
  refine locate_eq_ok_iff.mpr ⟨fine, ?_, rfl⟩
  have same : after.start path = tree.start path := by
    unfold start
    rw [working]
  rw [same]
  generalize tree.start path = start at walked ⊢
  generalize names.dropLast = way at walked ⊢
  induction way generalizing start with
  | nil => exact walked
  | cons first rest inductionHypothesis =>
      obtain ⟨next, stepped, later⟩ := foldlM_cons_eq_ok_iff.mp walked
      exact foldlM_cons_eq_ok_iff.mpr
        ⟨next, step_of_others file others stepped, inductionHypothesis next later⟩

/-- A write takes place, at a file or where there is none, or it changes nothing. -/
theorem write_cases (tree : FileTree) (path content : Text) :
    (∃ error, tree.write path content = (some error, tree)) ∨
      ∃ directory name, tree.locate path (path.splitOn '/') = .ok (directory, name) ∧
        isTurn name = false ∧ (∃ node, tree.child directory name = .ok node) ∧
        tree.node? (directory ++ [name]) ≠ some .directory ∧
        tree.write path content = (none, tree.put (directory ++ [name]) (.text content)) := by
  generalize written : tree.write path content = outcome
  unfold write at written
  dsimp only at written
  split at written
  · exact .inl ⟨_, written.symm⟩
  · rename_i directory name located
    split at written
    · exact .inl ⟨_, written.symm⟩
    · rename_i plain
      obtain ⟨whole, noTurn⟩ := not_or.mp plain
      -- Nothing was trimmed from the path, so that a read of it finds the same place.
      rw [not_not.mp whole] at located
      split at written
      · exact .inl ⟨_, written.symm⟩
      · exact .inl ⟨_, written.symm⟩
      · rename_i node free found
        refine .inr ⟨directory, name, located, by simpa using noTurn, ⟨node, found⟩, ?_,
          written.symm⟩
        obtain ⟨-, rfl⟩ := child_eq_ok_iff.mp found
        exact fun entered => free (by rw [← entered])

/-- A write that is carried out changes the file at its path, and one that fails changes nothing. -/
theorem write_saves (tree : FileTree) (path content : Text) :
    ((tree.write path content).1 = none →
        tree.Saves path content (tree.write path content).2) ∧
      ∀ error, (tree.write path content).1 = some error → (tree.write path content).2 = tree := by
  rcases write_cases tree path content with
    ⟨error, failed⟩ | ⟨directory, name, located, noTurn, ⟨node, found⟩, file, carried⟩
  · simp [failed]
  · rw [carried]
    refine ⟨fun _ => ?_, by simp⟩
    have others : ∀ other, other ≠ directory ++ [name] →
        (tree.put (directory ++ [name]) (.text content)).node? other = tree.node? other :=
      fun other different => node?_put_of_ne (isOnTheWay_locate located) different
    have again : (tree.put (directory ++ [name]) (.text content)).child directory name =
        .ok (some (.text content)) :=
      child_eq_ok_iff.mpr ⟨(child_eq_ok_iff.mp found).1, node?_put_self _ _⟩
    have working : (tree.put (directory ++ [name]) (.text content)).working = tree.working := rfl
    constructor
    · rw [read, locate_of_others working file others located]
      simp [noTurn, again]
    · refine ⟨directory ++ [name], ?_, file, others⟩
      simp [place?, located, noTurn]

end GedcomGrammar.CommandLine.FileTree
