/-
This file says what the end of a script leaves of the files, when a write may be refused.
-/

import GedcomGrammar.CommandLine.FileTree

namespace GedcomGrammar.CommandLine

/-- A write takes place as a whole, or the system refuses it and leaves the files as they were. -/
inductive Script.Ends {Result : Type} : FileTree → Script Result → Result → FileTree → Prop where
  | done {tree : FileTree} {result : Result} : Ends tree (.done result) result tree
  | read {tree after : FileTree} {path : Text} {next : Except FileError Text → Script Result}
      {result : Result} (later : Ends tree (next (tree.read path)) result after) :
      Ends tree (.read path next) result after
  | write {tree after : FileTree} {path content : Text} {next : Option FileError → Script Result}
      {result : Result}
      (later : Ends (tree.write path content).2 (next (tree.write path content).1) result after) :
      Ends tree (.write path content next) result after
  | refused {tree after : FileTree} {path content : Text}
      {next : Option FileError → Script Result} {result : Result} (error : FileError)
      (later : Ends tree (next (some error)) result after) :
      Ends tree (.write path content next) result after

namespace FileTree

/-- The place that a path names, whether or not there is a file. -/
def place? (tree : FileTree) (path : Text) : Option (List Text) :=
  match tree.locate path (path.splitOn '/') with
  | .error _ => none
  | .ok (directory, name) => if isTurn name then none else some (directory ++ [name])

/-- The content is read back from the path, and no place but the one that it names has changed. -/
structure Saves (tree : FileTree) (path content : Text) (after : FileTree) : Prop where
  kept : after.read path = .ok content
  others : ∃ place, tree.place? path = some place ∧ tree.node? place ≠ some .directory ∧
    ∀ other, other ≠ place → after.node? other = tree.node? other

end FileTree

end GedcomGrammar.CommandLine
