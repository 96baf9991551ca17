/-
This file defines a tree of files and how a script runs on it.
-/

import GedcomGrammar.CommandLine.Script

namespace GedcomGrammar.CommandLine

/-- A file holds text in UTF-8 or other bytes. -/
inductive FileNode where
  | directory
  | text (content : Text)
  | binary (bytes : List UInt8)
  deriving DecidableEq

/--
A node is found by the names on the way to it from the root.
The working directory has an empty name by default, so that only relative paths lead into it.
-/
structure FileTree where
  working : List Text := [[]]
  nodes : List (List Text × FileNode) := []
  deriving DecidableEq

namespace FileTree

/-- The tree in which the nodes stand below the working directory. -/
def ofNodes (nodes : List (List Text × FileNode)) : FileTree :=
  let tree : FileTree := {}
  { tree with nodes := nodes.map fun entry => (tree.working ++ entry.1, entry.2) }

/-- The working directory is there, and so is every directory on the way to it or to a node. -/
def isOnTheWay (tree : FileTree) (names : List Text) : Bool :=
  (tree.working :: tree.nodes.map Prod.fst).any names.isPrefixOf

def node? (tree : FileTree) (names : List Text) : Option FileNode :=
  match tree.nodes.lookup names with
  | some node => some node
  | none => if tree.isOnTheWay names then some .directory else none

def put (tree : FileTree) (names : List Text) (node : FileNode) : FileTree :=
  { tree with nodes := (names, node) :: tree.nodes.filter fun entry => entry.1 != names }

/-- A name takes at most this many bytes. -/
def nameLimit : Nat := 255

/-- A path takes at most this many bytes. -/
def pathLimit : Nat := 4095

/-- A path is judged as a whole before its names are followed. -/
def pathError? (path : Text) : Option FileError :=
  if path.contains '\x00' then some .nulInName
  else if path = [] then some .notFound
  else if pathLimit < path.utf8Length then some .nameTooLong
  else none

/-- An absolute path starts from the root and any other path from the working directory. -/
def start (tree : FileTree) (path : Text) : List Text :=
  if path.head? = some '/' then [] else tree.working

/-- These names lead to a directory from every directory; the root is its own parent. -/
def isTurn (name : Text) : Bool :=
  name = [] || name = ['.'] || name = ['.', '.']

/-- The node with a name in a directory, if there is one. -/
def child (tree : FileTree) (directory : List Text) (name : Text) :
    Except FileError (Option FileNode) :=
  if nameLimit < name.utf8Length then .error .nameTooLong
  else .ok (tree.node? (directory ++ [name]))

/-- The directory that one name leads to from another directory. -/
def step (tree : FileTree) (directory : List Text) (name : Text) :
    Except FileError (List Text) :=
  if name = ['.', '.'] then .ok directory.dropLast
  else if isTurn name then .ok directory
  else
    match tree.child directory name with
    | .error error => .error error
    | .ok none => .error .notFound
    | .ok (some .directory) => .ok (directory ++ [name])
    | .ok (some _) => .error .notDirectory

/-- The directory that all names of a path but the last lead to, and the last name. -/
def locate (tree : FileTree) (path : Text) (names : List Text) :
    Except FileError (List Text × Text) :=
  match pathError? path with
  | some error => .error error
  | none =>
      (names.dropLast.foldlM tree.step (tree.start path)).map fun directory =>
        (directory, names.getLast?.getD [])

def read (tree : FileTree) (path : Text) : Except FileError Text :=
  match tree.locate path (path.splitOn '/') with
  | .error error => .error error
  | .ok (directory, name) =>
      if isTurn name then .error .isDirectory
      else
        match tree.child directory name with
        | .error error => .error error
        | .ok none => .error .notFound
        | .ok (some .directory) => .error .isDirectory
        | .ok (some (.text content)) => .ok content
        | .ok (some (.binary _)) => .error .invalidText

/--
A write replaces the whole file or changes nothing.
A slash after the last name asks for a directory, whether or not there is one.
-/
def write (tree : FileTree) (path content : Text) : Option FileError × FileTree :=
  let named := Text.trimEnd (fun char => char == '/') path
  match tree.locate path (named.splitOn '/') with
  | .error error => (some error, tree)
  | .ok (directory, name) =>
      if named ≠ path ∨ isTurn name then (some .isDirectory, tree)
      else
        match tree.child directory name with
        | .error error => (some error, tree)
        | .ok (some .directory) => (some .isDirectory, tree)
        | .ok _ => (none, tree.put (directory ++ [name]) (.text content))

end FileTree

/-- The result of a script on a tree of files, and the tree after it. -/
def Script.run {Result : Type} (tree : FileTree) : Script Result → Result × FileTree
  | .done result => (result, tree)
  | .read path next => (next (tree.read path)).run tree
  | .write path content next =>
      let (error, tree) := tree.write path content
      (next error).run tree

end GedcomGrammar.CommandLine
