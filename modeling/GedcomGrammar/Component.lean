/-
This file defines the components of a value definition, such as the three of `<DAY> {OF}`.
-/

import GedcomGrammar.Text

namespace GedcomGrammar

namespace Component

/-- A component refers to a primitive, a term or a tag, or it is literal text. -/
inductive Kind where
  | primitive
  | term
  | tag
  | literal
  deriving DecidableEq

/-- The kinds of component that occur in a definition. -/
structure KindSet where
  primitives : Bool := false
  terms : Bool := false
  tags : Bool := false
  literals : Bool := false
  deriving DecidableEq

def KindSet.insert (kinds : KindSet) : Kind → KindSet
  | .primitive => { kinds with primitives := true }
  | .term => { kinds with terms := true }
  | .tag => { kinds with tags := true }
  | .literal => { kinds with literals := true }

def KindSet.union (left right : KindSet) : KindSet where
  primitives := left.primitives || right.primitives
  terms := left.terms || right.terms
  tags := left.tags || right.tags
  literals := left.literals || right.literals

def KindSet.contains (kinds : KindSet) : Kind → Bool
  | .primitive => kinds.primitives
  | .term => kinds.terms
  | .tag => kinds.tags
  | .literal => kinds.literals

/-- A reference stands between two delimiters of its kind. -/
def Kind.delimiters? : Kind → Option (Char × Char)
  | .primitive => some ('<', '>')
  | .term => some ('{', '}')
  | .tag => some ('%', '%')
  | .literal => none

/-- The kind of reference that a character opens, with the delimiter that closes it. -/
def Kind.opened? (char : Char) : Option (Kind × Char) :=
  if char = '<' then some (.primitive, '>')
  else if char = '{' then some (.term, '}')
  else if char = '%' then some (.tag, '%')
  else none

end Component

/-- One part of a value definition. -/
structure Component where
  kind : Component.Kind
  value : Text
  deriving DecidableEq

namespace Component

/-- The component as a definition spells it. -/
def text (component : Component) : Text :=
  match component.kind.delimiters? with
  | some (opener, closer) => opener :: component.value ++ [closer]
  | none => component.value

/-- The kinds of all components of a list. -/
def kinds (components : List Component) : KindSet :=
  components.foldl (fun found component => found.insert component.kind) {}

/-- The components as one definition. -/
def definition (components : List Component) : Text :=
  components.flatMap text

end Component

end GedcomGrammar
