/-
This file defines registries, which keep items in slots and find them by identifier.
-/

import GedcomGrammar.Keyed
import GedcomGrammar.Text

namespace GedcomGrammar

/-- A slot was used that is beyond the last one. -/
structure Stray where
  slot : Nat
  deriving DecidableEq

/-- What slots hold, or the first use of a slot that is beyond the last one. -/
abbrev Access := Except Stray

/-- An item never leaves its slot, and the index tells the slot of each identifier. -/
structure Registry (Item : Type) where
  entries : List Item := []
  index : List (Text × Nat) := []
  deriving DecidableEq

namespace Registry

variable {Item : Type}

def slot? (registry : Registry Item) (identifier : Text) : Option Nat :=
  (Keyed.find? Prod.fst identifier registry.index).map Prod.snd

def item (registry : Registry Item) (slot : Nat) : Access Item :=
  match registry.entries[slot]? with
  | none => .error ⟨slot⟩
  | some item => .ok item

/-- Another item takes a slot, and the index stays. -/
def put (registry : Registry Item) (slot : Nat) (item : Item) : Access (Registry Item) :=
  if slot < registry.entries.length then
    .ok { registry with entries := registry.entries.set slot item }
  else .error ⟨slot⟩

/-- The item under an identifier. -/
def find? (registry : Registry Item) (identifier : Text) : Access (Option Item) :=
  match registry.slot? identifier with
  | none => .ok none
  | some slot => (registry.item slot).map some

/-- An item under a new identifier takes a new slot. -/
def append (identifier : Text) (item : Item) (registry : Registry Item) : Registry Item where
  entries := registry.entries ++ [item]
  index := Keyed.insert Prod.fst (identifier, registry.entries.length) registry.index

/-- The slot that an item takes, and whether its identifier is new. -/
def insert (identifier : Text) (item : Item) (registry : Registry Item) :
    Access (Registry Item × Nat × Bool) :=
  match registry.slot? identifier with
  | some slot => (registry.put slot item).map fun replaced => (replaced, slot, false)
  | none => .ok (registry.append identifier item, registry.entries.length, true)

end Registry

end GedcomGrammar
