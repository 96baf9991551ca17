/-
This file takes a definition apart by counting bytes, where each cut has to fall between characters.
-/

import GedcomGrammar.Component.Cursor
import GedcomGrammar.Proofs.Results
import GedcomGrammar.Text.Bytes

namespace GedcomGrammar.Component

open Text

/-- The text before a byte, unless it is empty. -/
def before? (stop : Nat) (text : Text) : Sliced (Option Text) :=
  if stop = 0 then .ok none else (slice stop text).map fun halves => some halves.1

/-- The name between two delimiters at the start of a text. -/
def delimited? (opener closer : Char) (text : Text) : Sliced (Option Text) :=
  match dropLead? [opener] text with
  | none => .ok none
  | some body =>
      match byteOf? (· == closer) body with
      | none => .ok none
      | some stop => before? stop body

/-- The text before the first character that opens a reference. -/
def literal? (text : Text) : Sliced (Option Text) :=
  before? ((byteOf? (fun char => !isPlain char) text).getD (utf8Length text)) text

/-- The kinds of reference in the order in which they are tried. -/
def references : List (Kind × Char × Char) :=
  [(.primitive, '<', '>'), (.term, '{', '}'), (.tag, '%', '%')]

/--
The component that a text begins with, and the number of bytes that it takes.
Each delimiter takes one byte, and what is no reference may be literal text.
-/
def first? (text : Text) : List (Kind × Char × Char) → Sliced (Option (Component × Nat))
  | [] => do
      let plain ← literal? text
      return plain.map fun plain => (⟨.literal, plain⟩, utf8Length plain)
  | (kind, opener, closer) :: others => do
      match ← delimited? opener closer text with
      | some name => return some (⟨kind, name⟩, utf8Length name + 2)
      | none => first? text others

theorem utf8Length_before?_pos {stop : Nat} {text front : Text}
    (found : before? stop text = .ok (some front)) : 0 < utf8Length front := by
  unfold before? at found
  split at found
  · simp at found
  · rename_i positive
    obtain ⟨halves, cut, same⟩ := map_eq_ok_iff.mp found
    rw [← Option.some.inj same, (slice_eq_ok_iff.mp cut).2]
    exact Nat.pos_of_ne_zero positive

/-- A component takes at least one byte. -/
theorem first?_pos {text : Text} {kinds : List (Kind × Char × Char)} {component : Component}
    {taken : Nat} (found : first? text kinds = .ok (some (component, taken))) : 0 < taken := by
  induction kinds with
  | nil =>
      obtain ⟨plain, read, made⟩ := bind_eq_ok_iff.mp found
      obtain ⟨plain, rfl, same⟩ := Option.map_eq_some_iff.mp (Except.ok.inj made)
      rw [← (Prod.mk.inj same).2]
      exact utf8Length_before?_pos read
  | cons reference others inductionHypothesis =>
      obtain ⟨name, -, made⟩ := bind_eq_ok_iff.mp found
      cases name with
      | none => exact inductionHypothesis made
      | some name =>
          rw [← (Prod.mk.inj (Option.some.inj (Except.ok.inj made))).2]
          exact Nat.succ_pos _

/-- A definition, and the byte up to which it was taken apart. -/
structure Scanner where
  definition : Text
  position : Nat
  deriving DecidableEq

namespace Scanner

def start (definition : Text) : Scanner :=
  ⟨definition, 0⟩

/-- The number of bytes that are still to be read. -/
def left (scanner : Scanner) : Nat :=
  utf8Length scanner.definition - scanner.position

/-- The next component, the end or a fault, and the scanner after that. -/
def next (scanner : Scanner) : Sliced (Except Unmatched (Option Component) × Scanner) := do
  let halves ← slice scanner.position scanner.definition
  if halves.2 = [] then
    return (.ok none, scanner)
  match ← first? halves.2 references with
  | some (component, taken) =>
      return (.ok (some component), { scanner with position := scanner.position + taken })
  | none => return (.error ⟨scanner.position, scanner.definition⟩, scanner)

/-- A call that finds a component leaves fewer bytes. -/
theorem left_lt {scanner after : Scanner} {component : Component}
    (found : scanner.next = .ok (.ok (some component), after)) : after.left < scanner.left := by
  obtain ⟨halves, cut, made⟩ := bind_eq_ok_iff.mp found
  obtain ⟨joined, same⟩ := slice_eq_ok_iff.mp cut
  split at made
  · simp [pure, Except.pure] at made
  · rename_i nonempty
    obtain ⟨first, read, made⟩ := bind_eq_ok_iff.mp made
    cases first with
    | none => simp [pure, Except.pure] at made
    | some first =>
        have taken := first?_pos read
        have more := mt utf8Length_eq_zero_iff.mp nonempty
        rw [← (Prod.mk.inj (Except.ok.inj made)).2, left, left, joined, utf8Length_append]
        dsimp only
        omega

/-- The answers of repeated calls. -/
def answers : Nat → Scanner → Sliced (List (Except Unmatched (Option Component)))
  | 0, _ => return []
  | count + 1, scanner => do
      let (answer, after) ← scanner.next
      let others ← answers count after
      return answer :: others

/-- Components are added to those before them, with their kinds, up to the end or a fault. -/
def collect (scanner : Scanner) (components : List Component) (found : KindSet) :
    Sliced (Except Unmatched (List Component × KindSet)) :=
  match step : scanner.next with
  | .error misplaced => .error misplaced
  | .ok (.error error, _) => .ok (.error error)
  | .ok (.ok none, _) => .ok (.ok (components, found))
  | .ok (.ok (some component), after) =>
      have := left_lt step
      after.collect (components ++ [component]) (found.insert component.kind)
termination_by scanner.left

end Scanner

/-- A definition is taken apart from its first byte on. -/
def tokenize (definition : Text) : Sliced (Except Unmatched (List Component × KindSet)) :=
  (Scanner.start definition).collect [] {}

end GedcomGrammar.Component
