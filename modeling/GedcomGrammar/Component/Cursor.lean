/-
This file takes a definition apart into components, from left to right.
-/

import GedcomGrammar.Component
import GedcomGrammar.Text.Decimal
import GedcomGrammar.Text.Quoted

namespace GedcomGrammar.Component

/-- A reference needs a nonempty name and its closing delimiter. -/
def enclosed? (kind : Kind) (closer : Char) (text : Text) : Option (Component × Text) :=
  match text.takeWhile (· != closer), text.dropWhile (· != closer) with
  | _ :: _, _ :: rest => some (⟨kind, text.takeWhile (· != closer)⟩, rest)
  | _, _ => none

/-- Literal text runs up to the next character that opens a reference. -/
def isPlain (char : Char) : Bool :=
  (Kind.opened? char).isNone

/-- The first component of a text and the text after it. -/
def leading? : Text → Option (Component × Text)
  | [] => none
  | head :: rest =>
      match Kind.opened? head with
      | none => some (⟨.literal, head :: rest.takeWhile isPlain⟩, rest.dropWhile isPlain)
      | some (kind, closer) => enclosed? kind closer rest

theorem enclosed?_length_lt {kind : Kind} {closer : Char} {text rest : Text}
    {component : Component} (found : enclosed? kind closer text = some (component, rest)) :
    rest.length < text.length := by
  have bound := (List.dropWhile_suffix (l := text) (· != closer)).length_le
  unfold enclosed? at found
  split at found
  · rename_i dropped
    simp only [Option.some.injEq, Prod.mk.injEq] at found
    rw [dropped, List.length_cons, found.2] at bound
    omega
  · simp at found

/-- A component takes at least one character. -/
theorem leading?_length_lt {text rest : Text} {component : Component}
    (found : leading? text = some (component, rest)) : rest.length < text.length := by
  unfold leading? at found
  split at found
  · simp at found
  · rename_i head tail
    split at found
    · have bound := (List.dropWhile_suffix (l := tail) isPlain).length_le
      simp only [Option.some.injEq, Prod.mk.injEq] at found
      rw [← found.2, List.length_cons]
      omega
    · have shorter := enclosed?_length_lt found
      rw [List.length_cons]
      omega

/-- The place, counted in bytes, at which no component of a definition begins. -/
structure Unmatched where
  offset : Nat
  definition : Text
  deriving DecidableEq

def Unmatched.message (error : Unmatched) : Text :=
  "No component matches at offset ".toList ++ Text.decimal error.offset ++ " of ".toList ++
    Text.quoted error.definition

/-- A place in a definition, with the text that is still to be read. -/
structure Cursor where
  definition : Text
  offset : Nat
  rest : Text
  deriving DecidableEq

namespace Cursor

def start (definition : Text) : Cursor :=
  ⟨definition, 0, definition⟩

def error (cursor : Cursor) : Unmatched :=
  ⟨cursor.offset, cursor.definition⟩

/-- The next component and the place after it, or nothing at the end. -/
def next (cursor : Cursor) : Except Unmatched (Option (Component × Cursor)) :=
  match cursor.rest with
  | [] => .ok none
  | _ =>
      match leading? cursor.rest with
      | none => .error cursor.error
      | some (component, rest) =>
          .ok (some (component,
            { cursor with offset := cursor.offset + Text.utf8Length component.text, rest }))

theorem next_length_lt {cursor after : Cursor} {component : Component}
    (found : cursor.next = .ok (some (component, after))) :
    after.rest.length < cursor.rest.length := by
  unfold next at found
  split at found
  · simp at found
  · split at found
    · simp at found
    · rename_i leading
      simp only [Except.ok.injEq, Option.some.injEq, Prod.mk.injEq] at found
      rw [← found.2]
      exact leading?_length_lt leading

/-- All components from a place to the end of its definition. -/
def remaining (cursor : Cursor) : Except Unmatched (List Component) :=
  match step : cursor.next with
  | .error error => .error error
  | .ok none => .ok []
  | .ok (some (component, after)) =>
      have := next_length_lt step
      match after.remaining with
      | .error error => .error error
      | .ok components => .ok (component :: components)
termination_by cursor.rest.length

/-- The answers of repeated steps; the place stays where it is at an error and at the end. -/
def steps : Nat → Cursor → List (Except Unmatched (Option Component))
  | 0, _ => []
  | count + 1, cursor =>
      match cursor.next with
      | .error error => .error error :: steps count cursor
      | .ok none => .ok none :: steps count cursor
      | .ok (some (component, after)) => .ok (some component) :: steps count after

end Cursor

/-- The components of a definition. -/
def ofDefinition (definition : Text) : Except Unmatched (List Component) :=
  (Cursor.start definition).remaining

end GedcomGrammar.Component
