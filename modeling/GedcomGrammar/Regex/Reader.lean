/-
This file reads regular expressions from their written form.
-/

import GedcomGrammar.Regex

namespace GedcomGrammar.Regex

/-- The smallest parts of the written form that mean something together. -/
inductive Token where
  | item (regex : Regex)
  | opening
  | closing
  | bar
  | bounds (least most : Nat)
  deriving DecidableEq

/-- The value of a hexadecimal digit. -/
def hexDigit? (char : Char) : Option Nat :=
  if char.isDigit then some (char.toNat - '0'.toNat)
  else if 'A' ≤ char ∧ char ≤ 'F' then some (char.toNat - 'A'.toNat + 10)
  else if 'a' ≤ char ∧ char ≤ 'f' then some (char.toNat - 'a'.toNat + 10)
  else none

/-- The character that stands after a backslash, as itself or as two hexadecimal digits. -/
def escape? : Text → Option (Char × Text)
  | 'x' :: high :: low :: rest => do
      let sixteens ← hexDigit? high
      let ones ← hexDigit? low
      some (Char.ofNat (16 * sixteens + ones), rest)
  | char :: rest => if isMeta char then some (char, rest) else none
  | [] => none

/-- One end of a range in a set. -/
def member? : Text → Option (Char × Text)
  | '\\' :: rest => escape? rest
  | char :: rest => if isMeta char then none else some (char, rest)
  | [] => none

/-- A range of a set, which may have a single character. -/
def range? (text : Text) : Option ((Char × Char) × Text) :=
  match member? text with
  | none => none
  | some (low, '-' :: rest) =>
      match member? rest with
      | none => none
      | some (high, rest) => if low ≤ high then some ((low, high), rest) else none
  | some (only, rest) => some ((only, only), rest)

theorem escape?_length_lt {text rest : Text} {char : Char}
    (found : escape? text = some (char, rest)) : rest.length < text.length := by
  unfold escape? at found
  split at found
  · simp only [Option.bind_eq_bind, Option.bind_eq_some_iff, Option.some.injEq, Prod.mk.injEq]
      at found
    obtain ⟨_, _, _, _, _, rfl⟩ := found
    simp only [List.length_cons]
    omega
  · split at found
    · simp only [Option.some.injEq, Prod.mk.injEq] at found
      simp [found.2]
    · simp at found
  · simp at found

theorem member?_length_lt {text rest : Text} {char : Char}
    (found : member? text = some (char, rest)) : rest.length < text.length := by
  unfold member? at found
  split at found
  · have shorter := escape?_length_lt found
    simp only [List.length_cons]
    omega
  · split at found
    · simp at found
    · simp only [Option.some.injEq, Prod.mk.injEq] at found
      simp [found.2]
  · simp at found

theorem range?_length_lt {text rest : Text} {range : Char × Char}
    (found : range? text = some (range, rest)) : rest.length < text.length := by
  unfold range? at found
  split at found
  · simp at found
  · rename_i first
    have shorter := member?_length_lt first
    split at found
    · simp at found
    · rename_i second
      have shorterStill := member?_length_lt second
      split at found
      · simp only [Option.some.injEq, Prod.mk.injEq] at found
        rw [List.length_cons] at shorter
        rw [← found.2]
        omega
      · simp at found
  · rename_i first
    have shorter := member?_length_lt first
    simp only [Option.some.injEq, Prod.mk.injEq] at found
    rw [← found.2]
    exact shorter

/-- The ranges of a set and the text after its closing bracket. -/
def ranges? (text : Text) : Option (List (Char × Char) × Text) :=
  match step : range? text with
  | none => none
  | some (range, ']' :: rest) => some ([range], rest)
  | some (range, rest) =>
      have := range?_length_lt step
      (ranges? rest).map fun ranges => (range :: ranges.1, ranges.2)
termination_by text.length

/-- A set after its opening bracket. -/
def set? : Text → Option (Token × Text)
  | '^' :: rest => (ranges? rest).map fun ranges => (.item (.set true ranges.1), ranges.2)
  | text => (ranges? text).map fun ranges => (.item (.set false ranges.1), ranges.2)

/-- The bounds of a repetition after its opening brace. -/
def bounds? (text : Text) : Option (Token × Text) :=
  let least := text.takeWhile Char.isDigit
  match text.dropWhile Char.isDigit with
  | ',' :: text =>
      let most := text.takeWhile Char.isDigit
      match text.dropWhile Char.isDigit with
      | '}' :: rest =>
          if least ≠ [] ∧ most ≠ [] then
            some (.bounds (Nat.ofDigitChars 10 least 0) (Nat.ofDigitChars 10 most 0), rest)
          else none
      | _ => none
  | _ => none

/-- The token that starts with a character, and the text after the token. -/
def token? (char : Char) (rest : Text) : Option (Token × Text) :=
  match char with
  | '(' =>
      match rest with
      | '?' :: ':' :: rest => some (.opening, rest)
      | _ => some (.opening, rest)
  | ')' => some (.closing, rest)
  | '|' => some (.bar, rest)
  | '^' => some (.item .start, rest)
  | '$' => some (.item .finish, rest)
  | '[' => set? rest
  | '{' => bounds? rest
  | '\\' => (escape? rest).map fun escaped => (.item (.single escaped.1), escaped.2)
  | '.' => none
  | '*' => none
  | '+' => none
  | '?' => none
  | char => some (.item (.single char), rest)

theorem ranges?_length_lt {text rest : Text} {ranges : List (Char × Char)}
    (found : ranges? text = some (ranges, rest)) : rest.length < text.length := by
  fun_induction ranges? text generalizing ranges rest with
  | case1 text missing => simp at found
  | case2 text range after last =>
      have shorter := range?_length_lt last
      rw [List.length_cons] at shorter
      simp only [Option.some.injEq, Prod.mk.injEq] at found
      rw [← found.2]
      omega
  | case3 text range after step continues shorter inductionHypothesis =>
      obtain ⟨⟨tail, final⟩, found, same⟩ := Option.map_eq_some_iff.mp found
      rw [← (Prod.mk.inj same).2]
      exact Nat.lt_trans (inductionHypothesis found) shorter

theorem set?_length_lt {text rest : Text} {token : Token}
    (found : set? text = some (token, rest)) : rest.length < text.length := by
  unfold set? at found
  split at found
  · obtain ⟨⟨ranges, after⟩, found, same⟩ := Option.map_eq_some_iff.mp found
    rw [← (Prod.mk.inj same).2, List.length_cons]
    exact Nat.lt_succ_of_lt (ranges?_length_lt found)
  · obtain ⟨⟨ranges, after⟩, found, same⟩ := Option.map_eq_some_iff.mp found
    rw [← (Prod.mk.inj same).2]
    exact ranges?_length_lt found

theorem bounds?_length_lt {text rest : Text} {token : Token}
    (found : bounds? text = some (token, rest)) : rest.length < text.length := by
  unfold bounds? at found
  dsimp only at found
  split at found
  · rename_i after comma
    have first := (List.dropWhile_suffix (l := text) Char.isDigit).length_le
    rw [comma, List.length_cons] at first
    split at found
    · rename_i brace
      have second := (List.dropWhile_suffix (l := after) Char.isDigit).length_le
      rw [brace, List.length_cons] at second
      split at found
      · simp only [Option.some.injEq, Prod.mk.injEq] at found
        rw [← found.2]
        omega
      · simp at found
    · simp at found
  · simp at found

/-- A token leaves less text than it was read from. -/
theorem token?_length_le {char : Char} {text rest : Text} {token : Token}
    (found : token? char text = some (token, rest)) : rest.length ≤ text.length := by
  unfold token? at found
  split at found
  · split at found
    · simp only [Option.some.injEq, Prod.mk.injEq] at found
      simp only [← found.2, List.length_cons]
      omega
    · simp only [Option.some.injEq, Prod.mk.injEq] at found
      simp [found.2]
  case h_6 => exact Nat.le_of_lt (set?_length_lt found)
  case h_7 => exact Nat.le_of_lt (bounds?_length_lt found)
  case h_8 =>
    obtain ⟨⟨escaped, after⟩, found, same⟩ := Option.map_eq_some_iff.mp found
    rw [← (Prod.mk.inj same).2]
    exact Nat.le_of_lt (escape?_length_lt found)
  all_goals simp at found
  all_goals simp [found.2]

/-- The tokens of a written regular expression. -/
def tokens? : Text → Option (List Token)
  | [] => some []
  | char :: rest =>
      match step : token? char rest with
      | none => none
      | some (token, after) =>
          have := token?_length_le step
          (tokens? after).map (token :: ·)
termination_by text => text.length

/-- An open group has complete alternatives and the items of one more, each latest first. -/
structure Frame where
  complete : List Regex := []
  items : List Regex := []
  deriving DecidableEq

/-- Items one after another, latest first. -/
def concat : List Regex → Regex
  | [] => .empty
  | last :: items => .sequence (concat items) last

/-- Alternatives to a last one, latest first. -/
def anyOf (last : Regex) : List Regex → Regex
  | [] => last
  | previous :: earlier => .either (anyOf previous earlier) last

namespace Frame

def push (frame : Frame) (item : Regex) : Frame :=
  { frame with items := item :: frame.items }

/-- A bar completes an alternative. -/
def next (frame : Frame) : Frame :=
  ⟨concat frame.items :: frame.complete, []⟩

def regex (frame : Frame) : Regex :=
  anyOf (concat frame.items) frame.complete

end Frame

/-- The regular expression of tokens, in a group that is open within others. -/
def parse? (frame : Frame) (outer : List Frame) : List Token → Option Regex
  | [] => if outer = [] then some frame.regex else none
  | .item item :: rest => parse? (frame.push item) outer rest
  | .opening :: rest => parse? {} (frame :: outer) rest
  | .closing :: rest =>
      match outer with
      | [] => none
      | next :: outer => parse? (next.push frame.regex) outer rest
  | .bar :: rest => parse? frame.next outer rest
  | .bounds least most :: rest =>
      match frame.items with
      | [] => none
      | last :: items =>
          if least ≤ most then
            parse? { frame with items := .repeated last least most :: items } outer rest
          else none

/-- The regular expression of a text. -/
def ofText? (text : Text) : Option Regex :=
  (tokens? text).bind (parse? {} [])

end GedcomGrammar.Regex
