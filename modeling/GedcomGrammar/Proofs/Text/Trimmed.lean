/-
This file proves that trimming keeps exactly the text between the outer characters of a class.
-/

import GedcomGrammar.Text
import Mathlib.Data.List.DropRight
import Mathlib.Tactic

namespace GedcomGrammar.Text

variable {removed : Char → Bool}

/-- A trimmed text neither starts nor ends with a character of the class. -/
structure Trimmed (removed : Char → Bool) (text : Text) : Prop where
  head : ∀ char, text.head? = some char → removed char = false
  last : ∀ char, text.getLast? = some char → removed char = false

theorem prefix_trimEnd (text : Text) : trimEnd removed text <+: text :=
  text.rdropWhile_prefix removed

theorem trimEnd_trimEnd (text : Text) :
    trimEnd removed (trimEnd removed text) = trimEnd removed text :=
  List.rdropWhile_idempotent removed text

theorem trim_infix (text : Text) : trim removed text <:+: text :=
  (prefix_trimEnd _).isInfix.trans (text.dropWhile_suffix removed).isInfix

theorem trimEnd_eq_self {text : Text}
    (last : ∀ char, text.getLast? = some char → removed char = false) :
    trimEnd removed text = text := by
  apply List.rdropWhile_eq_self_iff.mpr
  intro nonempty
  rw [last _ (List.getLast?_eq_some_getLast nonempty)]
  exact Bool.false_ne_true

theorem getLast?_trimEnd {text : Text} {char : Char}
    (last : (trimEnd removed text).getLast? = some char) : removed char = false := by
  have nonempty : trimEnd removed text ≠ [] := by
    intro empty
    simp [empty] at last
  have kept := List.rdropWhile_last_not removed text nonempty
  rw [List.getLast?_eq_some_getLast nonempty, Option.some.injEq] at last
  rw [← last]
  exact eq_false_of_ne_true kept

theorem dropWhile_eq_self {text : Text}
    (head : ∀ char, text.head? = some char → removed char = false) :
    text.dropWhile removed = text := by
  cases text with
  | nil => rfl
  | cons first rest => simp [head first rfl]

theorem head?_dropWhile {text : Text} {char : Char}
    (head : (text.dropWhile removed).head? = some char) : removed char = false := by
  have kept := List.head?_dropWhile_not removed text
  simpa [head] using kept

theorem trim_of_trimmed {text : Text} (trimmed : Trimmed removed text) :
    trim removed text = text := by
  rw [trim, dropWhile_eq_self trimmed.head, trimEnd_eq_self trimmed.last]

theorem trimmed_trim (text : Text) : Trimmed removed (trim removed text) where
  head := by
    intro char head
    obtain ⟨rest, joined⟩ : trimEnd removed (text.dropWhile removed) <+: text.dropWhile removed :=
      prefix_trimEnd _
    apply @head?_dropWhile _ text
    rw [← joined]
    rw [trim] at head
    simp [head]
  last := fun char last => getLast?_trimEnd last

theorem dropWhile_eq_nil {text : Text} (all : ∀ char ∈ text, removed char = true) :
    text.dropWhile removed = [] := by
  rw [List.dropWhile_eq_nil_iff]
  exact all

theorem trimEnd_append {text tail : Text} (all : ∀ char ∈ tail, removed char = true) :
    trimEnd removed (text ++ tail) = trimEnd removed text := by
  rw [trimEnd, List.reverse_append,
    List.dropWhile_append_of_pos (by simpa using all), trimEnd]

/-- Outer characters of the class are removed, and a trimmed text inside them stays. -/
theorem trim_append {text : Text} (lead tail : Text) (trimmed : Trimmed removed text)
    (leading : ∀ char ∈ lead, removed char = true)
    (trailing : ∀ char ∈ tail, removed char = true) :
    trim removed (lead ++ text ++ tail) = text := by
  rw [trim, List.append_assoc, List.dropWhile_append_of_pos leading]
  by_cases empty : text = []
  · rw [empty, List.nil_append, dropWhile_eq_nil trailing]
    rfl
  · have kept : (text ++ tail).dropWhile removed = text ++ tail := by
      apply dropWhile_eq_self
      intro char head
      apply trimmed.head
      rwa [List.head?_append_of_ne_nil _ empty] at head
    rw [kept, trimEnd_append trailing, trimEnd_eq_self trimmed.last]

/-- A run of accepted items ends before the first one that is not accepted. -/
theorem takeWhile_append_cons {Item : Type} {accepted : Item → Bool} {lead : List Item}
    {stop : Item} (rest : List Item) (leading : ∀ item ∈ lead, accepted item = true)
    (stops : accepted stop = false) : (lead ++ stop :: rest).takeWhile accepted = lead := by
  rw [List.takeWhile_append_of_pos leading, List.takeWhile_cons_of_neg (by simp [stops]),
    List.append_nil]

theorem dropWhile_append_cons {Item : Type} {accepted : Item → Bool} {lead : List Item}
    {stop : Item} (rest : List Item) (leading : ∀ item ∈ lead, accepted item = true)
    (stops : accepted stop = false) : (lead ++ stop :: rest).dropWhile accepted = stop :: rest := by
  rw [List.dropWhile_append_of_pos leading, List.dropWhile_cons_of_neg (by simp [stops])]

/-- A run that ends before an item goes on over another one only if it has not ended yet. -/
theorem takeWhile_ne_concat {Item : Type} [DecidableEq Item] (stop : Item) (items : List Item)
    (item : Item) :
    (items ++ [item]).takeWhile (· ≠ stop) =
      items.takeWhile (· ≠ stop) ++ if stop ∈ items ++ [item] then [] else [item] := by
  induction items with
  | nil =>
      by_cases same : item = stop
      · simp [same]
      · simp [same, Ne.symm same]
  | cons head rest inductionHypothesis =>
      by_cases same : head = stop
      · simp [same]
      · have passed : stop ∈ head :: (rest ++ [item]) ↔ stop ∈ rest ++ [item] := by
          simp [Ne.symm same]
        rw [List.cons_append, List.takeWhile_cons_of_pos (by simpa using same),
          inductionHypothesis, List.takeWhile_cons_of_pos (by simpa using same),
          if_congr passed rfl rfl, List.cons_append]

end GedcomGrammar.Text
