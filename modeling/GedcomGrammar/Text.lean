/-
This file fixes how grammar text is held and the ways it is cut into parts.
-/

namespace GedcomGrammar

/-- Text is a list of Unicode scalars, so its length counts characters. -/
abbrev Text := List Char

namespace Text

/-- The text after `lead`, when the text starts with it. -/
def dropLead? (lead text : Text) : Option Text :=
  lead.isPrefixOf? text

/-- The text before `tail`, when the text ends with it. -/
def dropTail? (tail text : Text) : Option Text :=
  (tail.reverse.isPrefixOf? text.reverse).map List.reverse

/-- Every final character in the class is removed. -/
def trimEnd (removed : Char → Bool) (text : Text) : Text :=
  (text.reverse.dropWhile removed).reverse

/-- Every outer character in the class is removed, at both ends. -/
def trim (removed : Char → Bool) (text : Text) : Text :=
  trimEnd removed (text.dropWhile removed)

/-- The parts before and after the first occurrence of a separator, which must not be empty. -/
def cut? (separator : Text) : Text → Option (Text × Text)
  | [] => none
  | head :: rest =>
      match separator.isPrefixOf? (head :: rest) with
      | some after => some ([], after)
      | none => (cut? separator rest).map fun parts => (head :: parts.1, parts.2)

/-- Parts are written one after another with a separator between neighbours. -/
def joinWith (separator : Text) (parts : List Text) : Text :=
  separator.intercalate parts

/-- A line ends at a line feed, and a final line feed opens no further line. -/
def lines (text : Text) : List Text :=
  let pieces := text.splitOn '\n'
  if pieces.getLast? = some [] then pieces.dropLast else pieces

/-- Carriage returns and line feeds at the end of a line are no part of it. -/
def withoutLineEnd (line : Text) : Text :=
  trimEnd (fun char => char == '\n' || char == '\r') line

/-- The number of bytes that the text takes in UTF-8. -/
def utf8Length (text : Text) : Nat :=
  text.foldr (fun char length => char.utf8Size + length) 0

/-- A line is added below the text, and an empty text takes it as it is. -/
def addLine (text line : Text) : Text :=
  if text = [] then line else text ++ '\n' :: line

end Text

end GedcomGrammar
