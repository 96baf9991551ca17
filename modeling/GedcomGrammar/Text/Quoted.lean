/-
This file quotes text for messages, on one line and in visible characters only.
-/

import GedcomGrammar.Text.Hidden

namespace GedcomGrammar.Text

/-- A quotation spells a character by an escape when it delimits, breaks or hides the text. -/
def quotedChar (char : Char) : Text :=
  match char with
  | '"' => ['\\', '"']
  | '\\' => ['\\', '\\']
  | '\n' => ['\\', 'n']
  | '\r' => ['\\', 'r']
  | '\t' => ['\\', 't']
  | '\x00' => ['\\', '0']
  | _ =>
      if isHidden char then
        ['\\', 'u', '{'] ++ Nat.toDigits 16 char.toNat ++ ['}']
      else [char]

/-- A quotation stands between two double quotes. -/
def quoted (text : Text) : Text :=
  '"' :: text.flatMap quotedChar ++ ['"']

end GedcomGrammar.Text
