import Chronicle.Text.Extending
import Chronicle.Text.Unprintable

/-!
# Quoted text

Text between double quotes, in which every character that would not be seen as itself is
escaped: the quote and the backslash, what shows nothing, what is drawn onto another character.
-/

namespace Chronicle.Text

def isHidden (c : Char) : Bool := isExtending c || isUnprintable c

def escapeVisible (c : Char) : List Char :=
  match c with
  | '"' => ['\\', '"']
  | '\\' => ['\\', '\\']
  | '\x00' => ['\\', '0']
  | '\n' => ['\\', 'n']
  | '\r' => ['\\', 'r']
  | '\t' => ['\\', 't']
  | c =>
      if isHidden c then
        ['\\', 'u', '\x7b'] ++ Nat.toDigits 16 c.toNat ++ ['\x7d']
      else [c]

def quoted (text : String) : String :=
  "\"" ++ String.ofList (text.toList.flatMap escapeVisible) ++ "\""

end Chronicle.Text
