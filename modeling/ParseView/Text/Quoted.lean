import ParseView.Text.Combining
import ParseView.Text.Invisible

/-! Texts in quotation marks, with every character that has no shape of its own written
as an escape. -/

namespace ParseView

def isPrintable (character : Char) : Bool :=
  !isInvisible character && !isCombining character

namespace Quoted

def quoteChar : Char → List Char
  | '"' => ['\\', '"']
  | '\\' => ['\\', '\\']
  | '\n' => ['\\', 'n']
  | '\r' => ['\\', 'r']
  | '\t' => ['\\', 't']
  | '\x00' => ['\\', '0']
  | other =>
      if isPrintable other then [other]
      else ['\\', 'u', '\x7b'] ++ Nat.toDigits 16 other.toNat ++ ['\x7d']

def quote (text : String) : String :=
  String.ofList ('"' :: text.toList.flatMap quoteChar ++ ['"'])

end Quoted

end ParseView
