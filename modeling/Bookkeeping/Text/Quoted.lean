import Bookkeeping.Text.Unprintable

/-! # Quoted text

Double quotes around a text, with an escape for each character that has no printed form, the
double quote and the backslash. Error messages show rejected text this way.
-/
namespace Bookkeeping.Text

/-- The code point in lower-case hexadecimal, between braces. -/
def codePointEscape (c : Char) : String :=
  "\\u\x7b" ++ String.ofList (Nat.toDigits 16 c.toNat) ++ "\x7d"

def quoteChar (c : Char) : String :=
  match c with
  | '\x00' => "\\0"
  | '\t' => "\\t"
  | '\r' => "\\r"
  | '\n' => "\\n"
  | '\\' => "\\\\"
  | '"' => "\\\""
  | _ => if isUnprintable c then codePointEscape c else c.toString

def quoted (s : String) : String :=
  "\"" ++ String.join (s.toList.map quoteChar) ++ "\""

end Bookkeeping.Text
