import Recurrence.Text.Printable

/-!
# Quoted texts

`quote` writes a text between double quotes for a message. A quotation mark and a backslash get a
backslash in front, NUL, tab, line feed and carriage return have letters of their own, and any
other character that is not printable is written as its code point in hexadecimal digits between
braces.
-/

namespace Recurrence.Text

def codePoint (c : Char) : List Char :=
  "\\u\x7b".toList ++ Nat.toDigits 16 c.toNat ++ ['\x7d']

def quoteChar (c : Char) : List Char :=
  match c with
  | '\x00' => ['\\', '0']
  | '\t' => ['\\', 't']
  | '\n' => ['\\', 'n']
  | '\r' => ['\\', 'r']
  | '"' => ['\\', '"']
  | '\\' => ['\\', '\\']
  | c => if isPrintable c then [c] else codePoint c

def quote (s : String) : String := String.ofList ('"' :: s.toList.flatMap quoteChar ++ ['"'])

end Recurrence.Text
