import Uplink.Text.Unprintable

/-!
# Quoted text in messages

A message that shows a value it received writes it between quotation marks, so that the reader sees
where the value begins and ends and which invisible characters it holds.
-/

namespace Uplink
namespace Text

/-- The hexadecimal digits of a number, lower case, without leading zeros. -/
def hexDigits (n : Nat) : List Char :=
  Nat.toDigits 16 n

/-- One character inside a quoted text. -/
def quoteChar (c : Char) : List Char :=
  if c = '"' then ['\\', '"']
  else if c = '\\' then ['\\', '\\']
  else if c = '\n' then ['\\', 'n']
  else if c = '\r' then ['\\', 'r']
  else if c = '\t' then ['\\', 't']
  else if c = Char.ofNat 0 then ['\\', '0']
  else if isUnprintable c then ['\\', 'u', '\x7b'] ++ hexDigits c.toNat ++ ['\x7d']
  else [c]

/-- A text between quotation marks, each character shown as `quoteChar` says. -/
def quoted (text : String) : String :=
  String.ofList ('"' :: (text.toList.flatMap quoteChar ++ ['"']))

end Text
end Uplink
