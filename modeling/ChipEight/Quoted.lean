import ChipEight.Hex
import ChipEight.Printable

/-! A character between single quotes. What could be mistaken or cannot be seen is written with a
backslash, a character without a letter of its own by its number in braces. -/
namespace ChipEight

def quoteBody (c : Char) : List Char :=
  if c = '\x00' then ['\\', '0']
  else if c = '\t' then ['\\', 't']
  else if c = '\n' then ['\\', 'n']
  else if c = '\r' then ['\\', 'r']
  else if c = '\x27' then ['\\', '\x27']
  else if c = '\\' then ['\\', '\\']
  else if isPrintable c then [c]
  else ['\\', 'u', '\x7b'] ++ Nat.toDigits 16 c.toNat ++ ['\x7d']

def quoteChar (c : Char) : String := String.ofList (['\x27'] ++ quoteBody c ++ ['\x27'])

end ChipEight
