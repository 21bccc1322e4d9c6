import Qml.Text.GraphemeExtend
import Qml.Text.Printable

/-! # Quoted text

Two ways to put a text between double quotes. Diagnostics make every character
of it visible; script literals escape only what the lexer would not read back
as itself. -/

namespace Qml.Text

def quotationMark : Char := '\x22'

def hexadecimal (c : Char) : List Char :=
  Nat.toDigits 16 c.toNat

def showCharacter (c : Char) : List Char :=
  if c = quotationMark then ['\\', quotationMark]
  else if c = '\\' then ['\\', '\\']
  else if c = '\n' then ['\\', 'n']
  else if c = '\r' then ['\\', 'r']
  else if c = '\t' then ['\\', 't']
  else if c = '\x00' then ['\\', '0']
  else if extendsGrapheme c || !isPrintable c then
    ['\\', 'u', '\x7b'] ++ hexadecimal c ++ ['\x7d']
  else [c]

def shown (text : String) : String :=
  String.ofList (quotationMark :: (text.toList.flatMap showCharacter ++ [quotationMark]))

def literalCharacter (c : Char) : List Char :=
  if c = quotationMark then ['\\', quotationMark]
  else if c = '\\' then ['\\', '\\']
  else if c = '\n' then ['\\', 'n']
  else if c = '\r' then ['\\', 'r']
  else if c = '\t' then ['\\', 't']
  else [c]

/-- A script string literal whose value is the given text. -/
def literal (text : List Char) : List Char :=
  quotationMark :: (text.flatMap literalCharacter ++ [quotationMark])

end Qml.Text
