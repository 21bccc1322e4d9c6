import Qml.Text.Ranges

/-! # Blank characters

White space between tokens, by the Unicode property `White_Space`. The line
feed is blank too; that it also starts a new line is counted elsewhere. -/

namespace Qml.Text

def blankRanges : Ranges := .ofPairs
  [(0x9, 0xd), (0x20, 0x20), (0x85, 0x85), (0xa0, 0xa0), (0x1680, 0x1680), (0x2000, 0x200a),
   (0x2028, 0x2029), (0x202f, 0x202f), (0x205f, 0x205f), (0x3000, 0x3000)]

/-- Whether a character has the Unicode property `White_Space`. -/
def isBlank (c : Char) : Bool :=
  blankRanges.contains c

def trim (text : String) : String :=
  String.ofList ((text.toList.dropWhile isBlank).reverse.dropWhile isBlank).reverse

end Qml.Text
