/-!
Contract: blank characters and the trimming of texts.

Owns: the class of blank characters, `trimmed`, which drops them at both ends, and `lowered`, which
lowers letters of the basic alphabet and leaves every other character alone.

Does not own: what a trimmed text means.
-/

namespace TensorEngine.Text

def blankRanges : List (Nat × Nat) :=
  [(9, 13), (32, 32), (133, 133), (160, 160), (5760, 5760), (8192, 8202), (8232, 8233),
    (8239, 8239), (8287, 8287), (12288, 12288)]

def isBlank (character : Char) : Bool :=
  blankRanges.any fun range => decide (range.1 ≤ character.toNat ∧ character.toNat ≤ range.2)

def trimmed (text : String) : String :=
  String.ofList (((text.toList.dropWhile isBlank).reverse.dropWhile isBlank).reverse)

def lowered (text : String) : String :=
  text.map Char.toLower

end TensorEngine.Text
