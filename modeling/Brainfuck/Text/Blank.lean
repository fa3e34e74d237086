/-! White space: trimming, words, and lines.
Blanks follow the Unicode property, which adds the four information separators and the
spaces of other scripts to the blanks of ASCII.
-/

namespace Brainfuck.Text

/-- White space of any script, the information separators included. -/
def isBlank (char : Char) : Bool :=
  let code := char.toNat
  (0x09 ≤ code && code ≤ 0x0d) || (0x1c ≤ code && code ≤ 0x20)
  || code == 0x85 || code == 0xa0 || code == 0x1680
  || (0x2000 ≤ code && code ≤ 0x200a)
  || code == 0x2028 || code == 0x2029 || code == 0x202f || code == 0x205f
  || code == 0x3000

/-- The characters from the first to the last that is kept, by dropping at both ends. -/
def trimBy (drops : Char → Bool) (chars : List Char) : List Char :=
  ((chars.dropWhile drops).reverse.dropWhile drops).reverse

/-- A text without the blanks at its ends. -/
def trim (text : String) : String :=
  String.ofList (trimBy isBlank text.toList)

/-- The maximal stretches of characters outside the separators, in order; the word being
read is held in reverse.
-/
def wordsFrom (separates : Char → Bool) (word : List Char) : List Char → List (List Char)
  | [] => if word.isEmpty then [] else [word.reverse]
  | char :: rest =>
      if separates char then
        if word.isEmpty then wordsFrom separates [] rest
        else word.reverse :: wordsFrom separates [] rest
      else wordsFrom separates (char :: word) rest

/-- The words of a text, which blanks separate. -/
def words (text : String) : List String :=
  (wordsFrom isBlank [] text.toList).map String.ofList

/-- The stretches between line feeds; an unfinished last line counts unless it is empty. -/
def linesFrom (line : List Char) : List Char → List (List Char)
  | [] => if line.isEmpty then [] else [line.reverse]
  | char :: rest =>
      if char = '\n' then line.reverse :: linesFrom [] rest
      else linesFrom (char :: line) rest

/-- The lines of a text, without their line feeds. -/
def lines (text : String) : List String :=
  (linesFrom [] text.toList).map String.ofList

/-- Writes every line end, a carriage return with or without a line feed, as a line feed. -/
def unifyLineEnds : List Char → List Char
  | [] => []
  | '\r' :: '\n' :: rest => '\n' :: unifyLineEnds rest
  | '\r' :: rest => '\n' :: unifyLineEnds rest
  | char :: rest => char :: unifyLineEnds rest

end Brainfuck.Text
