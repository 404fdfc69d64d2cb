import Calculator.Unicode.Whitespace

/-!
# Words

Texts as lists of characters, cut at blank characters. `trim` removes the blanks at both ends and
`nextWord?` takes off the first word.
-/

namespace Calculator.Text

open Unicode (isWhitespace)

def isBlank (s : List Char) : Bool :=
  s.all isWhitespace

def trimStart (s : List Char) : List Char :=
  s.dropWhile isWhitespace

def trimEnd (s : List Char) : List Char :=
  (trimStart s.reverse).reverse

def trim (s : List Char) : List Char :=
  trimEnd (trimStart s)

/-- The first word and the text after it, from its first character that is not blank. -/
def nextWord? (s : List Char) : Option (List Char × List Char) :=
  match trimStart s with
  | [] => none
  | c :: r =>
    some ((c :: r).takeWhile (!isWhitespace ·), trimStart ((c :: r).dropWhile (!isWhitespace ·)))

end Calculator.Text
