import Calculator.Settings.Sources

/-!
# Plain texts of definitions

In a plain text of definitions every line is blank, a comment or one definition, whose value can
stand between quotes. Names have no quotes, a value ends with its line, and no value refers to other
variables; definitions of another form are given as they are found.
-/

namespace Calculator

namespace Definitions

/-- The lines of a text, cut at every kind of line end. -/
def lines : List Char → List (List Char)
  | [] => [[]]
  | '\r' :: '\n' :: r => [] :: lines r
  | c :: r =>
    if c = '\n' ∨ c = '\r' then [] :: lines r
    else
      match lines r with
      | [] => [[c]]
      | l :: ls => (c :: l) :: ls

/-- The escaped characters of a value between single quotes. -/
def singleEscape? : Char → Option Char
  | '\\' => some '\\'
  | '\'' => some '\''
  | _ => none

/-- The escaped characters of a value between double quotes. -/
def doubleEscape? : Char → Option Char
  | '\\' => some '\\'
  | '\'' => some '\''
  | '"' => some '"'
  | 'a' => some '\x07'
  | 'b' => some '\x08'
  | 'f' => some '\x0c'
  | 'n' => some '\n'
  | 'r' => some '\r'
  | 't' => some '\t'
  | 'v' => some '\x0b'
  | _ => none

/-- What stands before the closing quote and after it. It is the first quote that no backslash
precedes or, where each has one, the last. -/
def cutQuoted? (mark : Char) : List Char → Option (List Char × List Char)
  | [] => none
  | '\\' :: c :: r =>
    if c = mark then
      match cutQuoted? mark r with
      | some (s, rest) => some ('\\' :: c :: s, rest)
      | none => some (['\\'], r)
    else (cutQuoted? mark (c :: r)).map fun (s, rest) => ('\\' :: s, rest)
  | c :: r =>
    if c = mark then some ([], r) else (cutQuoted? mark r).map fun (s, rest) => (c :: s, rest)

/-- A text with its escaped characters in place. -/
def unescape (escape? : Char → Option Char) : List Char → List Char
  | [] => []
  | '\\' :: c :: r =>
    match escape? c with
    | some d => d :: unescape escape? r
    | none => '\\' :: unescape escape? (c :: r)
  | c :: r => c :: unescape escape? r

/-- The value between quotes, which only a comment may follow. -/
def quoted? (escape? : Char → Option Char) (mark : Char) (s : List Char) : Option (List Char) :=
  match cutQuoted? mark s with
  | none => none
  | some (value, rest) =>
    match Text.trimStart rest with
    | [] => some (unescape escape? value)
    | '#' :: _ => some (unescape escape? value)
    | _ => none

/-- A value without quotes ends before a comment, which a blank precedes. -/
def unquoted : List Char → List Char
  | [] => []
  | c :: r =>
    if Unicode.isWhitespace c ∧ (Text.trimStart r).head? = some '#' then [] else c :: unquoted r

def value? (s : List Char) : Option (List Char) :=
  match Text.trimStart s with
  | '\'' :: r => quoted? singleEscape? '\'' r
  | '"' :: r => quoted? doubleEscape? '"' r
  | s => some (Text.trimEnd (unquoted s))

/-- The definition of a line; blank lines and comments have none. -/
def definition? (line : List Char) : Option (String × String) :=
  match Text.trim line with
  | [] => none
  | '#' :: _ => none
  | s =>
    match s.span (· != '=') with
    | (_, []) => none
    | (name, _ :: rest) =>
      (value? rest).map fun v => (String.ofList (Text.trimEnd name), String.ofList v)

/-- The definitions of a text. The last of a name comes first, as it is the one that counts. -/
def ofText (text : String) : ProcessEnvironment :=
  ((lines text.toList).filterMap definition?).reverse

end Definitions

end Calculator
