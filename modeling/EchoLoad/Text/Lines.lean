/-!
# Lines and words

A text is cut into lines at line feeds, and a line into words at white space.
-/

namespace EchoLoad.Text

/-- Characters that separate words: white space in the sense of Unicode. -/
def isSpace (c : Char) : Bool :=
  ('\t' ≤ c && c ≤ '\r') || c = ' ' || c = '\x85' || c = '\u00a0' || c = '\u1680' ||
    ('\u2000' ≤ c && c ≤ '\u200a') || c = '\u2028' || c = '\u2029' || c = '\u202f' ||
    c = '\u205f' || c = '\u3000'

/-- The words of a text, after the characters of the word in progress in reverse. -/
def wordsFrom (word : List Char) : List Char → List String
  | [] => if word.isEmpty then [] else [String.ofList word.reverse]
  | c :: rest =>
    if isSpace c then
      if word.isEmpty then wordsFrom [] rest else String.ofList word.reverse :: wordsFrom [] rest
    else wordsFrom (c :: word) rest

/-- The words of a text. -/
def words (text : String) : List String := wordsFrom [] text.toList

/-- A text without white space at its ends. -/
def trim (text : String) : String :=
  String.ofList ((text.toList.dropWhile isSpace).reverse.dropWhile isSpace).reverse

/-- A line without the carriage return at its end, given its characters in reverse. -/
def lineOf : List Char → String
  | '\r' :: rest => String.ofList rest.reverse
  | cs => String.ofList cs.reverse

/-- The lines of a text, after the characters of the line in progress in reverse. What follows the
last line feed is a line only if there is something. -/
def linesFrom (line : List Char) : List Char → List String
  | [] => if line.isEmpty then [] else [String.ofList line.reverse]
  | '\n' :: rest => lineOf line :: linesFrom [] rest
  | c :: rest => linesFrom (c :: line) rest

/-- The lines of a text. -/
def lines (text : String) : List String := linesFrom [] text.toList

/-- Lines as a text, each with a line feed at its end. -/
def ofLines (lines : List String) : String := String.join (lines.map fun l => l ++ "\n")

end EchoLoad.Text
