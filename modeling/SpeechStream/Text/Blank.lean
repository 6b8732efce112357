/-!
Blank characters and line breaks of text files.

A character is blank when Unicode gives it the white-space property used by the usual
"split on white space" and "strip" operations: the ASCII controls tab to carriage return,
the information separators U+001C to U+001F, the space separators and the line and paragraph
separators. The zero-width space U+200B and the byte-order mark U+FEFF are not blank.

Lines of a file end at a line feed, a carriage return followed by a line feed, or a lone
carriage return, and nowhere else.
-/

set_option autoImplicit false

namespace SpeechStream.Text

/-- The blank characters: the white-space property of Unicode 14. -/
def isBlank (c : Char) : Bool :=
  let n := c.toNat
  (0x09 ≤ n && n ≤ 0x0D) || (0x1C ≤ n && n ≤ 0x20) || n == 0x85 || n == 0xA0 ||
    n == 0x1680 || (0x2000 ≤ n && n ≤ 0x200A) || n == 0x2028 || n == 0x2029 ||
    n == 0x202F || n == 0x205F || n == 0x3000

/-- Drops blank characters from both ends. -/
def stripBlank (s : String) : String :=
  String.ofList ((s.toList.dropWhile isBlank).reverse.dropWhile isBlank).reverse

/-- Splits a list of characters into the maximal runs of non-blank characters. -/
def wordsOf (cs : List Char) : List (List Char) :=
  (cs.splitOnP isBlank).filter (fun w => !w.isEmpty)

/-- The words of a text: its maximal runs of non-blank characters, in order. -/
def words (s : String) : List String :=
  (wordsOf s.toList).map String.ofList

/-- Cuts text into lines at a line feed, a carriage return followed by a line feed, or a
lone carriage return. The breaks are dropped; a last line without a break is kept. -/
def linesOf : List Char → List Char → List (List Char)
  | cur, [] => if cur.isEmpty then [] else [cur.reverse]
  | cur, '\r' :: '\n' :: rest => cur.reverse :: linesOf [] rest
  | cur, '\r' :: rest => cur.reverse :: linesOf [] rest
  | cur, '\n' :: rest => cur.reverse :: linesOf [] rest
  | cur, c :: rest => linesOf (c :: cur) rest

/-- The lines of a text file. -/
def lines (s : String) : List String :=
  (linesOf [] s.toList).map String.ofList

end SpeechStream.Text
