/-!
# Blank characters

A demangler, a configuration file and a command line all separate words by blanks. The class here
is wider than the ASCII one: it holds every Unicode space separator, the two line separators and
the byte order mark. U+0085, U+180E and U+200B are not blank.
-/

namespace CallGraph.Text

/-- The blank characters: tab to carriage return, the space separators, both Unicode line
separators and the byte order mark. -/
def isBlank (c : Char) : Bool :=
  let n := c.toNat
  (0x9 ≤ n && n ≤ 0xD) || n == 0x20 || n == 0xA0 || n == 0x1680 || (0x2000 ≤ n && n ≤ 0x200A) ||
    n == 0x2028 || n == 0x2029 || n == 0x202F || n == 0x205F || n == 0x3000 || n == 0xFEFF

/-- The characters that end a line: line feed, carriage return and the two Unicode separators. -/
def isLineBreak (c : Char) : Bool :=
  let n := c.toNat
  n == 0xA || n == 0xD || n == 0x2028 || n == 0x2029

def removeBlanks (text : List Char) : List Char :=
  text.filter fun c => !isBlank c

/-- The text without the blanks at its two ends. -/
def trim (text : List Char) : List Char :=
  ((text.dropWhile isBlank).reverse.dropWhile isBlank).reverse

theorem removeBlanks_append (a b : List Char) :
    removeBlanks (a ++ b) = removeBlanks a ++ removeBlanks b :=
  List.filter_append a b

theorem isBlank_of_mem_removeBlanks {c : Char} {text : List Char} (h : c ∈ removeBlanks text) :
    isBlank c = false := by
  simpa using (List.mem_filter.1 h).2

end CallGraph.Text
