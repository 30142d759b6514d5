/-!
# Blank characters

The characters that separate words: Unicode white space together with the four information
separators. Trimming removes them at both ends of a text.
-/

namespace PlotGrammar.Text

/-- Whether a character only separates. -/
def isBlank (c : Char) : Bool :=
  let n := c.toNat
  (9 ≤ n && n ≤ 13) || (28 ≤ n && n ≤ 32) || n == 0x85 || n == 0xA0 || n == 0x1680 ||
    (0x2000 ≤ n && n ≤ 0x200A) || n == 0x2028 || n == 0x2029 || n == 0x202F || n == 0x205F ||
    n == 0x3000

/-- The items of a list without those at its ends that pass a test. -/
def trimWith {α : Type} (test : α → Bool) (items : List α) : List α :=
  ((items.dropWhile test).reverse.dropWhile test).reverse

/-- A text without the blanks at its ends. -/
def trim (text : String) : String :=
  String.ofList (trimWith isBlank text.toList)

/-- Whether a character is one of the blanks around a numeral in a column: the space, the tab and
the four characters that end a line or a page. -/
def isPlainBlank (c : Char) : Bool :=
  c == ' ' || (9 ≤ c.toNat && c.toNat ≤ 13)

/-- Whether a text holds nothing but blanks. -/
def allBlank (text : String) : Bool :=
  text.toList.all isBlank

end PlotGrammar.Text
