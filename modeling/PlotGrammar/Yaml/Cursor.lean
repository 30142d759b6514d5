/-!
# Places in a document

A `Cursor` is what remains of a document and where that begins: its line, its column, and the number
of characters in front of it.

A document has three kinds of line end, of which `\n` is the common one. Blanks are spaces and tabs;
blanks and line ends separate.
-/

namespace PlotGrammar.Yaml

/-- Whether a character ends a line. -/
def isLineEnd (c : Char) : Bool :=
  c == '\n' || c.toNat == 0x2028 || c.toNat == 0x2029

/-- Whether a character is a blank within a line. -/
def isBlank (c : Char) : Bool :=
  c == ' ' || c == '\t'

/-- Whether a character separates. -/
def isSeparator (c : Char) : Bool :=
  isBlank c || isLineEnd c

/-- Whether a character stands for part of a list or a map between brackets. -/
def isFlowMark (c : Char) : Bool :=
  [',', '[', ']', '{', '}'].contains c

/-- Whether what remains begins with a separation; the end of a document separates, too. -/
def startsApart (cs : List Char) : Bool :=
  !cs.head?.any fun c => !isSeparator c

/-- What remains of a document, and where it begins. -/
structure Cursor where
  rest : List Char
  line : Nat
  column : Nat
  /-- The number of characters in front. -/
  passed : Nat

namespace Cursor

/-- The place where a document begins. -/
def start (cs : List Char) : Cursor :=
  ⟨cs, 0, 0, 0⟩

/-- The place behind the next character. -/
def next (c : Cursor) : Cursor :=
  match c.rest with
  | [] => c
  | ch :: rest =>
    if isLineEnd ch then ⟨rest, c.line + 1, 0, c.passed + 1⟩
    else ⟨rest, c.line, c.column + 1, c.passed + 1⟩

/-- The place behind so many characters. -/
def skip : Nat → Cursor → Cursor
  | 0, c => c
  | n + 1, c => skip n c.next

/-- The place behind the characters that pass a test. -/
def skipWhile (test : Char → Bool) (c : Cursor) : Cursor :=
  c.skip (c.rest.takeWhile test).length

/-- The next characters that pass a test. -/
def takeWhile (test : Char → Bool) (c : Cursor) : List Char :=
  c.rest.takeWhile test

/-- Whether the next character is the given one. -/
def isAt (c : Cursor) (ch : Char) : Bool :=
  c.rest.head? == some ch

/-- Whether the next character is the given one and a separation follows it. -/
def isAtLone (c : Cursor) (ch : Char) : Bool :=
  c.isAt ch && startsApart (c.rest.drop 1)

/-- Whether a line starts here with three times the given character and a separation. -/
def isAtTriple (c : Cursor) (ch : Char) : Bool :=
  c.column == 0 && c.rest.take 3 == [ch, ch, ch] && startsApart (c.rest.drop 3)

/-- Whether a line starts here with the mark of a document. -/
def isAtDocumentMark (c : Cursor) : Bool :=
  c.isAtTriple '-' || c.isAtTriple '.'

/-- The place behind blanks and a comment, at the end of the line if nothing else stands there. -/
def skipRemark (c : Cursor) : Cursor :=
  let c := c.skipWhile isBlank
  if c.isAt '#' then c.skipWhile fun ch => !isLineEnd ch else c

end Cursor

end PlotGrammar.Yaml
