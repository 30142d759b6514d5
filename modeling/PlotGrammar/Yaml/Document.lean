import PlotGrammar.Yaml.Content
import PlotGrammar.Yaml.Layout

/-!
# Documents

A document is read in three steps: its characters into tokens, these into a tree of nodes, and the
tree into a value. A document without a tree stands for nothing.
-/

namespace PlotGrammar.Yaml

/-- Whether a document may hold a character. -/
def isReadable (c : Char) : Bool :=
  let n := c.toNat
  n == 9 || n == 10 || n == 13 || (0x20 ≤ n && n ≤ 0x7E) || n == 0x85 ||
    (0xA0 ≤ n && n ≤ 0xFFFD) || 0x10000 ≤ n

/-- Characters with one way to end a line for the usual ones. -/
def unifyLineEnds : List Char → List Char
  | [] => []
  | '\r' :: '\n' :: cs => '\n' :: unifyLineEnds cs
  | c :: cs => (if c == '\r' || c.toNat == 0x85 then '\n' else c) :: unifyLineEnds cs

/-- The characters of a document, without a mark of the byte order in front of them. -/
def characters (text : String) : Except Fault (List Char) :=
  let cs := text.toList
  if cs.all isReadable then
    .ok (unifyLineEnds (if cs.head? == some (Char.ofNat 0xFEFF) then cs.drop 1 else cs))
  else .error .unreadableCharacter

/-- The value of a document. -/
def read (text : String) : Except Fault Value := do
  let cs ← characters text
  match ← Node.ofTokens? (Token.ofText cs) with
  | some tree => do (← tree.merge).value
  | none => pure .null

end PlotGrammar.Yaml
