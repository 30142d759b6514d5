import PlotGrammar.Yaml.Text

/-!
# Tokens of a document

A `Token` is a mark, a name or a scalar of a document. Columns do not appear among the tokens: where
they open or close a list or a map, a token says so.

The readers here take what begins with a sign of its own: names of nodes, tags and directives. A tag
has a handle, for which a directive may set a meaning, and a suffix.
-/

namespace PlotGrammar.Yaml

/-- A piece of a document. -/
inductive Token where
  /-- The version of the notation. -/
  | version (major minor : Nat)
  /-- What a handle of tags stands for. -/
  | handle (name meaning : String)
  | documentStart
  | documentEnd
  | openBlockList
  | openBlockMap
  | closeBlock
  | openList
  | closeList
  | openMap
  | closeMap
  /-- An item of a list follows. -/
  | item
  | comma
  /-- The key of an entry follows. -/
  | key
  /-- The value of an entry follows. -/
  | value
  /-- The node of a name stands here once more. -/
  | alias (name : String)
  /-- The next node gets a name. -/
  | anchor (name : String)
  /-- The next node gets a tag. -/
  | tag (handle suffix : String)
  | scalar (text : String) (isPlain : Bool)
  | finish
  /-- What follows are no tokens. -/
  | broken (fault : Fault)
  deriving DecidableEq

/-- Whether a character may stand in a name. -/
def isNameChar (c : Char) : Bool :=
  c.isAlphanum || c == '_' || c == '-'

/-- Whether a character may stand in a tag. Commas and brackets may do so only in one that is
written out. -/
def isTagChar (isWrittenOut : Bool) (c : Char) : Bool :=
  isNameChar c || ";/?:@&=+$.!~*'()%".toList.contains c ||
    (isWrittenOut && (c == ',' || c == '[' || c == ']'))

/-- The bytes of a tag. Every character is one byte, and a percent sign with two digits codes one.
-/
def tagBytes? : List Char → Option (List UInt8)
  | [] => some []
  | '%' :: a :: b :: cs => do
    let n ← Numeral.natural? 16 [a, b]
    pure (n.toUInt8 :: (← tagBytes? cs))
  | c :: cs => if c = '%' then none else (tagBytes? cs).map (c.toNat.toUInt8 :: ·)

namespace Cursor

/-- The name behind a sign, with the place behind the name. -/
def name (c : Cursor) : Except Fault (String × Cursor) :=
  let chars := c.takeWhile isNameChar
  let last := c.skip chars.length
  let endsHere := startsApart last.rest ||
    last.rest.head?.any ['?', ':', ',', ']', '}', '%', '@', Char.ofNat 96].contains
  if !chars.isEmpty && endsHere then .ok (String.ofList chars, last) else .error .malformedToken

/-- The characters of a tag, with the place behind them. -/
def tagText (c : Cursor) (isWrittenOut : Bool) : Except Fault (String × Cursor) :=
  let chars := c.takeWhile (isTagChar isWrittenOut)
  match (tagBytes? chars).bind fun bytes => String.fromUTF8? ⟨bytes.toArray⟩ with
  | some text => .ok (text, c.skip chars.length)
  | none => .error .malformedToken

/-- The handle of a tag: an exclamation mark, and perhaps a name with another one. -/
def tagHandle (c : Cursor) : String × Cursor :=
  let name := c.next.takeWhile isNameChar
  let last := c.next.skip name.length
  if last.isAt '!' then (String.ofList ('!' :: name ++ ['!']), last.next) else ("!", c.next)

/-- The tag that starts with an exclamation mark, with the place behind it. -/
def tag (c : Cursor) (inFlow : Bool) : Except Fault (Token × Cursor) := do
  let (token, last) ←
    if c.next.isAt '<' then do
      let (text, last) ← (c.skip 2).tagText true
      if text.isEmpty || !last.isAt '>' then throw .malformedToken
      else pure (Token.tag "" text, last.next)
    else do
      let (handle, next) := c.tagHandle
      let (text, last) ← next.tagText false
      if text.isEmpty then
        -- The mark alone is a tag of its own.
        if handle == "!" then pure (Token.tag "" "!", last) else throw .malformedToken
      else pure (Token.tag handle text, last)
  if startsApart last.rest || (inFlow && last.isAt ',') then pure (token, last)
  else throw .malformedToken

/-- One of the two numbers of a version, with the place behind it. -/
def versionNumber (c : Cursor) : Except Fault (Nat × Cursor) :=
  let digits := c.takeWhile Char.isDigit
  match Numeral.natural? 10 digits with
  | some n => if digits.length ≤ 9 then .ok (n, c.skip digits.length) else .error .malformedToken
  | none => .error .malformedToken

/-- What follows the name of a directive. -/
def directiveBody (c : Cursor) (name : String) : Except Fault (Token × Cursor) := do
  let c := c.skipWhile isBlank
  match name with
  | "YAML" => do
    let (major, c) ← c.versionNumber
    if !c.isAt '.' then throw .malformedToken
    else do
      let (minor, c) ← c.next.versionNumber
      pure (.version major minor, c)
  | "TAG" => do
    let (handle, next) := c.tagHandle
    if !c.isAt '!' || !next.rest.head?.any isBlank then throw .malformedToken
    else do
      let (meaning, last) ← (next.skipWhile isBlank).tagText true
      if meaning.isEmpty || !startsApart last.rest then throw .malformedToken
      else pure (.handle handle meaning, last)
  | _ => throw .malformedToken

/-- The directive that starts with a percent sign, with the place where its line ends. -/
def directive (c : Cursor) : Except Fault (Token × Cursor) := do
  let name := c.next.takeWhile isNameChar
  let next := c.next.skip name.length
  if name.isEmpty || !startsApart next.rest then throw .malformedToken
  else do
    let (token, last) ← next.directiveBody (String.ofList name)
    let last := last.skipRemark
    if last.rest.head?.any fun ch => !isLineEnd ch then throw .malformedToken
    else pure (token, last.next)

end Cursor

end PlotGrammar.Yaml
