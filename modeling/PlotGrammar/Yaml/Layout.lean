import PlotGrammar.Yaml.Token

/-!
# The layout of a document

Columns and lines say where lists and maps without brackets begin and end, and a colon says that the
node before it was a key. A `Layout` is a document read in part: the tokens so far, the columns of
the open lists and maps, and the place where a key may have begun, its *candidate*. A key stands on
one line and has at most 1024 characters; behind that, its candidate is stale.

`Token.ofText` reads a document. A token is certain once no key can begin at it or before it, and of
a document that breaks off only the certain tokens count.
-/

namespace PlotGrammar.Yaml

/-- A place where a key may begin. -/
structure Candidate where
  /-- The number of tokens in front of it. -/
  index : Nat
  /-- Whether nothing but a key can stand there. -/
  isRequired : Bool
  place : Cursor

/-- Whether the key of a candidate cannot reach to a place. -/
def Candidate.isStale (k : Candidate) (c : Cursor) : Bool :=
  k.place.line < c.line || k.place.passed + 1024 < c.passed

/-- A document read in part. -/
structure Layout where
  cursor : Cursor
  tokens : List Token
  /-- The columns of the open lists and maps without brackets, the innermost one first. -/
  columns : List Nat
  candidate : Option Candidate
  /-- What was the candidate when a bracket opened, for each open one, the innermost one first. -/
  outer : List (Option Candidate)
  /-- Whether a key may begin at the next token. -/
  mayStartKey : Bool

namespace Layout

/-- Nothing has been read. -/
def start (cs : List Char) : Layout :=
  ⟨.start cs, [], [], none, [], true⟩

/-- Whether the place is between brackets. -/
def inFlow (l : Layout) : Bool :=
  !l.outer.isEmpty

/-- The least column of what belongs to the innermost open list or map. -/
def least (l : Layout) : Nat :=
  l.columns.head?.elim 0 (· + 1)

/-- The number of tokens that are certain. -/
def certain (l : Layout) : Nat :=
  ((l.candidate :: l.outer).filterMap fun k => k.map Candidate.index).foldl min l.tokens.length

/-- Adds a token. -/
def add (l : Layout) (t : Token) (next : Cursor) : Layout :=
  { l with tokens := l.tokens ++ [t], cursor := next }

/-- Puts a token in front of those from an index on. -/
def insert (l : Layout) (index : Nat) (t : Token) : Layout :=
  { l with tokens := l.tokens.take index ++ t :: l.tokens.drop index }

/-- A candidate after a place, which it may not be stale at if it is required. -/
def keepFresh (c : Cursor) : Option Candidate → Except Fault (Option Candidate)
  | some k =>
    if !k.isStale c then .ok (some k)
    else if k.isRequired then .error .malformedToken
    else .ok none
  | none => .ok none

/-- Drops the stale candidates. -/
def dropStale (l : Layout) : Except Fault Layout := do
  let outer ← l.outer.mapM (keepFresh l.cursor)
  let candidate ← keepFresh l.cursor l.candidate
  pure { l with candidate, outer }

/-- Drops the candidate, because what follows makes no key of it. -/
def dropCandidate (l : Layout) : Except Fault Layout :=
  if l.candidate.any Candidate.isRequired then .error .malformedToken
  else .ok { l with candidate := none }

/-- Makes the next token a candidate if a key may begin there. -/
def saveCandidate (l : Layout) : Except Fault Layout := do
  if l.mayStartKey then
    let isRequired := !l.inFlow && l.columns.head? == some l.cursor.column
    let l ← l.dropCandidate
    pure { l with candidate := some ⟨l.tokens.length, isRequired, l.cursor⟩ }
  else pure l

/-- Opens a list or a map at a column, unless one is open there already. -/
def openBlock (l : Layout) (column index : Nat) (t : Token) : Layout :=
  if !l.inFlow && decide (l.least ≤ column) then
    { l.insert index t with columns := column :: l.columns }
  else l

/-- Closes the lists and maps that fail a test on their column. -/
def closeBlocks (l : Layout) (test : Nat → Bool) : Layout :=
  if l.inFlow then l
  else
    let closed := l.columns.takeWhile fun column => !test column
    { l with
      tokens := l.tokens ++ closed.map fun _ => .closeBlock
      columns := l.columns.drop closed.length }

/-- Passes blanks, line ends and comments. A tab is a blank only where no key can begin. -/
def skipGap (inFlow : Bool) : Nat → (mayStartKey : Bool) → Cursor → Bool × Cursor
  | 0, mayStartKey, c => (mayStartKey, c)
  | fuel + 1, mayStartKey, c =>
    let c := if c.column == 0 && c.isAt (Char.ofNat 0xFEFF) then c.next else c
    let c := c.skipWhile fun ch => ch == ' ' || ((inFlow || !mayStartKey) && ch == '\t')
    let c := if c.isAt '#' then c.skipWhile fun ch => !isLineEnd ch else c
    if c.rest.head?.any isLineEnd then skipGap inFlow fuel (mayStartKey || !inFlow) c.next
    else (mayStartKey, c)

/-! ### Reading one token -/

/-- Closes everything. -/
def closeAll (l : Layout) : Except Fault Layout := do
  let l ← (l.closeBlocks fun _ => false).dropCandidate
  pure { l with mayStartKey := false }

/-- An opening bracket, which may begin a key. -/
def openFlow (l : Layout) (t : Token) : Except Fault Layout := do
  let l ← l.saveCandidate
  let l := l.add t l.cursor.next
  pure { l with candidate := none, outer := l.candidate :: l.outer, mayStartKey := true }

/-- A closing bracket. -/
def closeFlow (l : Layout) (t : Token) : Except Fault Layout := do
  let l ← l.dropCandidate
  let l := { l with candidate := l.outer.head?.join, outer := l.outer.drop 1 }
  pure { l.add t l.cursor.next with mayStartKey := false }

/-- A comma between brackets. -/
def comma (l : Layout) : Except Fault Layout := do
  let l ← l.dropCandidate
  pure { l.add .comma l.cursor.next with mayStartKey := true }

/-- A mark that opens a list or a map where it stands, unless one is open at its column. -/
def openAtMark (l : Layout) (t : Token) : Except Fault Layout :=
  if l.inFlow then .ok l
  else if l.mayStartKey then .ok (l.openBlock l.cursor.column l.tokens.length t)
  else .error .malformedToken

/-- The dash in front of an item. -/
def item (l : Layout) : Except Fault Layout := do
  let l ← (← l.openAtMark .openBlockList).dropCandidate
  pure { l.add .item l.cursor.next with mayStartKey := true }

/-- The question mark in front of a key. -/
def key (l : Layout) : Except Fault Layout := do
  let l ← (← l.openAtMark .openBlockMap).dropCandidate
  pure { l.add .key l.cursor.next with mayStartKey := !l.inFlow }

/-- The colon in front of a value. It makes a key of the candidate, if there is one. -/
def value (l : Layout) : Except Fault Layout := do
  match l.candidate with
  | some k =>
    let l := (l.insert k.index .key).openBlock k.place.column k.index .openBlockMap
    pure { l.add .value l.cursor.next with candidate := none, mayStartKey := false }
  | none =>
    let l ← l.openAtMark .openBlockMap
    pure { l.add .value l.cursor.next with mayStartKey := !l.inFlow }

/-- A token that may begin a key and has a reader of its own. -/
def node (l : Layout) (read : Cursor → Except Fault (Token × Cursor)) : Except Fault Layout := do
  let l ← l.saveCandidate
  let (t, next) ← read l.cursor
  pure { l.add t next with mayStartKey := false }

/-- A plain scalar. A key may begin behind it if its line has ended. -/
def plain (l : Layout) : Except Fault Layout := do
  let l ← l.saveCandidate
  let (text, next, crossed) ← l.cursor.plainText l.inFlow l.least
  pure { l.add (.scalar text true) next with mayStartKey := crossed }

/-- A block scalar. -/
def block (l : Layout) (isFolded : Bool) : Except Fault Layout := do
  let l ← l.dropCandidate
  let (text, next) ← l.cursor.blockText isFolded l.columns.head?
  pure { l.add (.scalar text false) next with mayStartKey := true }

/-- Whether a character says what begins with it, so that no plain scalar does. -/
def isIndicator (c : Char) : Bool :=
  ['#', '&', '*', '!', '|', '>', '\'', '"', '%', '@', Char.ofNat 96].contains c

/-- Whether a plain scalar can begin here. -/
def canStartPlain (inFlow : Bool) (c : Char) (cs : List Char) : Bool :=
  if c == '-' then !cs.head?.any isBlank
  else if c == '?' || c == ':' then !inFlow && !startsApart cs
  else !isSeparator c && !isFlowMark c &&
    !isIndicator c

/-- Reads the token at the cursor, which begins with a character. -/
def readToken (l : Layout) (ch : Char) (cs : List Char) : Except Fault Layout :=
  let c := l.cursor
  let quoted (quote : Char) : Except Fault Layout := l.node fun c => do
    let (text, next) ← c.quotedText quote
    pure (.scalar text false, next)
  let named (token : String → Token) : Except Fault Layout := l.node fun c => do
    let (name, next) ← c.next.name
    pure (token name, next)
  if c.column == 0 && ch == '%' then do
    let l ← l.closeAll
    let (t, next) ← c.directive
    pure (l.add t next)
  else if c.isAtTriple '-' then do pure ((← l.closeAll).add .documentStart (c.skip 3))
  else if c.isAtTriple '.' then do pure ((← l.closeAll).add .documentEnd (c.skip 3))
  else if ch == '[' then l.openFlow .openList
  else if ch == '{' then l.openFlow .openMap
  else if ch == ']' then l.closeFlow .closeList
  else if ch == '}' then l.closeFlow .closeMap
  else if ch == ',' then l.comma
  else if c.isAtLone '-' then l.item
  else if ch == '?' && (l.inFlow || startsApart cs) then l.key
  else if ch == ':' && (l.inFlow || startsApart cs) then l.value
  else if ch == '*' then named .alias
  else if ch == '&' then named .anchor
  else if ch == '!' then l.node fun c => c.tag l.inFlow
  else if ch == '|' && !l.inFlow then l.block false
  else if ch == '>' && !l.inFlow then l.block true
  else if ch == '\'' || ch == '"' then quoted ch
  else if canStartPlain l.inFlow ch cs then l.plain
  else .error .malformedToken

/-- Reads one more token, and says whether it is the last one. -/
def step (l : Layout) : Except Fault (Layout × Bool) := do
  let (mayStartKey, cursor) := skipGap l.inFlow (l.cursor.rest.length + 1) l.mayStartKey l.cursor
  let l ← { l with mayStartKey, cursor }.dropStale
  let l := l.closeBlocks fun column => column ≤ cursor.column
  match cursor.rest with
  | [] => do
    let l ← l.closeAll
    -- What is left of the last line is over.
    let last := if cursor.column = 0 then cursor else { cursor with line := cursor.line + 1 }
    let l ← (l.add .finish last).dropStale
    pure (l, true)
  | ch :: cs => do
    let l ← (← l.readToken ch cs).dropStale
    pure (l, false)

/-- The tokens of a document read in part and, in as many steps as allowed, those of its rest. -/
def read : Nat → Layout → List Token
  | 0, l => l.tokens
  | fuel + 1, l =>
    match l.step with
    | .ok (next, isOver) => if isOver then next.tokens else read fuel next
    | .error fault => l.tokens.take l.certain ++ [.broken fault]

end Layout

/-- The tokens of a document. -/
def Token.ofText (cs : List Char) : List Token :=
  -- Every step but the last one reads a character.
  (Layout.start cs).read (cs.length + 1)

end PlotGrammar.Yaml
