import PlotGrammar.Number.Numeral
import PlotGrammar.Problem
import PlotGrammar.Yaml.Cursor

/-!
# The text of scalars

A scalar is written plainly, in quotes or as a block of lines. Each way of writing has its reader
here, which gives the text and the place behind it.

* `fold` says what separations within a scalar stand for: the first line end of several is dropped,
  and one that stands alone becomes a space.
* `Cursor.plainText` ends where a colon separates, at a comment, inside brackets at the marks of
  lists and maps, and in a block before the least column of its lines.
* `Cursor.quotedText` knows two kinds of quotes. Between single ones only the quote itself is
  written in another way, namely twice; between double ones a backslash starts an escape.
* `Cursor.blockText` keeps the ends of its lines, or folds them.
-/

namespace PlotGrammar.Yaml

/-- What separations within a scalar stand for. -/
def fold (gap : List Char) : List Char :=
  match gap.filter isLineEnd with
  | [] => gap
  | ['\n'] => [' ']
  | '\n' :: ends => ends
  | ends => ends

/-! ### Plain scalars -/

/-- The characters of a plain word. Inside brackets a colon may not touch a mark. -/
def plainWord (inFlow : Bool) : List Char → Except Fault (List Char)
  | [] => .ok []
  | c :: cs =>
    if isSeparator c || (c == ':' && startsApart cs) || (inFlow && isFlowMark c) then .ok []
    else if inFlow && c == ':' && cs.head?.any fun d => d == '?' || isFlowMark d then
      .error .malformedToken
    else do pure (c :: (← plainWord inFlow cs))

/-- Whether a tab stands before a column on a line that starts among some characters; the column of
the first one is known only on such a line. -/
def hasEarlyTab (least : Nat) : (column : Option Nat) → List Char → Bool
  | _, [] => false
  | column, c :: cs =>
    if isLineEnd c then hasEarlyTab least (some 0) cs
    else (c == '\t' && column.any (· < least)) || hasEarlyTab least (column.map (· + 1)) cs

/-- The words of a plain scalar that follow a gap, with the place behind them and their last gap,
and whether a line ends in that gap. -/
def plainWords (inFlow : Bool) (least : Nat) :
    Nat → (gap : List Char) → Cursor → Except Fault (List Char × Cursor × Bool)
  | 0, gap, c => .ok ([], c, gap.any isLineEnd)
  | fuel + 1, gap, c => do
    let word ← if c.isAtDocumentMark || c.isAt '#' then pure [] else plainWord inFlow c.rest
    if word.isEmpty then pure ([], c, gap.any isLineEnd)
    else
      let behind := c.skip word.length
      let next := behind.takeWhile isSeparator
      let last := behind.skip next.length
      if hasEarlyTab least none next then throw .malformedToken
      else if next.isEmpty || (!inFlow && decide (last.column < least)) then
        pure (fold gap ++ word, last, next.any isLineEnd)
      else do
        let (more, last, crossed) ← plainWords inFlow least fuel next last
        pure (fold gap ++ word ++ more, last, crossed)

/-- A plain scalar with the place behind it and the gap after it, and whether a line ends in that
gap. -/
def Cursor.plainText (c : Cursor) (inFlow : Bool) (least : Nat) :
    Except Fault (String × Cursor × Bool) := do
  -- Every round reads a character, so they are enough rounds.
  let (text, last, crossed) ← plainWords inFlow least c.rest.length [] c
  pure (String.ofList text, last, crossed)

/-! ### Quoted scalars -/

/-- The characters that stand for others after a backslash. -/
def escapes : List (Char × Nat) :=
  [('0', 0), ('a', 7), ('b', 8), ('t', 9), ('\t', 9), ('n', 10), ('v', 11), ('f', 12), ('r', 13),
    ('e', 27), (' ', 32), ('"', 34), ('/', 47), ('\\', 92), ('N', 0x85), ('_', 0xA0),
    ('L', 0x2028), ('P', 0x2029)]

/-- The number of digits that code a character after a letter. -/
def codeWidth? : Char → Option Nat
  | 'x' => some 2
  | 'u' => some 4
  | 'U' => some 8
  | _ => none

/-- The character that a number of hexadecimal digits codes. -/
def coded? (width : Nat) (cs : List Char) : Option Char := do
  let digits := cs.take width
  let n ← Numeral.natural? 16 digits
  if digits.length = width ∧ n.isValidChar then pure (Char.ofNat n) else none

/-- What the escape behind a backslash stands for. An escaped line end is dropped together with the
blanks after it. -/
def Cursor.escape (c : Cursor) : Except Fault (List Char × Cursor) :=
  match c.rest with
  | [] => .error .malformedToken
  | ch :: cs =>
    if isLineEnd ch then
      let gap := c.next.takeWhile isSeparator
      .ok (gap.filter isLineEnd, c.next.skip gap.length)
    else
      match escapes.lookup ch, codeWidth? ch with
      | some n, _ => .ok ([Char.ofNat n], c.next)
      | none, some width =>
        match coded? width cs with
        | some coded => .ok ([coded], c.next.skip width)
        | none => .error .malformedToken
      | none, none => .error .malformedToken

/-- The rest of a quoted scalar, with the place behind its last quote. -/
def quotedFrom (quote : Char) : Nat → Cursor → Except Fault (List Char × Cursor)
  | 0, _ => .error .malformedToken
  | fuel + 1, c =>
    match c.rest with
    | [] => .error .malformedToken
    | ch :: cs => do
      if c.isAtDocumentMark then throw .malformedToken
      if ch == quote && !(quote == '\'' && cs.head? == some '\'') then pure ([], c.next)
      else do
        let (own, behind) ←
          if isSeparator ch then
            let gap := c.takeWhile isSeparator
            pure (fold gap, c.skip gap.length)
          else if ch == quote then pure ([ch], c.skip 2)
          else if quote == '"' && ch == '\\' then c.next.escape
          else pure ([ch], c.next)
        let (more, last) ← quotedFrom quote fuel behind
        pure (own ++ more, last)

/-- The scalar that a quote opens, with the place behind it. -/
def Cursor.quotedText (c : Cursor) (quote : Char) : Except Fault (String × Cursor) := do
  let (text, last) ← quotedFrom quote (c.rest.length + 1) c.next
  pure (String.ofList text, last)

/-! ### Block scalars -/

/-- What happens to the line ends behind the last line of a block. -/
inductive Chomping where
  /-- None is kept. -/
  | strip
  /-- One is kept. -/
  | clip
  /-- All are kept. -/
  | keep

/-- The sign of a way to treat the last line ends. -/
def chomping? : Char → Option Chomping
  | '-' => some .strip
  | '+' => some .keep
  | _ => none

/-- What stands in front of a block: how its end is treated, and by how many columns it is
indented if that is said, with the place where its lines start. -/
def Cursor.blockHeader (c : Cursor) : Except Fault (Chomping × Option Nat × Cursor) := do
  let sign (c : Cursor) : Option Chomping × Cursor :=
    match c.rest.head?.bind chomping? with
    | some chomping => (some chomping, c.next)
    | none => (none, c)
  let (first, c) := sign c
  let (width, c) := match c.rest.head?.bind (Numeral.digit? 10) with
    | some n => (some n, c.next)
    | none => (none, c)
  if width = some 0 then throw .malformedToken
  let (second, c) := if first.isNone then sign c else (none, c)
  let c := c.skipRemark
  if c.rest.head?.any fun ch => !isLineEnd ch then throw .malformedToken
  else pure ((first.or second).getD .clip, width, c.next)

/-- The ends of empty lines, the greatest column that their blanks reach, and the place in the next
line behind its indentation. While the indentation is not known, all spaces belong to it. A tab may
not stand in it. -/
def emptyLines (indentation : Option Nat) :
    Nat → (widest : Nat) → Cursor → Except Fault (List Char × Nat × Cursor)
  | 0, widest, c => .ok ([], widest, c)
  | fuel + 1, widest, c => do
    let spaces := (c.takeWhile (· == ' ')).length
    let c := c.skip (indentation.elim spaces fun column => min spaces (column - c.column))
    let widest := max widest c.column
    if c.isAt '\t' && indentation.all (c.column < ·) then throw .malformedToken
    else
      match c.rest with
      | ch :: _ =>
        if isLineEnd ch then do
          let (ends, widest, last) ← emptyLines indentation fuel widest c.next
          pure (ch :: ends, widest, last)
        else pure ([], widest, c)
      | [] => pure ([], widest, c)

/-- The lines of a block from a place on. `ended` is the end of the line before, `empty` are those
of the empty lines after it, and `afterBlank` says whether it started with a blank. The result ends
with the line ends behind the last line. -/
def blockLines (isFolded : Bool) (indentation : Nat) : Nat → (ended empty : List Char) →
    (afterBlank : Bool) → Cursor → Except Fault (List Char × List Char × List Char × Cursor)
  | 0, ended, empty, _, c => .ok ([], ended, empty, c)
  | fuel + 1, ended, empty, afterBlank, c =>
    if c.column = indentation && !c.rest.isEmpty then do
      let startsBlank := c.rest.head?.any isBlank
      -- Lines that start with a blank keep the line ends around them.
      let joint :=
        if isFolded && ended == ['\n'] && !afterBlank && !startsBlank then
          if empty.isEmpty then [' '] else []
        else ended
      let line := c.takeWhile fun ch => !isLineEnd ch
      let behind := c.skip line.length
      let (next, _, start) ← emptyLines (some indentation) behind.rest.length 0 behind.next
      let (more, ends) ← blockLines isFolded indentation fuel (behind.rest.take 1) next startsBlank
        start
      pure (joint ++ empty ++ line ++ more, ends)
    else .ok ([], ended, empty, c)

/-- The block that a mark opens in a collection at a column, with the place behind it. -/
def Cursor.blockText (c : Cursor) (isFolded : Bool) (outer : Option Nat) :
    Except Fault (String × Cursor) := do
  let (chomping, width, c) ← c.next.blockHeader
  let said := width.map fun n => outer.getD 0 + n
  let (empty, widest, c) ← emptyLines said (c.rest.length + 1) 0 c
  let indentation := said.getD (max widest (outer.elim 1 (· + 1)))
  let (lines, ended, empty, last) ←
    blockLines isFolded indentation (c.rest.length + 1) [] empty false c
  let kept := match chomping with
    | .strip => []
    | .clip => ended
    | .keep => ended ++ empty
  pure (String.ofList (lines ++ kept), last)

end PlotGrammar.Yaml
