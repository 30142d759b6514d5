import PlotGrammar.Problem

/-!
# References in the texts of a configuration

A text of a configuration may refer to other places of it. Between `$` followed by an opening brace
and the closing brace stands a path: keys and indices, with points between them or each in square
brackets. A path starts at the root, or, with points in front, at the section around the text or one
above that. A path with a colon asks for a resolver.

* `Reference.split?` takes a text apart into literals and paths.
* A backslash in front of a reference makes it literal, and of two backslashes there one is left.
-/

namespace PlotGrammar.Reference

/-- A path of keys and indices. -/
structure Path where
  /-- How many points stand in front. Without one the path starts at the root, with one in the
  section around it, and each further one leads a section up. -/
  points : Nat
  steps : List String
  deriving DecidableEq, Repr

/-- A piece of a text. -/
inductive Piece where
  | literal (text : String)
  | path (path : Path)
  /-- What a resolver is asked for. -/
  | call
  deriving DecidableEq, Repr

/-- Whether a character can be part of a key. -/
def isKeyChar (c : Char) : Bool :=
  !(['\\', '{', '}', '(', ')', '[', ']', ':', '.', ' ', '\t', '\'', '"'].contains c)

/-- Whether a character is a blank that may stand beside a path. -/
def isGap (c : Char) : Bool :=
  c == ' ' || c == '\t'

/-- Where the reading of a path stands: before its first key, in a key whose characters are held
last one first, or behind a closing bracket. -/
inductive Standing where
  | start
  | key (before : List Char) (bracketed : Bool)
  | closed

/-- The key of characters that are held last one first, in front of the keys after it. -/
def keyThen (before : List Char) (rest : Option (List String)) : Option (List String) :=
  if before.isEmpty then none else rest.map fun keys => String.ofList before.reverse :: keys

/-- The keys of a path. None of them is empty, and every bracket is closed. -/
def steps? : Standing → List Char → Option (List String)
  | .start, [] => none
  | .start, c :: cs =>
    if c = '[' then steps? (.key [] true) cs
    else if isKeyChar c then steps? (.key [c] false) cs
    else none
  | .key before bracketed, [] => if bracketed then none else keyThen before (some [])
  | .key before true, c :: cs =>
    if c = ']' then keyThen before (steps? .closed cs)
    else if isKeyChar c then steps? (.key (c :: before) true) cs
    else none
  | .key before false, c :: cs =>
    if c = '.' then keyThen before (steps? (.key [] false) cs)
    else if c = '[' then keyThen before (steps? (.key [] true) cs)
    else if isKeyChar c then steps? (.key (c :: before) false) cs
    else none
  | .closed, [] => some []
  | .closed, c :: cs =>
    if c = '.' then steps? (.key [] false) cs
    else if c = '[' then steps? (.key [] true) cs
    else none

/-- The characters before the end of a path, without blanks there. -/
def withoutGap (cs : List Char) : List Char :=
  (cs.reverse.dropWhile isGap).reverse

/-- The piece that the characters between two braces are. -/
def piece? (inner : List Char) : Option Piece :=
  let cs := inner.dropWhile isGap
  if cs.contains ':' then
    let name := cs.takeWhile (· != ':')
    if name.isEmpty || !name.all fun c => isKeyChar c || c == '.' then none else some .call
  else
    let points := (cs.takeWhile (· == '.')).length
    (steps? .start (withoutGap (cs.drop points))).map fun steps => .path ⟨points, steps⟩

/-- The literal of characters that are held last one first; none if there are none. -/
def literal (before : List Char) : List Piece :=
  if before.isEmpty then [] else [.literal (String.ofList before.reverse)]

/-- Takes a text apart. `before` holds the characters of a literal, last one first, and `inner`
those behind an open brace. -/
def splitFrom : (before : List Char) → (inner : Option (List Char)) → List Char →
    Option (List Piece)
  | before, none, [] => some (literal before)
  | _, some _, [] => none
  | before, none, '$' :: '{' :: rest =>
    let slashes := (before.takeWhile (· == '\\')).length
    let kept := List.replicate (slashes / 2) '\\' ++ before.drop slashes
    if slashes % 2 = 1 then splitFrom ('{' :: '$' :: kept) none rest
    else do pure (literal kept ++ (← splitFrom [] (some []) rest))
  | before, none, c :: rest => splitFrom (c :: before) none rest
  | _, some inner, '}' :: rest => do
    let piece ← piece? inner.reverse
    pure (piece :: (← splitFrom [] none rest))
  | before, some inner, c :: rest => splitFrom before (some (c :: inner)) rest

/-- The pieces of a text, unless a reference is begun that is none. -/
def split? (text : String) : Option (List Piece) :=
  splitFrom [] none text.toList

end PlotGrammar.Reference
