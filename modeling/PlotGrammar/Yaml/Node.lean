import PlotGrammar.Yaml.Token

/-!
# Nodes of a document

A document is a tree of scalars, lists and maps. A node may have a name, by which it stands again at
other places, and a tag, which says what it is to be read as.

`Node.ofTokens?` takes the tokens of a document with one tree at most. It gives up where a token
does not fit, where a name or the handle of a tag is not known, and where a second tree follows.
-/

namespace PlotGrammar.Yaml

/-- A part of a document. -/
inductive Node where
  /-- A scalar that says by its spelling what it is. -/
  | plain (word : String)
  /-- A scalar that is a text. -/
  | text (text : String)
  /-- A scalar that says by a tag what it is. -/
  | tagged (tag text : String)
  | list (tag : Option String) (items : List Node)
  | map (tag : Option String) (entries : List (Node × Node))
  /-- One of the nodes around this place. -/
  | around

namespace Node

/-- Nothing, where a node may be left out. -/
def absent : Node :=
  plain ""

/-- The tag that leaves open what a node is. -/
def openTag : String :=
  "!"

/-- The scalar of a token; the open tag makes a plain one of it. -/
def scalar (tag : Option String) (content : String) (isPlain : Bool) : Node :=
  match tag with
  | none => if isPlain then plain content else text content
  | some t => if t = openTag then plain content else tagged t content

/-- The scalar of which there are only properties. -/
def ofProperties (tag : Option String) : Node :=
  match tag with
  | none => absent
  | some t => if t = openTag then text "" else tagged t ""

/-- What the handles of tags stand for without a directive. -/
def standardHandles : List (String × String) :=
  [("!", "!"), ("!!", "tag:yaml.org,2002:")]

/-- What is at hand while nodes are put together: the tokens that are left, the nodes that have a
name, and the meanings of the handles. A node that is not complete has no value under its name. -/
structure Supply where
  tokens : List Token
  named : List (String × Option Node)
  handles : List (String × String)

/-- A part of putting nodes together. -/
abbrev Assembly (α : Type) : Type :=
  StateT Supply (Except Fault) α

namespace Assembly

/-- The next token. -/
def peek : Assembly Token := do
  match (← get).tokens with
  | .broken fault :: _ => throw fault
  | t :: _ => pure t
  | [] => pure .finish

/-- Drops the next token. -/
def drop : Assembly Unit :=
  modify fun s => { s with tokens := s.tokens.drop 1 }

/-- Drops the next token and shows the one behind it. -/
def advance : Assembly Token := do
  drop
  peek

/-- The node of a name. -/
def nodeNamed (name : String) : Assembly Node := do
  match (← get).named.lookup name with
  | some (some n) => pure n
  | some none => pure .around
  | none => throw .malformedTree

/-- Gives a name to a node while it is put together; no name is given twice. -/
def naming (name : Option String) (build : Assembly Node) : Assembly Node := do
  match name with
  | none => build
  | some name => do
    if ((← get).named.lookup name).isSome then throw .malformedTree
    else do
      modify fun s => { s with named := (name, none) :: s.named }
      let n ← build
      modify fun s => { s with named := (name, some n) :: s.named }
      pure n

/-- The name in front of a node, if it has one. -/
def anchor? : Assembly (Option String) := do
  match ← peek with
  | .anchor name => do
    drop
    pure (some name)
  | _ => pure none

/-- The handle and the suffix of the tag in front of a node, if it has one. -/
def tag? : Assembly (Option (String × String)) := do
  match ← peek with
  | .tag handle suffix => do
    drop
    pure (some (handle, suffix))
  | _ => pure none

/-- The tag that a handle and a suffix make. -/
def meaning (tag : Option (String × String)) : Assembly (Option String) := do
  match tag with
  | none => pure none
  | some ("", suffix) => pure (some suffix)
  | some (handle, suffix) =>
    match (← get).handles.lookup handle with
    | some start => pure (some (start ++ suffix))
    | none => throw .malformedDocument

/-- The name and the tag in front of a node, in either order. -/
def properties : Assembly (Option String × Option String) := do
  let first ← anchor?
  let tag ← tag?
  let anchor ← if first.isNone && tag.isSome then anchor? else pure first
  -- A broken token counts before an unknown handle.
  let _ ← peek
  pure (anchor, ← meaning tag)

end Assembly

open Assembly

/-- Whether a token ends an item of a list without brackets that has no node. -/
def endsItem : Token → Bool
  | .item | .closeBlock => true
  | _ => false

/-- Whether a token ends a key or a value without brackets that has no node. -/
def endsEntry : Token → Bool
  | .key | .value | .closeBlock => true
  | _ => false

/-- The node between two tokens, or none if it is left out. -/
def unlessAt (isEnd : Token → Bool) (t : Token) (build : Assembly Node) : Assembly Node :=
  if isEnd t then pure absent else build

mutual

/-- The next node. Without brackets, the items of a list may stand in the column of its key. -/
def assemble : Nat → (inFlow mayAlign : Bool) → Assembly Node
  | 0, _, _ => throw .malformedDocument
  | fuel + 1, inFlow, mayAlign => do
    match ← peek with
    | .alias name => do
      drop
      nodeNamed name
    | _ => do
      let (anchor, tag) ← properties
      let tag? := tag.filter (· != openTag)
      match ← peek, inFlow with
      | .scalar content isPlain, _ => naming anchor do
        drop
        pure (scalar tag content isPlain)
      | .openList, _ => naming anchor do
        drop
        pure (list tag? (← flowItems fuel true))
      | .openMap, _ => naming anchor do
        drop
        pure (map tag? (← flowEntries fuel true))
      | .openBlockList, false => naming anchor do
        drop
        pure (list tag? (← blockItems fuel))
      | .openBlockMap, false => naming anchor do
        drop
        pure (map tag? (← blockEntries fuel))
      | t, _ =>
        if mayAlign && t == .item then naming anchor do pure (list tag? (← alignedItems fuel))
        else if anchor.isSome || tag.isSome then naming anchor (pure (ofProperties tag))
        else throw .malformedDocument

/-- The items of a list without brackets up to its end. -/
def blockItems : Nat → Assembly (List Node)
  | 0 => throw .malformedDocument
  | fuel + 1 => do
    match ← peek with
    | .item => do
      let first ← unlessAt endsItem (← advance) (assemble fuel false false)
      pure (first :: (← blockItems fuel))
    | .closeBlock => do
      drop
      pure []
    | _ => throw .malformedDocument

/-- The items of a list in the column of its key. -/
def alignedItems : Nat → Assembly (List Node)
  | 0 => throw .malformedDocument
  | fuel + 1 => do
    match ← peek with
    | .item => do
      let first ← unlessAt (fun t => endsItem t || endsEntry t) (← advance)
        (assemble fuel false false)
      pure (first :: (← alignedItems fuel))
    | _ => pure []

/-- The entries of a map without brackets up to its end. -/
def blockEntries : Nat → Assembly (List (Node × Node))
  | 0 => throw .malformedDocument
  | fuel + 1 => do
    match ← peek with
    | .key => do
      let key ← unlessAt endsEntry (← advance) (assemble fuel false true)
      let value ←
        if (← peek) == .value then unlessAt endsEntry (← advance) (assemble fuel false true)
        else pure absent
      pure ((key, value) :: (← blockEntries fuel))
    | .closeBlock => do
      drop
      pure []
    | _ => throw .malformedDocument

/-- The items of a list in brackets up to its end. -/
def flowItems : Nat → (isFirst : Bool) → Assembly (List Node)
  | 0, _ => throw .malformedDocument
  | fuel + 1, isFirst => do
    let t ← peek
    let t ← if isFirst || t == .closeList then pure t
      else if t == .comma then advance else throw .malformedDocument
    match t with
    | .closeList => do
      drop
      pure []
    | .key => do
      let pair ← flowPair fuel
      pure (map none [pair] :: (← flowItems fuel false))
    | _ => do
      let first ← assemble fuel true false
      pure (first :: (← flowItems fuel false))

/-- The only entry of a map that is an item of a list in brackets. -/
def flowPair : Nat → Assembly (Node × Node)
  | 0 => throw .malformedDocument
  | fuel + 1 => do
    let isEnd (t : Token) : Bool := t == .comma || t == .closeList
    let t ← advance
    if isEnd t || t == .value then drop
    let key ← unlessAt (fun t => isEnd t || t == .value) t (assemble fuel true false)
    let value ← if (← peek) == .value then unlessAt isEnd (← advance) (assemble fuel true false)
      else pure absent
    pure (key, value)

/-- The entries of a map in brackets up to its end. -/
def flowEntries : Nat → (isFirst : Bool) → Assembly (List (Node × Node))
  | 0, _ => throw .malformedDocument
  | fuel + 1, isFirst => do
    let isEnd (t : Token) : Bool := t == .comma || t == .closeMap
    let t ← peek
    let t ← if isFirst || t == .closeMap then pure t
      else if t == .comma then advance else throw .malformedDocument
    match t with
    | .closeMap => do
      drop
      pure []
    | .key => do
      let key ← unlessAt (fun t => isEnd t || t == .value) (← advance) (assemble fuel true false)
      let value ← if (← peek) == .value then unlessAt isEnd (← advance) (assemble fuel true false)
        else pure absent
      pure ((key, value) :: (← flowEntries fuel false))
    | _ => do
      let key ← assemble fuel true false
      pure ((key, absent) :: (← flowEntries fuel false))

end

/-! ### Documents -/

/-- The directives in front of a document. Each of them is given once, and the versions are known
ones. -/
def directives : Nat → (isVersioned : Bool) → Assembly Unit
  | 0, _ => throw .malformedDocument
  | fuel + 1, isVersioned => do
    match ← peek with
    | .version major minor => do
      if isVersioned || major != 1 || !(minor == 1 || minor == 2) then throw .malformedDocument
      else do
        drop
        directives fuel true
    | .handle name meaning => do
      if ((← get).handles.lookup name).isSome then throw .malformedDocument
      else do
        modify fun s => { s with handles := (name, meaning) :: s.handles }
        drop
        directives fuel isVersioned
    | _ => pure ()

/-- The mark that opens a document, with the directives in front of it. -/
def opening (fuel : Nat) : Assembly Unit := do
  modify fun s => { s with handles := [] }
  directives fuel false
  if (← peek) == .documentStart then do
    drop
    modify fun s => { s with handles := s.handles ++ standardHandles }
  else throw .malformedDocument

/-- Whether a token opens a document. -/
def opensDocument : Token → Bool
  | .version .. | .handle .. | .documentStart => true
  | _ => false

/-- Whether a token ends a document that holds nothing. -/
def endsDocument (t : Token) : Bool :=
  opensDocument t || t == .documentEnd || t == .finish

/-- Drops the marks that end a document. -/
def endings : Nat → Assembly Unit
  | 0 => pure ()
  | fuel + 1 => do
    if (← peek) == .documentEnd then do
      drop
      endings fuel

/-- The tree of the only document. -/
def onlyTree (fuel : Nat) : Assembly (Option Node) := do
  match ← peek with
  | .finish => pure none
  | t => do
    let tree ←
      if opensDocument t then do
        opening fuel
        unlessAt endsDocument (← peek) (assemble fuel false false)
      else assemble fuel false false
    endings fuel
    if (← peek) == .finish then pure (some tree)
    else do
      opening fuel
      throw .malformedTree

/-- The tree that tokens form, if they form any. -/
def ofTokens? (tokens : List Token) : Except Fault (Option Node) := do
  -- Every round drops a token or hands on to one that does.
  let (tree, _) ← (onlyTree (2 * tokens.length + 2)).run ⟨tokens, [], standardHandles⟩
  pure tree

end Node

end PlotGrammar.Yaml
