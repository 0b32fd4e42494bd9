import ScriptKit.Yaml.Token

/-!
# YAML documents

`Yaml.read` reads the first document of a text. A document is a scalar, a list or a map, each of which may
carry an anchor, and an alias stands for the latest thing before it with an anchor of its name. An alias
inside the thing it names has no target.

Whatever comes after the first document is not looked at, except for the few tokens that the scanner reads
ahead.
-/

namespace ScriptKit

/-- A node of a YAML document. The tag of a scalar is empty if it has none, and begins with two exclamation
marks if it is one of the common tags. -/
inductive Yaml where
  | scalar (tag : Text) (plain : Bool) (value : Text)
  | list (items : List Yaml)
  | map (pairs : List (Yaml × Yaml))
  | alias (name : Text) (target : Option Yaml)
  deriving Repr, Inhabited

namespace Yaml

/-- The absent value. -/
def absent : Yaml := .scalar [] true []

/-! ## Tags -/

/-- What the common tags begin with. -/
def commonStem : Text := "tag:yaml.org,2002:"

/-- The short names every document knows, with what they stand for. -/
def commonHandles : List (Text × Text) := [("!", "!"), ("!!", commonStem)]

/-- A tag in its short form. The tag that says nothing counts as none. -/
def shortTag (tag : Text) : Text :=
  if tag = "!" then []
  else if commonStem.isPrefixOf tag then "!!" ++ tag.drop commonStem.length
  else tag

/-! ## The reader -/

/-- The state of reading a document: the scanner, the anchors in the order in which they were met, each with
its node once that is complete, and the short names of tags. -/
structure Reading where
  scanner : Scanner
  anchors : List (Text × Option Yaml) := []
  handles : List (Text × Text) := commonHandles
  deriving Inhabited

/-- A step of reading a document; it fails on a text that is no document. -/
abbrev Reader := StateT Reading Option

namespace Reader

/-- The next token. -/
def peek : Reader Token := do
  let r ← get
  let (t, scanner) ← r.scanner.peek
  set { r with scanner }
  return t

/-- Take the next token. -/
def take : Reader Unit := modify fun r => { r with scanner := r.scanner.take }

/-- Take the next token if it is a given one. -/
def takeIf (t : Token) : Reader Bool := do
  if (← peek) = t then
    take
    return true
  else return false

/-- Take a given token. -/
def expect (t : Token) : Reader Unit := do
  if !(← takeIf t) then failure

/-! ## Anchors and tags of a node -/

/-- What is written before a node. -/
structure Properties where
  anchor : Option Text := none
  tag : Text := []
  deriving Inhabited

/-- The tag that a short name and the rest stand for. -/
def resolveTag (handle suffix : Text) : Reader Text := do
  if handle.isEmpty then return suffix
  match (← get).handles.lookup handle with
  | some stem => return stem ++ suffix
  | none => failure

/-- Read an anchor, if there is one. -/
def anchor? : Reader (Option Text) := do
  match ← peek with
  | .anchor name => take; return some name
  | _ => return none

/-- Read a tag, if there is one, without looking up its short name. -/
def tag? : Reader (Option (Text × Text)) := do
  match ← peek with
  | .tag handle suffix => take; return some (handle, suffix)
  | _ => return none

/-- Read what is written before a node, in either order. -/
def properties : Reader Properties := do
  let before ← anchor?
  let tag ← tag?
  let after ← if before.isNone && tag.isSome then anchor? else pure none
  let name ← match tag with
    | some (handle, suffix) => resolveTag handle suffix
    | none => pure []
  return ⟨before <|> after, name⟩

/-- Meet the anchor of a node. -/
def meet (p : Properties) (node : Option Yaml) : Reader Unit :=
  match p.anchor with
  | some name => modify fun r => { r with anchors := r.anchors ++ [(name, node)] }
  | none => return ()

/-- Read the inside of a node whose anchor was met before it. -/
def inside (p : Properties) (body : Reader Yaml) : Reader Yaml := do
  let number := (← get).anchors.length
  meet p none
  let node ← body
  if p.anchor.isSome then
    modify fun r => { r with anchors := r.anchors.modify number fun a => (a.1, some node) }
  return node

/-- What an alias stands for. -/
def resolveAlias (name : Text) : Reader Yaml := do
  match (← get).anchors.reverse.lookup name with
  | some target => return .alias name target
  | none => failure

/-! ## Collections -/

/-- Whether one of some tokens comes next. -/
def isAt (ts : List Token) : Reader Bool := do return ts.contains (← peek)

/-- Read a node unless one of some tokens comes next, in which case it is absent. -/
def orAbsent (stops : List Token) (node : Reader Yaml) : Reader Yaml := do
  if ← isAt stops then return absent else node

/-- Read the items of a block after its dashes, up to its end. -/
def blockItems (node : Reader Yaml) : Nat → List Yaml → Reader Yaml
  | 0, _ => failure
  | n + 1, done => do
    if ← takeIf .dash then
      let item ← orAbsent [.dash, .blockEnd] node
      blockItems node n (item :: done)
    else
      expect .blockEnd
      return .list done.reverse

/-- Read the items of a list that stands in the column of the map around it. It ends where no dash
follows. -/
def flushItems (node : Reader Yaml) : Nat → List Yaml → Reader Yaml
  | 0, _ => failure
  | n + 1, done => do
    if ← takeIf .dash then
      let item ← orAbsent [.dash, .key, .value, .blockEnd] node
      flushItems node n (item :: done)
    else return .list done.reverse

/-- Read the pairs of a block, up to its end. -/
def blockPairs (node : Reader Yaml) : Nat → List (Yaml × Yaml) → Reader Yaml
  | 0, _ => failure
  | n + 1, done => do
    if ← takeIf .key then
      let key ← orAbsent [.key, .value, .blockEnd] node
      let value ← if ← takeIf .value then orAbsent [.key, .value, .blockEnd] node else pure absent
      blockPairs node n ((key, value) :: done)
    else
      expect .blockEnd
      return .map done.reverse

/-- Read the single pair after the mark of a key in a list in brackets. If the key is absent, the token
after it is lost. -/
def lonePair (node : Reader Yaml) : Reader Yaml := do
  let key ← if ← isAt [.value, .comma, .listEnd] then do
      take
      pure absent
    else node
  let value ← if ← takeIf .value then orAbsent [.comma, .listEnd] node else pure absent
  return .map [(key, value)]

/-- Read the items of a list in brackets, up to its end. -/
def flowItems (node : Reader Yaml) : Nat → List Yaml → Reader Yaml
  | 0, _ => failure
  | n + 1, done => do
    if ← takeIf .listEnd then return .list done.reverse
    if !done.isEmpty then expect .comma
    if ← takeIf .listEnd then return .list done.reverse
    let item ← if ← takeIf .key then lonePair node else node
    flowItems node n (item :: done)

/-- Read a pair of a map in brackets. -/
def flowPair (node : Reader Yaml) : Reader (Yaml × Yaml) := do
  if ← takeIf .key then
    let key ← orAbsent [.value, .comma, .mapEnd] node
    let value ← if ← takeIf .value then orAbsent [.comma, .mapEnd] node else pure absent
    return (key, value)
  else return (← node, absent)

/-- Read the pairs of a map in brackets, up to its end. -/
def flowPairs (node : Reader Yaml) : Nat → List (Yaml × Yaml) → Reader Yaml
  | 0, _ => failure
  | n + 1, done => do
    if ← takeIf .mapEnd then return .map done.reverse
    if !done.isEmpty then expect .comma
    if ← takeIf .mapEnd then return .map done.reverse
    let pair ← flowPair node
    flowPairs node n (pair :: done)

/-! ## Nodes -/

/-- Read a node after its properties. `flush` tells whether it may be a list in the column of the map
around it. -/
def content (next : Bool → Bool → Reader Yaml) (bound : Nat) (block flush : Bool) (p : Properties) :
    Reader Yaml := do
  let t ← peek
  if flush && t = .dash then inside p (flushItems (next true false) bound [])
  else
    match t with
    | .scalar plain value =>
      take
      let node : Yaml := .scalar (shortTag p.tag) plain value
      meet p (some node)
      return node
    | .listStart =>
      take
      inside p (flowItems (next false false) bound [])
    | .mapStart =>
      take
      inside p (flowPairs (next false false) bound [])
    | t =>
      if block && t = .blockList then
        take
        inside p (blockItems (next true false) bound [])
      else if block && t = .blockMap then
        take
        inside p (blockPairs (next true true) bound [])
      else if p.anchor.isSome || !p.tag.isEmpty then
        let node : Yaml := .scalar (shortTag p.tag) true []
        meet p (some node)
        return node
      else failure

/-- Read a node, with at most `n` nodes open at a time and no more than `bound` things in each. `block`
tells whether it may be a block. -/
def node (bound : Nat) : Nat → (block flush : Bool) → Reader Yaml
  | 0, _, _ => failure
  | n + 1, block, flush => do
    match ← peek with
    | .alias name =>
      take
      resolveAlias name
    | _ => content (node bound n) bound block flush (← properties)

/-! ## Documents -/

/-- Read the directives before a document. There is one version at most, and it is the only one that is
known; a short name is given once. -/
def directives : Nat → Bool → List (Text × Text) → Reader Unit
  | 0, _, _ => failure
  | n + 1, versioned, handles => do
    match ← peek with
    | .version major minor =>
      if versioned || major ≠ 1 || minor ≠ 1 then failure
      take
      directives n true handles
    | .tagHandle handle stem =>
      if (handles.lookup handle).isSome then failure
      take
      directives n versioned (handles ++ [(handle, stem)])
    | _ => modify fun r => { r with handles := handles ++ commonHandles }

/-- Read the first document, if there is one. -/
def document (bound : Nat) : Reader (Option Yaml) := do
  expect .streamStart
  match ← peek with
  | .streamEnd => return none
  | .version _ _ | .tagHandle _ _ | .documentStart =>
    directives bound false []
    expect .documentStart
    let isEmpty := match ← peek with
      | .version _ _ | .tagHandle _ _ | .documentStart | .documentEnd | .streamEnd => true
      | _ => false
    let value ← if isEmpty then pure absent else node bound bound true false
    discard peek
    return some value
  | _ =>
    let value ← node bound bound true false
    discard peek
    return some value

end Reader

/-- Read the first document of a text, if there is one. Each glyph makes three tokens at most, besides the ends of
blocks. -/
def read (t : Text) : Option (Option Yaml) := do
  let cursor ← Cursor.start? t
  let (value, _) ← (Reader.document (4 * t.length + 8)).run { scanner := { cursor } }
  some value

end Yaml

end ScriptKit
