import CoreBridge.Table
import CoreBridge.Yaml.Scalar

/-!
# Reading documents

Block structure is given by columns: the entries of a mapping and the items of
a sequence start at one column, and what belongs to an entry starts behind it.
A node behind a key may start a block mapping or sequence only on a line of its
own. A sequence behind a key may start at the column of the key.

A key that is not marked has to end on the line on which it starts, no more
than 1024 characters on, in front of a colon.
-/
namespace CoreBridge.Yaml

/-- The nodes that aliases can stand for, by anchor. -/
abbrev Anchors := Table String Node

/-- A step that reads nodes. -/
abbrev Read := StateT Anchors Scan

namespace Read

/-- The tag and the anchor in front of a node. -/
structure Properties where
  tag : Option String := none
  anchor : Option String := none

/-- Whether nothing was in front of the node. -/
def Properties.isEmpty (p : Properties) : Bool := p.tag.isNone && p.anchor.isNone

/-- What a tag stands for: two marks stand for the tags of the language itself. -/
def resolveTag : List Char → List Char
  | '!' :: rest => "tag:yaml.org,2002:".toList ++ rest
  | '<' :: rest => rest.takeWhile (· ≠ '>')
  | rest => '!' :: rest

/-- The name of an anchor or alias, whose mark is next. -/
def name : Scan String := do
  Scan.advance
  let name ← Scan.takeWhile isNameChar
  let next ← Scan.rest
  Scan.require (!name.isEmpty &&
    (atGap next || next.head?.any ("?:,]\x7d%@\x60".toList.contains ·)))
  return String.ofList name

/-- Whether a tag uses a handle of its own, which no directive declares. -/
def hasHandle (written : List Char) : Bool :=
  !(written.takeWhile isNameChar).isEmpty && (written.dropWhile isNameChar).head? = some '!'

/-- A tag, whose mark is next. -/
def tag (flow : Bool) : Scan String := do
  Scan.advance
  let written ← Scan.takeWhile fun c =>
    isTagChar c || c = '<' || c = '>' || (c = ',' && !flow)
  let next ← Scan.rest
  Scan.require !(hasHandle written)
  Scan.require (atGap next || (flow && next.head? = some ','))
  return String.ofList (resolveTag written)

/-- Reads the properties of a node, each at most once; on their line tabs are blanks. -/
def properties (flow : Bool) : (fuel : Nat) → Properties → Scan Properties
  | 0, p => return p
  | fuel + 1, p => do
    match ← Scan.rest with
    | '&' :: _ => do
      Scan.require p.anchor.isNone
      let anchor ← name
      Scan.skip flow true
      properties flow fuel { p with anchor := some anchor }
    | '!' :: _ => do
      Scan.require p.tag.isNone
      let tag ← tag flow
      Scan.skip flow true
      properties flow fuel { p with tag := some tag }
    | _ => return p

/-- Gives a node its properties. -/
def finish (p : Properties) (node : Node) : Read Node := do
  let node := match node with
    | .scalar style none text => .scalar style p.tag text
    | node => node
  if let some anchor := p.anchor then modify fun anchors => anchors.set anchor node
  return node

/-- Reads an alias, which stands for the node that was anchored last. -/
def «alias» : Read Node := do
  let anchor ← name
  ((← get).get? anchor : Option Node)

/-- Whether a plain scalar starts here. -/
def startsPlain (flow : Bool) : List Char → Bool
  | [] => false
  | c :: rest =>
    if atGap (c :: rest) then false
    else if c = '-' then !atGap rest
    else if c = '?' || c = ':' then !flow && !atGap rest
    else !isIndicator c

/-- Whether one of the marks of block structure comes next. -/
def atMark (mark : Char) : List Char → Bool
  | c :: rest => c = mark && atGap rest
  | [] => false

/-- Passes over the colon behind a key that starts at `start`. -/
def keyColon (start : Cursor) : Scan Unit := do
  let s ← get
  Scan.require (s.line = start.line && s.offset ≤ start.offset + 1024 && s.rest.head? = some ':')
  Scan.advance

mutual

/-- Reads the content of a node in a flow collection, or of a key: a scalar on
lines from column `indent` on, an alias or a flow collection. -/
def content (flow : Bool) (indent : Nat) : (fuel : Nat) → Read Node
  | 0 => failure
  | fuel + 1 => do
    match ← Scan.rest with
    | '*' :: _ => «alias»
    | '"' :: _ => Scan.quoted true
    | '\x27' :: _ => Scan.quoted false
    | '[' :: _ => do
      Scan.advance
      flowItems fuel true []
    | '\x7b' :: _ => do
      Scan.advance
      flowEntries fuel true []
    | cs =>
      if startsPlain flow cs then Scan.plain flow indent else failure

/-- Reads a node in a flow collection. One with properties may have no content. -/
def flowNode : (fuel : Nat) → Read Node
  | 0 => failure
  | fuel + 1 => do
    Scan.require !(← Scan.atEnd)
    let p ← properties true 2 {}
    let next ← Scan.rest
    if !p.isEmpty && next.head?.any (":,]\x7d".toList.contains ·) then
      finish p .empty
    else
      Scan.require (p.isEmpty || next.head? ≠ some '*')
      finish p (← content true 0 fuel)

/-- Reads the value behind a colon of a flow collection, which may be missing. -/
def flowValue : (fuel : Nat) → Read Node
  | 0 => failure
  | fuel + 1 => do
    Scan.skip true true
    match ← Scan.rest with
    | ',' :: _ | ']' :: _ | '\x7d' :: _ => return .empty
    | _ => flowNode fuel

/-- Reads an entry of a flow collection: a node, or a key and its value. -/
def flowEntry : (fuel : Nat) → Read (Node × Option Node)
  | 0 => failure
  | fuel + 1 => do
    let start ← getThe Cursor
    if start.rest.head? = some '?' then
      Scan.advance
      Scan.skip true true
      let key ← if (← Scan.rest).head? = some ':' then pure .empty else flowValue fuel
      Scan.skip true true
      if (← Scan.rest).head? = some ':' then
        Scan.advance
        return (key, some (← flowValue fuel))
      else return (key, some .empty)
    let node ← flowNode fuel
    Scan.skip true true
    if (← Scan.rest).head? = some ':' then
      keyColon start
      return (node, some (← flowValue fuel))
    else return (node, none)

/-- Reads the items of a flow sequence up to its end; `first` says whether none
was read. An item with a value is a mapping of one entry. -/
def flowItems : (fuel : Nat) → (first : Bool) → (read : List Node) → Read Node
  | 0, _, _ => failure
  | fuel + 1, first, read => do
    Scan.skip true true
    if !first && (← Scan.rest).head? = some ',' then
      Scan.advance
      Scan.skip true true
    else Scan.require (first || (← Scan.rest).head? = some ']')
    if (← Scan.rest).head? = some ']' then
      Scan.advance
      return .sequence read.reverse
    match ← flowEntry fuel with
    | (node, none) => flowItems fuel false (node :: read)
    | (key, some value) => flowItems fuel false (.mapping [(key, value)] :: read)

/-- Reads the entries of a flow mapping up to its end. -/
def flowEntries : (fuel : Nat) → (first : Bool) → (read : List (Node × Node)) → Read Node
  | 0, _, _ => failure
  | fuel + 1, first, read => do
    Scan.skip true true
    if !first && (← Scan.rest).head? = some ',' then
      Scan.advance
      Scan.skip true true
    else Scan.require (first || (← Scan.rest).head? = some '\x7d')
    if (← Scan.rest).head? = some '\x7d' then
      Scan.advance
      return .mapping read.reverse
    let (key, value) ← flowEntry fuel
    flowEntries fuel false ((key, value.getD .empty) :: read)

end

/-- Reads a key that is not marked, with the colon behind it. -/
def key (indent fuel : Nat) : Read Node := do
  let start ← getThe Cursor
  let p ← properties false 2 {}
  let next ← Scan.rest
  Scan.require (p.isEmpty || next.head? ≠ some '*')
  let node ← if !p.isEmpty && atMark ':' next then pure .empty else content false indent fuel
  let node ← finish p node
  let _ ← Scan.takeWhile isBlank
  keyColon start
  Scan.require (atGap (← Scan.rest))
  return node

/-- Whether a key that is not marked comes next; nothing is passed over. -/
def atKey (indent fuel : Nat) : Read Bool := fun anchors cursor =>
  some ((((key indent fuel) anchors cursor).isSome, anchors), cursor)

mutual

/-- Reads a node inside block structure at column `parent`. `fresh` says whether
a block mapping or sequence may start on this line, and `level` whether a
sequence may start at the column of the parent. -/
def blockNode : (fuel : Nat) → (parent : Int) → (fresh level : Bool) → Properties → Read Node
  | 0, _, _, _, _ => failure
  | fuel + 1, parent, fresh, level, p => do
    let before ← getThe Cursor
    Scan.skip false (!fresh)
    let s ← getThe Cursor
    let fresh := fresh || before.line < s.line
    let indent := (parent + 1).toNat
    if ← Scan.atEnd then finish p .empty
    else if s.column ≤ parent then
      if level && s.column = parent && atMark '-' s.rest then
        finish p (← blockItems fuel s.column [])
      else finish p .empty
    else if atMark '-' s.rest then
      Scan.require fresh
      finish p (← blockItems fuel s.column [])
    else if atMark '?' s.rest then
      Scan.require fresh
      finish p (← blockEntries fuel s.column [])
    else if fresh && (← atKey (s.column + 1) (2 * s.rest.length + 2)) then
      finish p (← blockEntries fuel s.column [])
    else if s.rest.head? = some '&' || s.rest.head? = some '!' then
      let own ← properties false 2 {}
      Scan.require (p.isEmpty || own.isEmpty)
      let fresh := s.line < (← getThe Cursor).line
      blockNode fuel parent fresh level own
    else match s.rest with
      | '|' :: _ => do finish p (← Scan.block true parent)
      | '>' :: _ => do finish p (← Scan.block false parent)
      | cs => do
        Scan.require (p.isEmpty || cs.head? ≠ some '*')
        finish p (← content false indent (2 * cs.length + 2))

/-- Reads the items of a block sequence whose marks are at `column`. -/
def blockItems : (fuel : Nat) → (column : Nat) → (read : List Node) → Read Node
  | 0, _, _ => failure
  | fuel + 1, column, read => do
    Scan.skip false true
    let s ← getThe Cursor
    if !(← Scan.atEnd) && s.column = column && atMark '-' s.rest then
      Scan.advance
      let item ← blockNode fuel column true false {}
      blockItems fuel column (item :: read)
    else return .sequence read.reverse

/-- Reads the entries of a block mapping whose keys are at `column`. -/
def blockEntries : (fuel : Nat) → (column : Nat) → (read : List (Node × Node)) → Read Node
  | 0, _, _ => failure
  | fuel + 1, column, read => do
    Scan.skip false true
    let s ← getThe Cursor
    if (← Scan.atEnd) || s.column ≠ column then
      Scan.require ((← Scan.atEnd) || s.column < column)
      return .mapping read.reverse
    else if atMark '?' s.rest then
      Scan.advance
      let key ← blockNode fuel column true true {}
      Scan.skip false true
      let s ← getThe Cursor
      if !(← Scan.atEnd) && s.column = column && atMark ':' s.rest then
        Scan.advance
        let value ← blockNode fuel column true true {}
        blockEntries fuel column ((key, value) :: read)
      else blockEntries fuel column ((key, .empty) :: read)
    else
      let key ← key (column + 1) (2 * s.rest.length + 2)
      let value ← blockNode fuel column false true {}
      blockEntries fuel column ((key, value) :: read)

end

/-- Reads the directive that states the version of the language; the answer says
whether there was one. -/
def versionDirective : Scan Bool := do
  Scan.skip false false
  let s ← get
  match s.rest with
  | '%' :: 'Y' :: 'A' :: 'M' :: 'L' :: rest => do
    Scan.require (s.column = 0 && rest.head?.any isBlank)
    Scan.advanceBy 5
    let _ ← Scan.takeWhile isBlank
    let version ← Scan.takeWhile fun c => c.isDigit || c = '.'
    Scan.require (["1.1", "1.2"].contains (String.ofList version))
    let before ← get
    Scan.skip false true
    Scan.require (before.line < (← get).line)
    return true
  | _ => return false

/-- Reads the one document of a text. -/
def document (fuel : Nat) : Read Node := do
  let directive ← versionDirective
  let s ← getThe Cursor
  let start := s.column = 0 && atMarker s.rest
  Scan.require (!directive || start)
  if start then
    Scan.require (s.rest.head? = some '-')
    Scan.advanceBy 3
  let node ← blockNode fuel (-1) (!start) false {}
  Scan.skip false true
  let s ← getThe Cursor
  if s.column = 0 && atMarker s.rest && s.rest.head? = some '.' then
    Scan.advanceBy 3
    Scan.skip false true
  Scan.require (← Scan.rest).isEmpty
  return node

end Read

/-- The document that a text spells, if it spells exactly one. -/
def parse? (s : String) : Option Node :=
  let cs := s.toList
  if cs.all isReadable then
    ((Read.document (4 * cs.length + 8)).run' {}).run' { rest := cs }
  else none

end CoreBridge.Yaml
