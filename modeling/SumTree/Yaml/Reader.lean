import SumTree.Yaml.Text

/-!
# Reading YAML

A reader of single YAML 1.1 documents. Blocks are told apart by columns: a block collection stands
at one column, and what belongs to it stands further to the right. The key of a mapping is a node on
one line with a colon behind it.

## Main Definitions

* `Yaml.Node` — a node that has been read.
* `Yaml.readBlock`, `Yaml.readFlow` — a node by columns, and one between brackets.
* `Yaml.read` — the document of a text.

## Design Notes

Every recursive call gets one unit of fuel less, starting with four times the number of characters,
which is more than any text can use up. An alias stands for the node of its anchor. Mappings that are merged
into another give way to its own members, and of two members with one key the later counts.
-/

namespace SumTree

namespace Yaml

/-- A node that has been read. -/
structure Node where
  value : Document
  /-- Whether the node is the key under which mappings are merged. -/
  isMerge : Bool
  deriving Inhabited

/-- The node of no text. -/
def Node.empty : Node :=
  ⟨.null, false⟩

/-- Where a reader stands, and the anchors that it has met. -/
structure Progress where
  cursor : Cursor
  anchors : List (String × Node)

/-- A reader moves through the text or stops at a fault. -/
abbrev Reader (α : Type) := StateT Progress (Except Fault) α

/-- The anchor and the tag in front of a node. -/
structure Properties where
  anchor? : Option String
  tag? : Option String

namespace Reader

/-- The position. -/
def cursor : Reader Cursor := do
  return (← get).cursor

/-- Moves to a position. -/
def moveTo (c : Cursor) : Reader Unit :=
  modify fun p => { p with cursor := c }

/-- A fault of the text. -/
def malformed {α : Type} : Reader α :=
  throw .malformed

/-- Moves to the next token, and says whether it is on a new line. -/
def toToken : Reader Bool := do
  let c ← cursor
  let after := c.toToken
  moveTo after
  return after.line != c.line

/-- Moves past one character. -/
def skip : Reader Unit := do
  moveTo (← cursor).next

/-- Reads a text. -/
def text (r : TextReader) : Reader String := do
  let (cs, c) ← r (← cursor)
  moveTo c
  return String.ofList cs

/-- A character of the name of an anchor. -/
def isNamePart (c : Char) : Bool :=
  Digit.isAscii c || ('a' ≤ c && c ≤ 'z') || ('A' ≤ c && c ≤ 'Z') || c == '-' || c == '_'

/-- The name of an anchor or an alias, after its mark. -/
def name : Reader String := do
  let c ← cursor
  let cs := c.rest.takeWhile isNamePart
  let after := c.advance cs.length
  let mayEnd := gapFollows after.rest
    || (after.peek?.map fun ch => "?:,]\x7d%@`".contains ch).getD false
  if cs.isEmpty || !mayEnd then malformed
  else
    moveTo after
    return String.ofList cs

/-- The name of a tag, after its mark: that of a standard tag without its second mark, or a single
mark. Other tags are not known. -/
def tag : Reader String := do
  let c ← cursor
  let cs := c.rest.takeWhile fun ch => !isGap ch && !",[]\x7b\x7d".contains ch
  moveTo (c.advance cs.length)
  match cs with
  | [] => return "!"
  | '!' :: standard => return String.ofList standard
  | '<' :: verbatim =>
    let standard := "tag:yaml.org,2002:".toList
    if standard.isPrefixOf verbatim && verbatim.getLast? == some '>' then
      return String.ofList (verbatim.dropLast.drop standard.length)
    else malformed
  | _ => malformed

/-- The properties in front of a node, and whether what follows them is on a new line. -/
def properties : Nat → Properties → Bool → Reader (Properties × Bool)
  | 0, _, _ => malformed
  | fuel + 1, ps, crossed => do
    let c ← cursor
    if c.at? '&' && ps.anchor?.isNone then
      skip
      let anchor ← name
      let crossed ← toToken
      properties fuel { ps with anchor? := some anchor } crossed
    else if c.at? '!' && ps.tag?.isNone then
      skip
      let t ← tag
      let crossed ← toToken
      properties fuel { ps with tag? := some t } crossed
    else return (ps, crossed)

/-- Remembers a node under its anchor. -/
def anchored (ps : Properties) (n : Node) : Reader Node := do
  match ps.anchor? with
  | some anchor => modify fun p => { p with anchors := (anchor, n) :: p.anchors }
  | none => pure ()
  return n

/-- The node of a scalar's text. -/
def scalar (ps : Properties) (isPlain : Bool) (s : String) : Reader Node := do
  let read : Except Fault Scalar := match ps.tag? with
    | some t => Scalar.ofTagged t s
    | none => if isPlain then Scalar.ofPlain s else .ok (.value (.text s))
  match ← (liftM read : Reader Scalar) with
  | .value d => anchored ps ⟨d, false⟩
  | .merge => anchored ps ⟨.text "<<", true⟩

/-- The node of a collection, of which the tag must fit. -/
def collection (ps : Properties) (standard : String) (d : Document) : Reader Node := do
  match ps.tag? with
  | none | some "!" => anchored ps ⟨d, false⟩
  | some t => if t == standard then anchored ps ⟨d, false⟩ else malformed

/-- The node of an alias, after its mark. -/
def aliased : Reader Node := do
  let anchor ← name
  match (← get).anchors.lookup anchor with
  | some n => return n
  | none => malformed

end Reader

/-- The members that a merged node contributes: those of a mapping, or of a list of mappings of which
the earlier ones count more. -/
def mergedMembers : Document → Option (List (Document × Document))
  | .map members => some members
  | .list items =>
    items.reverse.foldlM (fun done item =>
      match item with
      | .map members => some (done ++ members)
      | _ => none) []
  | _ => none

/-- Whether a node can be a key. -/
def isKey : Document → Bool
  | .list _ | .map _ => false
  | _ => true

/-- The mapping of members in the order in which they were read. -/
def mappingOf (members : List (Node × Node)) : Reader Document := do
  let merged ← members.filter (·.1.isMerge) |>.mapM fun m =>
    match mergedMembers m.2.value with
    | some ms => pure ms
    | none => Reader.malformed
  let own := (members.filter fun m => !m.1.isMerge).map fun m => (m.1.value, m.2.value)
  if own.all fun m => isKey m.1 then
    return .map ((merged.flatten ++ own).foldl (fun ms m => Document.enter ms m.1 m.2) [])
  else Reader.malformed

mutual

/-- A node between brackets or of a single scalar, on which the properties have been read. The text of
a plain scalar goes on at column `indent` or beyond. -/
def readContent : Nat → Bool → Nat → Properties → Reader Node
  | 0, _, _, _ => Reader.malformed
  | fuel + 1, inFlow, indent, ps => do
    let c ← Reader.cursor
    match c.rest with
    | [] => Reader.malformed
    | ch :: rest =>
      if ch == '*' then
        if ps.anchor?.isSome || ps.tag?.isSome then Reader.malformed
        else
          Reader.skip
          Reader.aliased
      else if ch == '[' then
        Reader.skip
        let items ← readFlowItems fuel []
        Reader.collection ps "seq" (.list items)
      else if ch == '{' then
        Reader.skip
        let members ← readFlowMembers fuel []
        let d ← mappingOf members
        Reader.collection ps "map" d
      else if ch == '\'' then
        let s ← Reader.text fun c => Text.singleQuoted (c.rest.length + 1) [] c.next
        Reader.scalar ps false s
      else if ch == '"' then
        let s ← Reader.text fun c => Text.doubleQuoted (c.rest.length + 1) [] c.next
        Reader.scalar ps false s
      else
        let startsPlain := !(isGap ch || "-?:,[]\x7b\x7d#&*!|>'\"%@`".contains ch)
          || (!gapFollows rest && (ch == '-' || (!inFlow && (ch == '?' || ch == ':'))))
        if startsPlain then
          let s ← Reader.text fun c => .ok (Text.plain inFlow indent c)
          Reader.scalar ps true s
        else Reader.malformed

/-- A node between brackets; nothing in front of a comma, a colon or a closing bracket counts as the
node of no text if it has properties. -/
def readFlow : Nat → Reader Node
  | 0 => Reader.malformed
  | fuel + 1 => do
    let (ps, _) ← Reader.properties 3 ⟨none, none⟩ false
    let c ← Reader.cursor
    let isVoid := c.at? ',' || c.at? ':' || c.at? ']' || c.at? '}'
    if isVoid && (ps.anchor?.isSome || ps.tag?.isSome) then Reader.scalar ps true ""
    else readContent fuel true 0 ps

/-- The value of a member between brackets, after its colon. -/
def readFlowValue : Nat → Reader Node
  | 0 => Reader.malformed
  | fuel + 1 => do
    let _ ← Reader.toToken
    let c ← Reader.cursor
    if c.at? ',' || c.at? ']' || c.at? '}' then return .empty else readFlow fuel

/-- A member between brackets: its key, and its value if it has one. -/
def readFlowMember : Nat → Reader (Node × Option Node)
  | 0 => Reader.malformed
  | fuel + 1 => do
    let c ← Reader.cursor
    let explicit := c.at? '?'
    if explicit then
      Reader.skip
      let _ ← Reader.toToken
    let atKey ← Reader.cursor
    let isVoid := explicit && (atKey.at? ',' || atKey.at? ':' || atKey.at? ']' || atKey.at? '}')
    let key ← if isVoid then pure Node.empty else readFlow fuel
    let _ ← Reader.toToken
    let behind ← Reader.cursor
    if behind.at? ':' then
      if !explicit && behind.line != atKey.line then Reader.malformed
      else
        Reader.skip
        let value ← readFlowValue fuel
        return (key, some value)
    else if explicit then return (key, some .empty)
    else return (key, none)

/-- The items of a list between brackets, up to the closing one. -/
def readFlowItems : Nat → List Document → Reader (List Document)
  | 0, _ => Reader.malformed
  | fuel + 1, done => do
    let _ ← Reader.toToken
    let c ← Reader.cursor
    if c.atDocumentMark then Reader.malformed
    else if c.at? ']' then
      Reader.skip
      return done.reverse
    else
      let (key, value?) ← readFlowMember fuel
      let item ← match value? with
        | some value => mappingOf [(key, value)]
        | none => pure key.value
      let _ ← Reader.toToken
      let c ← Reader.cursor
      if c.at? ',' then
        Reader.skip
        readFlowItems fuel (item :: done)
      else if c.at? ']' then
        Reader.skip
        return (item :: done).reverse
      else Reader.malformed

/-- The members of a mapping between brackets, up to the closing one. -/
def readFlowMembers : Nat → List (Node × Node) → Reader (List (Node × Node))
  | 0, _ => Reader.malformed
  | fuel + 1, done => do
    let _ ← Reader.toToken
    let c ← Reader.cursor
    if c.atDocumentMark then Reader.malformed
    else if c.at? '}' then
      Reader.skip
      return done.reverse
    else
      let (key, value?) ← readFlowMember fuel
      let member := (key, value?.getD .empty)
      let _ ← Reader.toToken
      let c ← Reader.cursor
      if c.at? ',' then
        Reader.skip
        readFlowMembers fuel (member :: done)
      else if c.at? '}' then
        Reader.skip
        return (member :: done).reverse
      else Reader.malformed

end

mutual

/-- A node inside a block at column `parent`. `mayOpen` says that a block collection may begin on this
line; `besides` that a list may stand at the column of the block. -/
def readBlock : Nat → Int → Bool → Bool → Reader Node
  | 0, _, _, _ => Reader.malformed
  | fuel + 1, parent, mayOpen, besides => do
    let crossed ← Reader.toToken
    let mayOpen := mayOpen || crossed
    let c ← Reader.cursor
    let isList := c.atMark '-'
    if c.atEnd || c.atDocumentMark then return .empty
    else if (c.column : Int) ≤ parent then
      if besides && (c.column : Int) == parent && isList && mayOpen then
        let items ← readItems fuel c.column true []
        return ⟨.list items, false⟩
      else return .empty
    else
      let (ps, crossed) ← Reader.properties 3 ⟨none, none⟩ false
      let hasProperties := ps.anchor?.isSome || ps.tag?.isSome
      let inner ← Reader.cursor
      let isVoid := inner.atEnd || inner.atDocumentMark
        || (crossed && (inner.column : Int) ≤ parent)
      if hasProperties && isVoid then
        if besides && (inner.column : Int) == parent && inner.atMark '-'
            && !(inner.atEnd || inner.atDocumentMark) then
          let items ← readItems fuel inner.column true []
          Reader.collection ps "seq" (.list items)
        else Reader.scalar ps true ""
      else if hasProperties && crossed then
        let n ← readOpened fuel parent true inner ⟨none, none⟩ ps
        return n
      else readOpened fuel parent mayOpen c ps ⟨none, none⟩

/-- A node that begins at `start`; `first` are the properties of the node itself or of its first key,
`whole` those of the node alone. -/
def readOpened : Nat → Int → Bool → Cursor → Properties → Properties → Reader Node
  | 0, _, _, _, _, _ => Reader.malformed
  | fuel + 1, parent, mayOpen, start, first, whole => do
    let c ← Reader.cursor
    let hasFirst := first.anchor?.isSome || first.tag?.isSome
    let own := if hasFirst then first else whole
    if c.atMark '-' then
      if mayOpen && !hasFirst then
        let items ← readItems fuel c.column false []
        Reader.collection whole "seq" (.list items)
      else Reader.malformed
    else if c.atMark '?' then
      if mayOpen && !hasFirst then
        let members ← readMembers fuel c.column []
        let d ← mappingOf members
        Reader.collection whole "map" d
      else Reader.malformed
    else if c.at? '|' || c.at? '>' then
      let s ← Reader.text fun c => Text.block (c.at? '>') parent c.next
      Reader.scalar own false s
    else
      let (isWholeLine, n) ← readKey fuel (parent + 1).toNat first
      let behind ← Reader.cursor
      if isWholeLine then
        if mayOpen && behind.line == start.line then
          Reader.skip
          let value ← readBlock fuel start.column false true
          let members ← readMembers fuel start.column [(n, value)]
          let d ← mappingOf members
          Reader.collection whole "map" d
        else Reader.malformed
      else if hasFirst then return n
      else
        match whole.tag? with
        | none => Reader.anchored whole n
        | some _ =>
          Reader.moveTo c
          readContent fuel false (parent + 1).toNat whole

/-- A node of one scalar or between brackets, and whether a colon follows that makes it a key; the
reader then stands at the colon. A colon on a later line belongs to a key around the node when it
stands to the left of column `indent`. Only properties can make a key of no text. -/
def readKey : Nat → Nat → Properties → Reader (Bool × Node)
  | 0, _, _ => Reader.malformed
  | fuel + 1, indent, ps => do
    let start ← Reader.cursor
    let n ←
      if start.atMark ':' then
        if ps.anchor?.isSome || ps.tag?.isSome then Reader.scalar ps true "" else Reader.malformed
      else readContent fuel false indent ps
    let behind ← Reader.cursor
    let c := behind.skipWhile (· == ' ')
    if c.atMark ':' && (c.line == start.line || indent ≤ c.column) then
      Reader.moveTo c
      return (true, n)
    else return (false, n)

/-- The items of a list at column `column`. A list beside the keys of a mapping ends where the next
key begins. -/
def readItems : Nat → Nat → Bool → List Document → Reader (List Document)
  | 0, _, _, _ => Reader.malformed
  | fuel + 1, column, besides, done => do
    let _ ← Reader.toToken
    let c ← Reader.cursor
    if c.atEnd || c.atDocumentMark || c.column < column then return done.reverse
    else if c.column > column then Reader.malformed
    else if c.atMark '-' then
      Reader.skip
      let item ← readBlock fuel column true false
      readItems fuel column besides (item.value :: done)
    else if besides then return done.reverse
    else Reader.malformed

/-- The members of a mapping at column `column`. -/
def readMembers : Nat → Nat → List (Node × Node) → Reader (List (Node × Node))
  | 0, _, _ => Reader.malformed
  | fuel + 1, column, done => do
    let _ ← Reader.toToken
    let c ← Reader.cursor
    if c.atEnd || c.atDocumentMark || c.column < column then return done.reverse
    else if c.column > column || c.atMark '-' then Reader.malformed
    else if c.atMark '?' then
      Reader.skip
      let key ← readBlock fuel column true true
      let _ ← Reader.toToken
      let behind ← Reader.cursor
      if behind.column == column && behind.atMark ':' then
        Reader.skip
        let value ← readBlock fuel column true true
        readMembers fuel column ((key, value) :: done)
      else readMembers fuel column ((key, .empty) :: done)
    else
      let (ps, crossed) ← Reader.properties 3 ⟨none, none⟩ false
      if crossed then Reader.malformed
      else
        let (isWholeLine, key) ← readKey fuel (column + 1) ps
        let behind ← Reader.cursor
        if isWholeLine && behind.line == c.line then
          Reader.skip
          let value ← readBlock fuel column false true
          readMembers fuel column ((key, value) :: done)
        else Reader.malformed

end

/-- Moves past directives, of which one for the version must name version 1; a document must start
behind them. -/
def readDirectives : Nat → Reader Unit
  | 0 => Reader.malformed
  | fuel + 1 => do
    let _ ← Reader.toToken
    let c ← Reader.cursor
    if c.column == 0 && c.at? '%' then
      let line := String.ofList (c.rest.takeWhile fun ch => !isBreak ch)
      if line.startsWith "%YAML" && !line.startsWith "%YAML 1." then Reader.malformed
      else
        Reader.moveTo (c.skipWhile fun ch => !isBreak ch)
        let _ ← Reader.toToken
        let after ← Reader.cursor
        if after.at? '%' then readDirectives fuel
        else if after.atDocumentMark && after.at? '-' then return ()
        else Reader.malformed
    else return ()

/-- A single document, up to the end of the text. -/
def readDocument (size : Nat) : Reader Document := do
  readDirectives (size + 1)
  let _ ← Reader.toToken
  let c ← Reader.cursor
  if c.atEnd then return .null
  let marked := c.atDocumentMark && c.at? '-'
  if marked then Reader.moveTo (c.advance 3)
  let n ← readBlock (4 * size + 64) (-1) (!marked) false
  let _ ← Reader.toToken
  let behind ← Reader.cursor
  if behind.atDocumentMark && behind.at? '.' then
    Reader.moveTo (behind.advance 3)
    let _ ← Reader.toToken
  let last ← Reader.cursor
  if last.atEnd then return n.value else Reader.malformed

/-- Whether a character may stand in a document. -/
def isAllowed (c : Char) : Bool :=
  let n := c.toNat
  n == 9 || n == 10 || n == 13 || (0x20 ≤ n && n ≤ 0x7e) || n == 0x85
    || (0xa0 ≤ n && n ≤ 0xd7ff) || (0xe000 ≤ n && n ≤ 0xfffd) || 0x10000 ≤ n

/-- A text whose lines all end with line feeds. -/
def unifyBreaks : List Char → List Char
  | '\r' :: '\n' :: rest => '\n' :: unifyBreaks rest
  | '\r' :: rest => '\n' :: unifyBreaks rest
  | c :: rest => c :: unifyBreaks rest
  | [] => []

/-- The document of a text. -/
def read (s : String) : Except Fault Document :=
  let cs := unifyBreaks s.toList
  if !cs.all isAllowed then .error .malformed
  else
    let cs := match cs with
      | c :: rest => if c.toNat == 0xfeff then rest else c :: rest
      | [] => []
    (readDocument cs.length).run ⟨.start cs, []⟩ |>.map Prod.fst

end Yaml

end SumTree
