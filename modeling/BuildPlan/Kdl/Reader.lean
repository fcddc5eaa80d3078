import BuildPlan.Kdl.Number
import BuildPlan.Kdl.Text

/-!
# Reading documents

`Node.listOfText?` reads a whole text as a document. Nodes end at the end of a line, at a semicolon
or at the brace that closes their block. Behind the name of a node stand arguments and properties,
each after a blank, and then at most one block. Comments run to the end of a line, or between
markers that nest; a backslash continues a node on the next line.

A slash and a dash in front of a node, an entry or a block make it count as not written. An entry or
a block that does not count stands after a blank, except directly behind the block of its node. A
node that does not count ends where it can be read no further: no semicolon belongs to it, and the
next node may start directly behind its block.

Readers take the text from where they start and give what they read with the rest of the text. A
fuel argument bounds the number of steps.
-/

set_option autoImplicit false
set_option relaxedAutoImplicit false

namespace BuildPlan.Kdl

/-! ### What separates -/

/-- The text after a comment between markers that is open some levels deep. -/
def afterComment? : (level : Nat) → List Char → Option (List Char)
  | 0, text => some text
  | _ + 1, [] => none
  | level + 1, '*' :: '/' :: rest => afterComment? level rest
  | level + 1, '/' :: '*' :: rest => afterComment? (level + 2) rest
  | level + 1, _ :: rest => afterComment? (level + 1) rest

/-- The text from the end of the line on. -/
def fromLineEnd (text : List Char) : List Char :=
  text.dropWhile fun c ↦ !isNewline c

/-- The text after the end of a line that a backslash continues, from after the backslash on. Only
blanks and comments may stand in between. -/
def afterContinuation? : Nat → List Char → Option (List Char)
  | 0, _ => none
  | _ + 1, [] => some []
  | _ + 1, '/' :: '/' :: rest =>
    match fromLineEnd rest with
    | [] => some []
    | rest => afterNewline? rest
  | fuel + 1, '/' :: '*' :: rest => (afterComment? 1 rest).bind (afterContinuation? fuel)
  | fuel + 1, c :: rest =>
    if isSpace c then afterContinuation? fuel rest else afterNewline? (c :: rest)

/-- The text after the blanks, comments between markers, and continued line ends at its front. -/
def afterSpaces? : Nat → List Char → Option (List Char)
  | 0, _ => none
  | _ + 1, [] => some []
  | fuel + 1, '/' :: '*' :: rest => (afterComment? 1 rest).bind (afterSpaces? fuel)
  | fuel + 1, '\\' :: rest => (afterContinuation? (fuel + 1) rest).bind (afterSpaces? fuel)
  | fuel + 1, c :: rest =>
    if isSpace c then afterSpaces? fuel rest else some (c :: rest)

/-- The text after everything at its front that separates nodes without ending one: blanks, line
ends and comments. -/
def afterLineSpaces? : Nat → List Char → Option (List Char)
  | 0, _ => none
  | fuel + 1, text =>
    (afterSpaces? (fuel + 1) text).bind fun text ↦
      match text with
      | '/' :: '/' :: rest => afterLineSpaces? fuel (fromLineEnd rest)
      | _ =>
        match afterNewline? text with
        | some rest => afterLineSpaces? fuel rest
        | none => some text

/-- The text after what ends a node: a line end, a semicolon, or the end of the text. The brace
that closes a block ends a node too, but is left. -/
def afterNodeEnd? (text : List Char) : Option (List Char) :=
  match text with
  | [] => some []
  | ';' :: rest => some rest
  | '\x7d' :: _ => some text
  | '/' :: '/' :: rest => some (fromLineEnd rest)
  | _ => afterNewline? text

/-- Whether the nodes of a block or of the whole text end here. -/
def endsNodes (text : List Char) : Bool :=
  text.isEmpty || text.head? = some '\x7d'

/-! ### Values and entries -/

/-- The values that are written as a word behind a number sign. -/
def keywords : List (String × Value) :=
  [("true", .bool true), ("false", .bool false), ("null", .null),
    ("inf", .float (.ofRank false infinityRank)), ("-inf", .float (.ofRank true infinityRank)),
    ("nan", .float .nan)]

/-- Reads a word behind a number sign. The value ends with the word, whatever follows. -/
def readKeyword? (text : List Char) : Option (Value × List Char) :=
  keywords.findSome? fun (word, value) ↦
    (Text.after? word.toList text).map fun rest ↦ (value, rest)

/-- Whether a text starts with a digit, after a sign at most. -/
def startsWithDigit (text : List Char) : Bool :=
  ((Decimal.cutSign text).2.head?.map Char.isDigit).getD false

/-- Reads a number. -/
def readNumber? (text : List Char) : Option (Value × List Char) := do
  let value ← number? (text.takeWhile isNameCharacter)
  ended? (value, text.dropWhile isNameCharacter)

/-- Reads a value that is no text. -/
def readBareValue? (text : List Char) : Option (Value × List Char) :=
  match text with
  | '#' :: rest => readKeyword? rest
  | _ => readNumber? text

/-- Whether the value at the front of a text is no text. -/
def startsBareValue (text : List Char) : Bool :=
  match text with
  | '#' :: rest => (rest.dropWhile (· = '#')).head? != some '"'
  | _ => startsWithDigit text

/-- The text after a type in parentheses, if there is one at its front. -/
def afterType? (fuel : Nat) (text : List Char) : Option (List Char) :=
  match text with
  | '(' :: rest => do
    let rest ← afterSpaces? fuel rest
    let (_, rest) ← readText? rest
    match ← afterSpaces? fuel rest with
    | ')' :: rest => afterSpaces? fuel rest
    | _ => none
  | _ => some text

/-- Reads a value, which may have a type. -/
def readValue? (fuel : Nat) (text : List Char) : Option (Value × List Char) := do
  let text ← afterType? fuel text
  if startsBareValue text then readBareValue? text
  else (readText? text).map fun read ↦ (.string read.1, read.2)

/-- The text after a slash and a dash and what may stand behind them. -/
def afterSlashdash? (fuel : Nat) (text : List Char) : Option (List Char) :=
  match text with
  | '/' :: '-' :: rest => afterLineSpaces? fuel rest
  | _ => none

/-- Reads an argument or a property. A text is the name of a property if an equals sign follows. -/
def readArgumentOrProperty? (fuel : Nat) (text : List Char) : Option (Entry × List Char) :=
  if text.head? = some '(' || startsBareValue text then
    (readValue? fuel text).map fun read ↦ (.argument read.1, read.2)
  else do
    let (name, rest) ← readText? text
    match ← afterSpaces? fuel rest with
    | '=' :: rest =>
      let rest ← afterSpaces? fuel rest
      let (value, rest) ← readValue? fuel rest
      some (.property name value, rest)
    | _ => some (.argument (.string name), rest)

/-- Reads an entry with the entries in front of it that do not count. Each of those is itself an
entry with such entries in front of it, and is set apart by a blank. -/
def readEntry? : Nat → List Char → Option (Entry × List Char)
  | 0, _ => none
  | fuel + 1, text =>
    match afterSlashdash? (fuel + 1) text with
    | none => readArgumentOrProperty? (fuel + 1) text
    | some hidden => do
      let (_, rest) ← readEntry? fuel hidden
      let next ← afterSpaces? (fuel + 1) rest
      if next.length < rest.length then readEntry? fuel next else none

/-! ### Nodes -/

/-- How far a node has been read. -/
inductive Stage where
  /-- Entries may follow. -/
  | entries
  /-- Blocks may follow, but no entries. -/
  | blocks
  /-- The block of the node has just ended. Only blocks that do not count may follow. -/
  | closed
  /-- Only blocks that do not count may follow, each after a blank. -/
  | done
  deriving DecidableEq

/-- How far a node has been read after a block that does not count. -/
def Stage.afterHiddenBlock : Stage → Stage
  | .entries | .blocks => .blocks
  | .closed | .done => .done

/-- Whether the block of the node may follow. -/
def Stage.allowsBlock : Stage → Bool
  | .entries | .blocks => true
  | .closed | .done => false

/-- What stands behind the name of a node. -/
structure Body where
  entries : List Entry
  children : Option (List Node)

namespace Body

/-- What stands behind a name if nothing does. -/
def empty : Body where
  entries := []
  children := none

/-- The node of a name and what stands behind it. -/
def node (body : Body) (name : String) : Node :=
  match body.children with
  | none => .plain name body.entries
  | some children => .block name body.entries children

end Body

mutual

/-- Reads nodes up to the end of their block or of the text. Only the last of them needs no end of
its own; behind it may stand nodes that do not count. -/
def readNodes? : Nat → List Char → Option (List Node × List Char)
  | 0, _ => none
  | fuel + 1, text => do
    let text ← afterHiddenNodes? fuel text
    if endsNodes text then some ([], text)
    else
      let (node, rest) ← readNode? fuel text
      match afterNodeEnd? rest with
      | some rest =>
        let (nodes, rest) ← readNodes? fuel rest
        some (node :: nodes, rest)
      | none =>
        let rest ← afterHiddenNodes? fuel rest
        if endsNodes rest then some ([node], rest) else none

/-- The text after everything at its front that separates nodes and after the nodes that do not
count. Such a node has no end of its own. -/
def afterHiddenNodes? : Nat → List Char → Option (List Char)
  | 0, _ => none
  | fuel + 1, text => do
    let text ← afterLineSpaces? (text.length + 1) text
    match afterSlashdash? (text.length + 1) text with
    | none => some text
    | some hidden =>
      let (_, rest) ← readNode? fuel hidden
      afterHiddenNodes? fuel rest

/-- Reads a node without what ends it. -/
def readNode? : Nat → List Char → Option (Node × List Char)
  | 0, _ => none
  | fuel + 1, text => do
    let text ← afterType? (text.length + 1) text
    let (name, rest) ← readText? text
    let (body, rest) ← readBody? fuel .entries rest
    some (body.node name, rest)

/-- Reads a block. -/
def readBlock? : Nat → List Char → Option (List Node × List Char)
  | 0, _ => none
  | fuel + 1, text =>
    match text with
    | '\x7b' :: rest => do
      let (nodes, rest) ← readNodes? fuel rest
      match rest with
      | '\x7d' :: rest => some (nodes, rest)
      | _ => none
    | _ => none

/-- Reads what stands behind the name of a node. An entry, and what does not count, stands after a
blank; only the block of the node needs none, nor what follows that block. -/
def readBody? : Nat → Stage → List Char → Option (Body × List Char)
  | 0, _, _ => none
  | fuel + 1, stage, text => do
    let rest ← afterSpaces? (text.length + 1) text
    let spaced := decide (rest.length < text.length)
    match afterSlashdash? (rest.length + 1) rest with
    | some hidden =>
      if !spaced && stage != .closed then some (.empty, rest)
      else if hidden.head? = some '\x7b' then
        let (_, rest) ← readBlock? fuel hidden
        readBody? fuel stage.afterHiddenBlock rest
      else if stage = .entries then
        let (_, rest) ← readEntry? (hidden.length + 1) hidden
        readBody? fuel stage rest
      else some (.empty, rest)
    | none =>
      if rest.head? = some '\x7b' && stage.allowsBlock then
        let (children, rest) ← readBlock? fuel rest
        let (body, rest) ← readBody? fuel .closed rest
        some ({ body with children := some children }, rest)
      else if spaced && stage = .entries && (afterNodeEnd? rest).isNone then
        let (entry, rest) ← readArgumentOrProperty? (rest.length + 1) rest
        let (body, rest) ← readBody? fuel stage rest
        some ({ body with entries := entry :: body.entries }, rest)
      else some (.empty, rest)

end

/-- The number of steps that suffices for a text: for each character at most four readers start. -/
def enoughFuel (text : List Char) : Nat := 4 * (text.length + 1)

/-- Reads a whole text as a document. -/
def Node.listOfText? (text : String) : Option (List Node) :=
  let text := match text.toList with
    | c :: rest => if c = byteOrderMark then rest else c :: rest
    | [] => []
  match readNodes? (enoughFuel text) text with
  | some (nodes, []) => some nodes
  | _ => none

end BuildPlan.Kdl
