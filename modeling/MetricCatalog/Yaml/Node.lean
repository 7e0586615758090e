/-
# Nodes of YAML documents

The tree that the tokens of a document stand for. Where a text is malformed its
tree ends in broken leaves, so that a reader meets what was written before that
place first.

An anchor gives its node a label: the number of different anchor names that
came before it. A name that is used again thus gets another label, and later
nodes may share it; an alias with a label means the last node that has it.
-/

import MetricCatalog.Yaml.TokenStream

namespace MetricCatalog

namespace Yaml

/-- What may be written before a node. -/
structure Properties where
  /-- The tag, resolved. -/
  tag : Option String
  /-- The label its anchor gives it. -/
  label : Option Nat
  deriving DecidableEq, Repr

/-- A node without tag and anchor. -/
def Properties.none : Properties := ⟨Option.none, Option.none⟩

/-- A node of a document. -/
inductive Node
  | scalar (text : String) (style : ScalarStyle) (properties : Properties)
  | sequence (items : List Node) (properties : Properties)
  | mapping (entries : List (Node × Node)) (properties : Properties)
  | reference (label : Nat)
  /-- The text is malformed here. -/
  | broken
  deriving Repr

namespace Node

/-- The scalar that stands where nothing is written. -/
def empty : Node := .scalar "" .plain .none

mutual

/-- The last node with a label, in a node. -/
def labelled? (label : Nat) : Node → Option Node
  | .scalar text style properties =>
      if properties.label = some label then some (.scalar text style properties) else none
  | .sequence items properties =>
      match lastLabelled? label items with
      | some node => some node
      | none =>
          if properties.label = some label then some (.sequence items properties) else none
  | .mapping entries properties =>
      match lastLabelledEntry? label entries with
      | some node => some node
      | none =>
          if properties.label = some label then some (.mapping entries properties) else none
  | .reference _ => none
  | .broken => none

/-- The last node with a label, in some nodes. -/
def lastLabelled? (label : Nat) : List Node → Option Node
  | [] => none
  | node :: rest =>
      match lastLabelled? label rest with
      | some later => some later
      | none => labelled? label node

/-- The last node with a label, in the keys and values of a mapping. -/
def lastLabelledEntry? (label : Nat) : List (Node × Node) → Option Node
  | [] => none
  | (key, value) :: rest =>
      match lastLabelledEntry? label rest with
      | some later => some later
      | none =>
          match labelled? label value with
          | some later => some later
          | none => labelled? label key

end

end Node

/-- What is known in the middle of a document. Where the text is malformed no tokens are left. -/
structure Composer where
  /-- The tokens that are left. -/
  tokens : List Token
  /-- What the handles of tags stand for. -/
  handles : List (List Char × List Char)
  /-- The anchor names with their present labels. -/
  labels : List (List Char × Nat)

/-- A step in building a document. -/
abbrev Compose := StateM Composer

namespace Compose

/-- The next token, if the text has one. -/
def peek : Compose (Option Token) := do return (← get).tokens.head?

/-- Goes over a token. -/
def advance : Compose Unit := modify fun state => { state with tokens := state.tokens.drop 1 }

/-- The text is malformed here. -/
def stop : Compose Unit := modify fun state => { state with tokens := [] }

/-- Goes over a token if it is the given one. -/
def advanceOver (token : Token) : Compose Bool := do
  if (← peek) = some token then
    advance
    return true
  return false

/-- Gives an anchor's name a label. -/
def define (name : List Char) : Compose Nat := do
  let state ← get
  let label := state.labels.length
  set { state with labels := (name, label) :: state.labels.filter (·.1 ≠ name) }
  return label

/-- The label that an anchor's name has now. -/
def label? (name : List Char) : Compose (Option Nat) := do return (← get).labels.lookup name

/-- The tag that a handle and a suffix write, if the handle is known. -/
def resolveTag (handle suffix : List Char) : Compose (Option String) := do
  if handle.isEmpty then return some (String.ofList suffix)
  return ((← get).handles.lookup handle).map fun start => String.ofList (start ++ suffix)

/-- The anchor and the tag that come next, in either order. -/
def readProperties : Compose (Option (List Char) × Option (List Char × List Char)) := do
  match ← peek with
  | some (.anchor name) =>
      advance
      match ← peek with
      | some (.tag handle suffix) =>
          advance
          return (some name, some (handle, suffix))
      | _ => return (some name, none)
  | some (.tag handle suffix) =>
      advance
      match ← peek with
      | some (.anchor name) =>
          advance
          return (some name, some (handle, suffix))
      | _ => return (none, some (handle, suffix))
  | _ => return (none, none)

/-- The tag of the properties that were read. None at all is known of a tag with an unknown
handle. -/
def tagOf (written : Option (List Char × List Char)) : Compose (Option (Option String)) :=
  match written with
  | none => pure (some none)
  | some (handle, suffix) => do return (← resolveTag handle suffix).map some

mutual

/-- The next node. In some places it may be a collection in block style, and in some of those a
sequence that is not indented. -/
def node (inBlock mayBeFlush : Bool) : Nat → Compose Node
  | 0 => return .broken
  | fuel + 1 => do
      match ← peek with
      | none => return .broken
      | some (.reference name) =>
          match ← label? name with
          | some label =>
              advance
              return .reference label
          | none =>
              stop
              return .broken
      | some _ =>
          let (anchor, written) ← readProperties
          match ← peek, ← tagOf written with
          | some token, some tag => content inBlock mayBeFlush anchor tag token fuel
          | _, _ =>
              stop
              return .broken

/-- The node behind its properties. -/
def content (inBlock mayBeFlush : Bool) (anchor : Option (List Char)) (tag : Option String)
    (token : Token) : Nat → Compose Node
  | 0 => return .broken
  | fuel + 1 => do
      let isStart :=
        match token with
        | .blockEntry => mayBeFlush
        | .scalar _ _ | .flowSequenceStart | .flowMappingStart => true
        | .blockSequenceStart | .blockMappingStart => inBlock
        | _ => false
      if !isStart && anchor.isNone && tag.isNone then
        stop
        return .broken
      let label ← anchor.mapM define
      match token with
      | .blockEntry =>
          if mayBeFlush then return .sequence (← flushItems fuel) ⟨tag, label⟩
          else return .scalar "" .plain ⟨tag, label⟩
      | .scalar text style =>
          advance
          let tag := if tag = some "!" then none else tag
          return .scalar (String.ofList text) style ⟨tag, label⟩
      | .flowSequenceStart =>
          advance
          return .sequence (← flowItems true fuel) ⟨tag, label⟩
      | .flowMappingStart =>
          advance
          return .mapping (← flowEntries true fuel) ⟨tag, label⟩
      | .blockSequenceStart =>
          if inBlock then
            advance
            return .sequence (← blockItems fuel) ⟨tag, label⟩
          else return .scalar "" .plain ⟨tag, label⟩
      | .blockMappingStart =>
          if inBlock then
            advance
            return .mapping (← blockEntries fuel) ⟨tag, label⟩
          else return .scalar "" .plain ⟨tag, label⟩
      | _ => return .scalar "" .plain ⟨tag, label⟩

/-- The next node, or the empty one if one of the given tokens comes next. -/
def nodeUnless (inBlock mayBeFlush : Bool) (closing : List Token) : Nat → Compose Node
  | 0 => return .broken
  | fuel + 1 => do
      match ← peek with
      | none => return .broken
      | some token =>
          if closing.contains token then return .empty else node inBlock mayBeFlush fuel

/-- The value of an entry, behind its key: the node behind the colon, if one comes next. -/
def valueUnless (inBlock : Bool) (closing : List Token) : Nat → Compose Node
  | 0 => return .broken
  | fuel + 1 => do
      match ← peek with
      | none => return .broken
      | some .value =>
          advance
          nodeUnless inBlock inBlock closing fuel
      | some _ => return .empty

/-- The items of an indented block sequence. -/
def blockItems : Nat → Compose (List Node)
  | 0 => return [.broken]
  | fuel + 1 => do
      match ← peek with
      | some .blockEntry =>
          advance
          let item ← nodeUnless true false [.blockEntry, .blockEnd] fuel
          return item :: (← blockItems fuel)
      | some .blockEnd =>
          advance
          return []
      | _ =>
          stop
          return [.broken]

/-- The items of a block sequence that is not indented. -/
def flushItems : Nat → Compose (List Node)
  | 0 => return [.broken]
  | fuel + 1 => do
      match ← peek with
      | some .blockEntry =>
          advance
          let item ← nodeUnless true false [.blockEntry, .key, .value, .blockEnd] fuel
          return item :: (← flushItems fuel)
      | some _ => return []
      | none => return [.broken]

/-- The entries of a block mapping. -/
def blockEntries : Nat → Compose (List (Node × Node))
  | 0 => return [(.broken, .broken)]
  | fuel + 1 => do
      match ← peek with
      | some .key =>
          advance
          let key ← nodeUnless true true [.key, .value, .blockEnd] fuel
          let value ← valueUnless true [.key, .value, .blockEnd] fuel
          return (key, value) :: (← blockEntries fuel)
      | some .blockEnd =>
          advance
          return []
      | _ =>
          stop
          return [(.broken, .broken)]

/-- The items of a flow sequence. An item may be a mapping with one entry, without its braces. -/
def flowItems (first : Bool) : Nat → Compose (List Node)
  | 0 => return [.broken]
  | fuel + 1 => do
      if ← advanceOver .flowSequenceEnd then return []
      let separated ← if first then pure true else advanceOver .flowEntry
      if !separated then
        stop
        return [.broken]
      if ← advanceOver .flowSequenceEnd then return []
      let isEntry ← advanceOver .key
      let item ← if isEntry then flowEntryItem fuel else node false false fuel
      return item :: (← flowItems false fuel)

/-- The mapping of one entry behind the key's mark. Where the key is missing, so is what stands in
its place: the colon behind it is passed over with it. -/
def flowEntryItem : Nat → Compose Node
  | 0 => return .broken
  | fuel + 1 => do
      let closing : List Token := [.flowEntry, .flowSequenceEnd]
      let hasKey := (← peek).any fun token => !(Token.value :: closing).contains token
      let key ←
        if hasKey then node false false fuel
        else do
          advance
          pure Node.empty
      let value ← valueUnless false closing fuel
      return .mapping [(key, value)] .none

/-- The entries of a flow mapping. -/
def flowEntries (first : Bool) : Nat → Compose (List (Node × Node))
  | 0 => return [(.broken, .broken)]
  | fuel + 1 => do
      if ← advanceOver .flowMappingEnd then return []
      let separated ← if first then pure true else advanceOver .flowEntry
      if !separated then
        stop
        return [(.broken, .broken)]
      if ← advanceOver .flowMappingEnd then return []
      let closing : List Token := [.flowEntry, .flowMappingEnd]
      let hasKey ← advanceOver .key
      let entry ←
        if hasKey then do
          let key ← nodeUnless false false (.value :: closing) fuel
          pure (key, ← valueUnless false closing fuel)
        else do
          let key ← node false false fuel
          pure (key, if (← peek).isSome then Node.empty else .broken)
      return entry :: (← flowEntries false fuel)

end

/-- The directives before a document, if they make sense together. -/
def directives : List Token → Bool → List (List Char × List Char) →
    Option (List (List Char × List Char) × List Token)
  | .versionDirective major minor :: rest, hasVersion, handles => do
      guard (!hasVersion && major = 1 && (minor = 1 || minor = 2))
      directives rest true handles
  | .tagDirective handle uri :: rest, hasVersion, handles => do
      guard ((handles.lookup handle).isNone)
      directives rest hasVersion (handles ++ [(handle, uri)])
  | rest, _, handles => some (handles, rest)

end Compose

/-- What the handles stand for that no directive has changed. -/
def defaultHandles : List (List Char × List Char) :=
  [("!".toList, "!".toList), ("!!".toList, "tag:yaml.org,2002:".toList)]

/-- A document, and whether the text holds exactly one. Of an empty text there is none. -/
structure Document where
  root : Option Node
  isOnly : Bool

/-- Whether nothing comes behind a document. -/
def isAtEnd (tokens : List Token) : Bool :=
  tokens.dropWhile (· = .documentEnd) = [.streamEnd]

/-- The first document that tokens write. -/
def Document.ofTokens (tokens : List Token) : Document :=
  match tokens with
  | [.streamEnd] => ⟨none, true⟩
  | _ =>
      let hasDirectives :=
        match tokens with
        | .versionDirective _ _ :: _ | .tagDirective _ _ :: _ | .documentStart :: _ => true
        | _ => false
      match Compose.directives tokens false [] with
      | none => ⟨some .broken, false⟩
      | some (handles, rest) =>
          let fuel := 4 * tokens.length + 8
          let handles := handles ++ defaultHandles
          if !hasDirectives then
            let (root, state) := (Compose.node true false fuel).run ⟨tokens, handles, []⟩
            ⟨some root, isAtEnd state.tokens⟩
          else
            match rest with
            | .documentStart :: rest =>
                let build : Compose Node :=
                  match rest with
                  | .versionDirective _ _ :: _ | .tagDirective _ _ :: _ | .documentStart :: _
                  | .documentEnd :: _ | .streamEnd :: _ => pure Node.empty
                  | _ => Compose.node true false fuel
                let (root, state) := build.run ⟨rest, handles, []⟩
                ⟨some root, isAtEnd state.tokens⟩
            | _ => ⟨some .broken, false⟩

/-- The first document of a text. -/
def parse (text : String) : Document := .ofTokens (tokens text)

end Yaml

end MetricCatalog
