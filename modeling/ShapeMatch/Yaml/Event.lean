import ShapeMatch.Yaml.Token

/-!
# YAML events

The structure of YAML documents as a sequence of events: scalars, aliases, and the starts and
ends of collections. The grammar is a machine with a stack of what comes after the node in
progress; nodes that the text leaves out are empty plain scalars.

## Main definitions

* `Yaml.Event`: a piece of structure.
* `Yaml.Expect`: what the grammar expects next.
* `Yaml.Parsing.step?`: one step of the grammar.
* `Yaml.documents?`: the events of each document.
-/

namespace ShapeMatch.Yaml

/-- What a node carries besides its content. -/
structure Properties where
  anchor : Option String
  tag : Option Tag
deriving DecidableEq, Repr

def Properties.none : Properties := ⟨.none, .none⟩

/-- A piece of the structure of a document. -/
inductive Event where
  | alias (name : String)
  | scalar (properties : Properties) (text : String) (plain : Bool)
  | sequenceStart (properties : Properties)
  | sequenceEnd
  | mappingStart (properties : Properties)
  | mappingEnd
deriving DecidableEq, Repr

/-- A node that the text leaves out. -/
def Event.empty (properties : Properties) : Event := .scalar properties "" true

/-- What the grammar expects next. -/
inductive Expect where
  | firstDocument
  | nextDocument
  | documentContent
  | documentEnd
  | node (block indentless : Bool)
  | blockSequenceEntry
  | indentlessEntry
  | blockMappingKey
  | blockMappingValue
  | flowSequenceEntry (first : Bool)
  | flowPairKey
  | flowPairValue
  | flowPairEnd
  | flowMappingKey (first : Bool)
  | flowMappingValue
  | flowMappingNoValue
deriving DecidableEq, Repr

/-- The grammar at work: the tokens left, what is expected next and after that, the meaning of
tag handles, and what has been found, last event and document first. -/
structure Parsing where
  tokens : List Token
  expect : Expect
  stack : List Expect
  handles : List (String × Tag)
  versioned : Bool
  events : List Event
  documents : List (List Event)

/-- The tag handles that need no directive. -/
def defaultHandles : List (String × Tag) := [("!", .mark), ("!!", .coreStart)]

namespace Parsing

def start (tokens : List Token) : Parsing := ⟨tokens, .firstDocument, [], [], false, [], []⟩

/-- Adds an event. -/
def emit (p : Parsing) (e : Event) : Parsing := { p with events := e :: p.events }

/-- Expects something next. -/
def goto (p : Parsing) (e : Expect) : Parsing := { p with expect := e }

/-- Expects a node, and something else after it. -/
def nodeThen (p : Parsing) (block indentless : Bool) (after : Expect) : Parsing :=
  { p with expect := .node block indentless, stack := after :: p.stack }

/-- Adds an empty node and expects something next. -/
def emptyThen (p : Parsing) (after : Expect) : Parsing := (p.emit (.empty .none)).goto after

/-- Expects what comes after the node in progress. -/
def pop? (p : Parsing) : Option Parsing :=
  match p.stack with
  | e :: rest => some { p with expect := e, stack := rest }
  | [] => none

/-! ## Documents -/

/-- Reads the directives before a document. A version is given at most once and must be 1.1 or
1.2; a handle is declared at most once. -/
def directives? (p : Parsing) : List Token → Option Parsing
  | .versionDirective major minor :: rest =>
    if p.versioned || major != 1 || (minor != 1 && minor != 2) then none
    else directives? { p with versioned := true } rest
  | .tagDirective handle expansion :: rest =>
    if (p.handles.lookup handle).isSome then none
    else directives? { p with handles := p.handles ++ [(handle, expansion)] } rest
  | rest => some { p with tokens := rest }

/-- A document with a start marker, after its directives. -/
def explicitDocument? (p : Parsing) : Option Parsing := do
  let p ← directives? { p with handles := [], versioned := false } p.tokens
  match p.tokens with
  | .documentStart :: rest =>
    return { p with tokens := rest, expect := .documentContent, stack := [.documentEnd] }
  | _ => none

/-- The first document, which needs no start marker, unless the text holds none. -/
def firstDocument? (p : Parsing) : Option Parsing :=
  match p.tokens with
  | .versionDirective _ _ :: _ | .tagDirective _ _ :: _ | .documentStart :: _ =>
    p.explicitDocument?
  | .streamEnd :: _ => some p
  | _ => some ({ p with handles := [], versioned := false }.nodeThen true false .documentEnd)

/-- A further document, unless the text ends. -/
def nextDocument? (p : Parsing) : Option Parsing :=
  match p.tokens with
  | .documentEnd :: rest => some { p with tokens := rest }
  | .streamEnd :: _ => some p
  | _ => p.explicitDocument?

/-- What follows a start marker: nothing, or a node. -/
def documentContent? (p : Parsing) : Option Parsing :=
  match p.tokens with
  | .versionDirective _ _ :: _ | .tagDirective _ _ :: _ | .documentStart :: _
  | .documentEnd :: _ | .streamEnd :: _ => (p.emit (.empty .none)).pop?
  | _ => some (p.goto (.node true false))

/-- The end of a document, marked or not. -/
def documentEnd (p : Parsing) : Parsing :=
  let rest := match p.tokens with
    | .documentEnd :: rest => rest
    | tokens => tokens
  { p with
    tokens := rest
    expect := .nextDocument
    events := []
    documents := p.events.reverse :: p.documents }

/-! ## Nodes -/

/-- The meaning of a tag: its handle expanded, unless it is empty. -/
def expandTag? (p : Parsing) (handle : String) (suffix : Tag) : Option Tag :=
  if handle.isEmpty then some suffix
  else ((p.handles ++ defaultHandles).lookup handle).map (·.append suffix)

/-- The properties of a node, an anchor and a tag in either order. -/
def properties? (p : Parsing) : Option (Properties × List Token) :=
  match p.tokens with
  | .anchor name :: .tag handle suffix :: rest
  | .tag handle suffix :: .anchor name :: rest =>
    (p.expandTag? handle suffix).map fun tag => (⟨some name, some tag⟩, rest)
  | .anchor name :: rest => some (⟨some name, .none⟩, rest)
  | .tag handle suffix :: rest =>
    (p.expandTag? handle suffix).map fun tag => (⟨.none, some tag⟩, rest)
  | rest => some (.none, rest)

/-- A node that is not an alias, whose properties have been read. -/
def content? (p : Parsing) (block indentless : Bool) (props : Properties) : Option Parsing :=
  let collection (p : Parsing) (e : Event) (next : Expect) : Option Parsing :=
    some ((p.emit e).goto next)
  match p.tokens with
  | .scalar text plain :: rest =>
    ({ p with tokens := rest }.emit (.scalar props text plain)).pop?
  | .flowSequenceStart :: rest =>
    collection { p with tokens := rest } (.sequenceStart props) (.flowSequenceEntry true)
  | .flowMappingStart :: rest =>
    collection { p with tokens := rest } (.mappingStart props) (.flowMappingKey true)
  | tokens =>
    match indentless, block, tokens with
    | true, _, .blockEntry :: _ => collection p (.sequenceStart props) .indentlessEntry
    | _, true, .blockSequenceStart :: rest =>
      collection { p with tokens := rest } (.sequenceStart props) .blockSequenceEntry
    | _, true, .blockMappingStart :: rest =>
      collection { p with tokens := rest } (.mappingStart props) .blockMappingKey
    | _, _, _ => if props = .none then none else (p.emit (.empty props)).pop?

/-- A node: an alias, or properties and content. -/
def node? (p : Parsing) (block indentless : Bool) : Option Parsing :=
  match p.tokens with
  | .alias name :: rest => ({ p with tokens := rest }.emit (.alias name)).pop?
  | _ => do
    let (props, rest) ← p.properties?
    content? { p with tokens := rest } block indentless props

/-! ## Block collections -/

def blockSequenceEntry? (p : Parsing) : Option Parsing :=
  match p.tokens with
  | .blockEntry :: rest =>
    let p := { p with tokens := rest }
    match rest with
    | .blockEntry :: _ | .blockEnd :: _ => some (p.emptyThen .blockSequenceEntry)
    | _ => some (p.nodeThen true false .blockSequenceEntry)
  | .blockEnd :: rest => ({ p with tokens := rest }.emit .sequenceEnd).pop?
  | _ => none

/-- An entry of a sequence that stands at the column of the mapping around it. -/
def indentlessEntry? (p : Parsing) : Option Parsing :=
  match p.tokens with
  | .blockEntry :: rest =>
    let p := { p with tokens := rest }
    match rest with
    | .blockEntry :: _ | .key :: _ | .value :: _ | .blockEnd :: _ =>
      some (p.emptyThen .indentlessEntry)
    | _ => some (p.nodeThen true false .indentlessEntry)
  | _ => (p.emit .sequenceEnd).pop?

/-- A key or a value of a block mapping, after its mark. -/
def blockPart (p : Parsing) (after : Expect) : Parsing :=
  match p.tokens with
  | .key :: _ | .value :: _ | .blockEnd :: _ => p.emptyThen after
  | _ => p.nodeThen true true after

def blockMappingKey? (p : Parsing) : Option Parsing :=
  match p.tokens with
  | .key :: rest => some ({ p with tokens := rest }.blockPart .blockMappingValue)
  | .blockEnd :: rest => ({ p with tokens := rest }.emit .mappingEnd).pop?
  | _ => none

def blockMappingValue (p : Parsing) : Parsing :=
  match p.tokens with
  | .value :: rest => { p with tokens := rest }.blockPart .blockMappingKey
  | _ => p.emptyThen .blockMappingKey

/-! ## Flow collections -/

/-- Moves past the comma before every part of a flow collection but the first. -/
def flowSeparator? (p : Parsing) (first : Bool) : Option Parsing :=
  match first, p.tokens with
  | true, _ => some p
  | false, .flowEntry :: rest => some { p with tokens := rest }
  | false, _ => none

/-- An entry of a flow sequence: a node, or a pair that is a mapping of its own. -/
def flowSequenceEntry? (p : Parsing) (first : Bool) : Option Parsing :=
  match p.tokens with
  | .flowSequenceEnd :: rest => ({ p with tokens := rest }.emit .sequenceEnd).pop?
  | _ => do
    let p ← p.flowSeparator? first
    match p.tokens with
    | .key :: rest => return ({ p with tokens := rest }.emit (.mappingStart .none)).goto .flowPairKey
    | .flowSequenceEnd :: rest => ({ p with tokens := rest }.emit .sequenceEnd).pop?
    | _ => return p.nodeThen false false (.flowSequenceEntry false)

/-- The key of a pair in a flow sequence. The token after a key that is left out is passed
over. -/
def flowPairKey (p : Parsing) : Parsing :=
  match p.tokens with
  | .value :: rest | .flowEntry :: rest | .flowSequenceEnd :: rest =>
    { p with tokens := rest }.emptyThen .flowPairValue
  | _ => p.nodeThen false false .flowPairValue

def flowPairValue (p : Parsing) : Parsing :=
  match p.tokens with
  | .value :: rest =>
    let p := { p with tokens := rest }
    match rest with
    | .flowEntry :: _ | .flowSequenceEnd :: _ => p.emptyThen .flowPairEnd
    | _ => p.nodeThen false false .flowPairEnd
  | _ => p.emptyThen .flowPairEnd

/-- An entry of a flow mapping: a marked key, or a node that is a key without a value. -/
def flowMappingKey? (p : Parsing) (first : Bool) : Option Parsing :=
  match p.tokens with
  | .flowMappingEnd :: rest => ({ p with tokens := rest }.emit .mappingEnd).pop?
  | _ => do
    let p ← p.flowSeparator? first
    match p.tokens with
    | .key :: rest =>
      let p := { p with tokens := rest }
      match rest with
      | .value :: _ | .flowEntry :: _ | .flowMappingEnd :: _ => return p.emptyThen .flowMappingValue
      | _ => return p.nodeThen false false .flowMappingValue
    | .flowMappingEnd :: rest => ({ p with tokens := rest }.emit .mappingEnd).pop?
    | _ => return p.nodeThen false false .flowMappingNoValue

def flowMappingValue (p : Parsing) : Parsing :=
  match p.tokens with
  | .value :: rest =>
    let p := { p with tokens := rest }
    match rest with
    | .flowEntry :: _ | .flowMappingEnd :: _ => p.emptyThen (.flowMappingKey false)
    | _ => p.nodeThen false false (.flowMappingKey false)
  | _ => p.emptyThen (.flowMappingKey false)

/-! ## The grammar -/

/-- One step of the grammar. -/
def step? (p : Parsing) : Option Parsing :=
  match p.expect with
  | .firstDocument => p.firstDocument?
  | .nextDocument => p.nextDocument?
  | .documentContent => p.documentContent?
  | .documentEnd => some p.documentEnd
  | .node block indentless => p.node? block indentless
  | .blockSequenceEntry => p.blockSequenceEntry?
  | .indentlessEntry => p.indentlessEntry?
  | .blockMappingKey => p.blockMappingKey?
  | .blockMappingValue => some p.blockMappingValue
  | .flowSequenceEntry first => p.flowSequenceEntry? first
  | .flowPairKey => some p.flowPairKey
  | .flowPairValue => some p.flowPairValue
  | .flowPairEnd => some ((p.emit .mappingEnd).goto (.flowSequenceEntry false))
  | .flowMappingKey first => p.flowMappingKey? first
  | .flowMappingValue => some p.flowMappingValue
  | .flowMappingNoValue => some (p.emptyThen (.flowMappingKey false))

/-- Whether nothing is left but the end of the text. -/
def finished (p : Parsing) : Bool :=
  (p.expect == .firstDocument || p.expect == .nextDocument) && p.tokens == [.streamEnd]

/-- Takes steps until the text ends, at most `fuel` of them. -/
def run? : Nat → Parsing → Option (List (List Event))
  | 0, _ => none
  | fuel + 1, p => if p.finished then some p.documents.reverse else p.step?.bind (run? fuel)

end Parsing

/-- The events of each document. Every token is followed by few steps that read none: each of
these ends a node, or leaves one out. -/
def documents? (tokens : List Token) : Option (List (List Event)) :=
  Parsing.run? (8 * tokens.length + 8) (.start tokens)

end ShapeMatch.Yaml
