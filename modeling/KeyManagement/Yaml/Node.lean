import KeyManagement.Yaml.Token

/-! # YAML documents

Nodes are built from tokens by recursive descent. Every call takes one from a supply that
starts out larger than the number of calls that the tokens can cause.
-/

namespace KeyManagement.Yaml

inductive Node
  | scalar (plain : Bool) (text : String)
  | sequence (items : List Node)
  | mapping (pairs : List (Node × Node))
  /-- A node with an anchor, by the number of the anchor. -/
  | anchored (number : Nat) (node : Node)
  /-- A reference to the anchor with the number. -/
  | alias (number : Nat)
  deriving Repr

namespace Node

/-- An absent node. -/
def empty : Node := .scalar true ""

/-- The anchors seen so far, each with its number. -/
abbrev Anchors := List (String × Nat)

/-- A new anchor's number is how many names were known before it, so that the number of one
that takes a known name may be given again. -/
def Anchors.declare (anchors : Anchors) (name : String) : Anchors :=
  (name, anchors.length) :: anchors.filter fun a => a.1 != name

structure Progress (α : Type) where
  value : α
  anchors : Anchors
  rest : List Token

/-- Where a node stands, which decides what it may look like and what may follow it. -/
inductive Place
  | block
  /-- A key or value of a block mapping, which may be a sequence without indentation. -/
  | blockMember
  | flow
  deriving DecidableEq

structure Properties where
  anchor : Option String := none
  tagged : Bool := false

/-- An anchor and a tag, each at most once and in either order. -/
def properties (handles : List String) : List Token → Option (Properties × List Token)
  | .anchor a :: .tag h :: rest =>
    if known h then some (⟨some a, true⟩, rest) else none
  | .tag h :: .anchor a :: rest =>
    if known h then some (⟨some a, true⟩, rest) else none
  | .anchor a :: rest => some (⟨some a, false⟩, rest)
  | .tag h :: rest => if known h then some (⟨none, true⟩, rest) else none
  | rest => some ({}, rest)
where
  known (h : Option String) : Bool := h.all fun h => isCommonHandle h || handles.contains h

mutual

def parseNode (handles : List String) (supply : Nat) (place : Place) (anchors : Anchors)
    (tokens : List Token) : Option (Progress Node) :=
  match supply, tokens with
  | 0, _ => none
  | _, .alias name :: rest => do return ⟨.alias (← anchors.lookup name), anchors, rest⟩
  | supply + 1, tokens => do
    let (props, tokens) ← properties handles tokens
    match props.anchor with
    | none => parseContent handles supply place props.tagged anchors tokens
    | some name => do
      let r ← parseContent handles supply place true (anchors.declare name) tokens
      return { r with value := .anchored anchors.length r.value }

def parseContent (handles : List String) (supply : Nat) (place : Place) (mayBeEmpty : Bool)
    (anchors : Anchors) (tokens : List Token) : Option (Progress Node) :=
  match supply, tokens with
  | 0, _ => none
  | _, .scalar plain text :: rest => some ⟨.scalar plain text, anchors, rest⟩
  | supply + 1, .flowSequenceStart :: rest => do
    let r ← parseFlowItems handles supply true anchors rest
    return { r with value := .sequence r.value }
  | supply + 1, .flowMappingStart :: rest => do
    let r ← parseFlowPairs handles supply true anchors rest
    return { r with value := .mapping r.value }
  | supply + 1, .blockEntry :: rest =>
    if place = .blockMember then do
      let r ← parseEntries handles supply false anchors (.blockEntry :: rest)
      return { r with value := .sequence r.value }
    else if mayBeEmpty then some ⟨empty, anchors, tokens⟩
    else none
  | supply + 1, .blockSequenceStart :: rest =>
    if place = .flow then (if mayBeEmpty then some ⟨empty, anchors, tokens⟩ else none)
    else do
      let r ← parseEntries handles supply true anchors rest
      return { r with value := .sequence r.value }
  | supply + 1, .blockMappingStart :: rest =>
    if place = .flow then (if mayBeEmpty then some ⟨empty, anchors, tokens⟩ else none)
    else do
      let r ← parseBlockPairs handles supply anchors rest
      return { r with value := .mapping r.value }
  | _, tokens => if mayBeEmpty then some ⟨empty, anchors, tokens⟩ else none

/-- A node, or an empty one if one of the given tokens follows. -/
def parseOptional (handles : List String) (supply : Nat) (place : Place) (ends : List Token)
    (anchors : Anchors) (tokens : List Token) : Option (Progress Node) :=
  match supply with
  | 0 => none
  | supply + 1 =>
    if tokens.head?.any ends.contains then some ⟨empty, anchors, tokens⟩
    else parseNode handles supply place anchors tokens

/-- The items of a block sequence, which ends with a token of its own if it is indented. -/
def parseEntries (handles : List String) (supply : Nat) (indented : Bool) (anchors : Anchors)
    (tokens : List Token) : Option (Progress (List Node)) :=
  match supply, tokens with
  | 0, _ => none
  | supply + 1, .blockEntry :: rest => do
    let ends : List Token :=
      if indented then [.blockEntry, .blockEnd] else [.blockEntry, .key, .value, .blockEnd]
    let item ← parseOptional handles supply .block ends anchors rest
    let r ← parseEntries handles supply indented item.anchors item.rest
    return { r with value := item.value :: r.value }
  | _, .blockEnd :: rest =>
    if indented then some ⟨[], anchors, rest⟩ else some ⟨[], anchors, tokens⟩
  | _, tokens => if indented then none else some ⟨[], anchors, tokens⟩

def parseBlockPairs (handles : List String) (supply : Nat) (anchors : Anchors)
    (tokens : List Token) : Option (Progress (List (Node × Node))) :=
  match supply, tokens with
  | 0, _ => none
  | _, .blockEnd :: rest => some ⟨[], anchors, rest⟩
  | supply + 1, .key :: rest => do
    let key ← parseOptional handles supply .blockMember [.key, .value, .blockEnd] anchors rest
    let pair ← parseValue handles supply .blockMember [.key, .value, .blockEnd] key.anchors key.rest
    let r ← parseBlockPairs handles supply pair.anchors pair.rest
    return { r with value := (key.value, pair.value) :: r.value }
  | _, _ => none

/-- The value after a key, empty if there is no colon. -/
def parseValue (handles : List String) (supply : Nat) (place : Place) (ends : List Token)
    (anchors : Anchors) (tokens : List Token) : Option (Progress Node) :=
  match supply, tokens with
  | 0, _ => none
  | supply + 1, .value :: rest => parseOptional handles supply place ends anchors rest
  | _, tokens => some ⟨empty, anchors, tokens⟩

/-- The items of a flow sequence; a key or a colon makes an item a mapping of one pair. A
token in the place of a key that is left out belongs to the item. -/
def parseFlowItems (handles : List String) (supply : Nat) (first : Bool) (anchors : Anchors)
    (tokens : List Token) : Option (Progress (List Node)) :=
  match supply, tokens with
  | 0, _ => none
  | _, .flowSequenceEnd :: rest => some ⟨[], anchors, rest⟩
  | supply + 1, tokens => do
    let tokens ← match first, tokens with
      | true, tokens => some tokens
      | false, .flowEntry :: rest => some rest
      | false, _ => none
    let ends : List Token := [.flowEntry, .flowSequenceEnd]
    match tokens with
    | .flowSequenceEnd :: rest => return ⟨[], anchors, rest⟩
    | .key :: rest =>
      let key ← match rest with
        | .value :: rest | .flowEntry :: rest | .flowSequenceEnd :: rest =>
          some ⟨empty, anchors, rest⟩
        | rest => parseNode handles supply .flow anchors rest
      let pair ← parseValue handles supply .flow ends key.anchors key.rest
      let r ← parseFlowItems handles supply false pair.anchors pair.rest
      return { r with value := .mapping [(key.value, pair.value)] :: r.value }
    | tokens =>
      let item ← parseNode handles supply .flow anchors tokens
      let r ← parseFlowItems handles supply false item.anchors item.rest
      return { r with value := item.value :: r.value }

def parseFlowPairs (handles : List String) (supply : Nat) (first : Bool) (anchors : Anchors)
    (tokens : List Token) : Option (Progress (List (Node × Node))) :=
  match supply, tokens with
  | 0, _ => none
  | _, .flowMappingEnd :: rest => some ⟨[], anchors, rest⟩
  | supply + 1, tokens => do
    let tokens ← match first, tokens with
      | true, tokens => some tokens
      | false, .flowEntry :: rest => some rest
      | false, _ => none
    let ends : List Token := [.flowEntry, .flowMappingEnd]
    match tokens with
    | .flowMappingEnd :: rest => return ⟨[], anchors, rest⟩
    | .key :: rest =>
      let key ← parseOptional handles supply .flow (.value :: ends) anchors rest
      let pair ← parseValue handles supply .flow ends key.anchors key.rest
      let r ← parseFlowPairs handles supply false pair.anchors pair.rest
      return { r with value := (key.value, pair.value) :: r.value }
    | tokens =>
      let key ← parseNode handles supply .flow anchors tokens
      let r ← parseFlowPairs handles supply false key.anchors key.rest
      return { r with value := (key.value, empty) :: r.value }

end

def directive? : Token → Option Directive
  | .directive d => some d
  | _ => none

def isDirective (t : Token) : Bool := (directive? t).isSome

/-- Tokens at which a marked document is over. -/
def endsDocument : Token → Bool
  | .documentStart | .documentEnd | .streamEnd => true
  | t => isDirective t

/-- The root of a document. Directives must not repeat each other and demand that the start
of the document is marked, and only then may its root be left out before another mark. -/
def parseRoot (tokens : List Token) : Option (Progress Node) :=
  let directives := (tokens.takeWhile isDirective).filterMap directive?
  let handles := directives.filterMap Directive.declared?
  let supply := 8 * tokens.length + 8
  match directives, tokens.dropWhile isDirective with
  | _, .documentStart :: rest =>
    if !directives.Nodup then none
    else if rest.head?.any endsDocument then some ⟨empty, [], rest⟩
    else parseNode handles supply .block [] rest
  | [], [.streamEnd] => some ⟨empty, [], [.streamEnd]⟩
  | [], rest => parseNode [] supply .block [] rest
  | _, _ => none

/-- The only document of a text; a text without one holds an empty node. -/
def parse? (text : String) : Option Node := do
  let r ← parseRoot (← tokens? text)
  match r.rest.dropWhile (· == .documentEnd) with
  | [.streamEnd] => some r.value
  | _ => none

end Node

end KeyManagement.Yaml
