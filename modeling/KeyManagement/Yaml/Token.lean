import KeyManagement.Yaml.Directive
import KeyManagement.Yaml.Scalar

/-! # YAML tokens

A text is cut into indicators and scalars, with tokens of their own where the indentation
opens and closes a block collection. A simple key is recognised only at its colon: the
tokens that open its mapping are then put in front of it.
-/

namespace KeyManagement.Yaml

inductive Token
  | streamEnd
  | directive (d : Directive)
  | documentStart
  | documentEnd
  | blockSequenceStart
  | blockMappingStart
  | blockEnd
  | flowSequenceStart
  | flowSequenceEnd
  | flowMappingStart
  | flowMappingEnd
  | blockEntry
  | flowEntry
  | key
  | value
  | alias (name : String)
  | anchor (name : String)
  /-- A tag, with its handle if it has one. -/
  | tag (handle : Option String)
  | scalar (plain : Bool) (text : String)
  deriving DecidableEq, Repr

/-- Where a simple key may have begun: before which token, and at which position. -/
structure SimpleKey where
  required : Bool
  token : Nat
  line : Nat
  column : Nat
  offset : Nat

/-- The state of the scanner: the open block collections with their indentation, and for
the block context and each open flow collection the simple key that is possible. -/
structure Scanner where
  cursor : Cursor
  tokens : Array Token := #[]
  indent : Int := -1
  outer : List Int := []
  keyAllowed : Bool := true
  blockKey : Option SimpleKey := none
  flowKeys : List (Option SimpleKey) := []
  ended : Bool := false

namespace Scanner

def inFlow (s : Scanner) : Bool := !s.flowKeys.isEmpty

def emit (s : Scanner) (t : Token) : Scanner := { s with tokens := s.tokens.push t }

def currentKey (s : Scanner) : Option SimpleKey :=
  match s.flowKeys with
  | [] => s.blockKey
  | k :: _ => k

def setKey (s : Scanner) (k : Option SimpleKey) : Scanner :=
  match s.flowKeys with
  | [] => { s with blockKey := k }
  | _ :: rest => { s with flowKeys := k :: rest }

/-- Gives up a possible key, unless one is required there. -/
def dropKey (s : Scanner) : Option Scanner :=
  if s.currentKey.any (·.required) then none else some (s.setKey none)

/-- Notes that a simple key may begin here. -/
def saveKey (s : Scanner) : Option Scanner :=
  if s.keyAllowed then do
    let s ← s.dropKey
    return s.setKey (some {
      required := !s.inFlow && s.indent == s.cursor.column
      token := s.tokens.size
      line := s.cursor.line
      column := s.cursor.column
      offset := s.cursor.offset })
  else some s

/-- A simple key is on one line and has at most 1024 bytes. -/
def isStale (c : Cursor) (k : SimpleKey) : Bool :=
  k.line < c.line || k.offset + 1024 < c.offset

def dropStale (s : Scanner) : Option Scanner :=
  let stale (k : Option SimpleKey) : Bool := k.any (isStale s.cursor)
  if (s.blockKey :: s.flowKeys).any fun k => stale k && k.any (·.required) then none
  else
    let keep (k : Option SimpleKey) := if stale k then none else k
    some { s with blockKey := keep s.blockKey, flowKeys := s.flowKeys.map keep }

/-- Opens a block collection at a deeper column, with its token at the given place. -/
def openBlock (s : Scanner) (column : Nat) (place : Nat) (t : Token) : Scanner :=
  if s.inFlow || (column : Int) ≤ s.indent then s
  else { s with
    outer := s.indent :: s.outer
    indent := column
    tokens := s.tokens.insertIdxIfInBounds place t }

def closeBlocksAt (column : Int) : (indent : Int) → (outer : List Int) → Nat × Int × List Int
  | indent, [] => (0, indent, [])
  | indent, next :: outer =>
    if column < indent then
      let (n, indent, outer) := closeBlocksAt column next outer
      (n + 1, indent, outer)
    else (0, indent, next :: outer)

/-- Closes the block collections that are deeper than the column. -/
def closeBlocks (s : Scanner) (column : Int) : Scanner :=
  if s.inFlow then s
  else
    let (n, indent, outer) := closeBlocksAt column s.indent s.outer
    { s with tokens := s.tokens ++ Array.replicate n .blockEnd, indent, outer }

/-- Where the blanks and the comment end that stand here on the line, and the byte order mark
that may begin it. Tabs are not skipped where a simple key may begin in block context. -/
def afterBlanks (s : Scanner) : Cursor :=
  let c := s.cursor
  let c := if c.column == 0 && c.rest.head? == some '\ufeff' then c.next else c
  let c := c.skipWhile fun x => x == ' ' || ((s.inFlow || !s.keyAllowed) && x == '\t')
  if c.rest.head? == some '#' then c.skipWhile fun x => !isBreak x else c

/-- Skips blanks, comments and line breaks before a token. -/
def skipGaps (s : Scanner) : Scanner :=
  if s.afterBlanks.rest.head?.any isBreak then
    if s.afterBlanks.next.rest.length < s.cursor.rest.length then
      skipGaps { s with cursor := s.afterBlanks.next, keyAllowed := s.keyAllowed || !s.inFlow }
    else s
  else { s with cursor := s.afterBlanks }
  termination_by s.cursor.rest.length

/-- Emits a token for the next `n` characters. -/
def take (s : Scanner) (n : Nat) (t : Token) : Scanner :=
  { s with cursor := s.cursor.skip n, tokens := s.tokens.push t }

def allow (s : Scanner) (keyAllowed : Bool) : Scanner := { s with keyAllowed }

def documentMark (s : Scanner) (t : Token) : Option Scanner := do
  let s ← (s.closeBlocks (-1)).dropKey
  return (s.allow false).take 3 t

def flowStart (s : Scanner) (t : Token) : Option Scanner := do
  let s ← s.saveKey
  return ({ s with flowKeys := none :: s.flowKeys }.allow true).take 1 t

def flowEnd (s : Scanner) (t : Token) : Option Scanner := do
  let s ← s.dropKey
  return ({ s with flowKeys := s.flowKeys.tail }.allow false).take 1 t

def flowEntry (s : Scanner) : Option Scanner := do
  let s ← s.dropKey
  return (s.allow true).take 1 .flowEntry

def blockEntry (s : Scanner) : Option Scanner := do
  if !s.inFlow && !s.keyAllowed then none
  else
    let s := s.openBlock s.cursor.column s.tokens.size .blockSequenceStart
    let s ← s.dropKey
    return (s.allow true).take 1 .blockEntry

def keyIndicator (s : Scanner) : Option Scanner := do
  if !s.inFlow && !s.keyAllowed then none
  else
    let s := s.openBlock s.cursor.column s.tokens.size .blockMappingStart
    let s ← s.dropKey
    return (s.allow !s.inFlow).take 1 .key

def valueIndicator (s : Scanner) : Option Scanner :=
  match s.currentKey with
  | some k =>
    let s := { s with tokens := s.tokens.insertIdxIfInBounds k.token .key }
    let s := s.openBlock k.column k.token .blockMappingStart
    some (((s.setKey none).allow false).take 1 .value)
  | none =>
    if !s.inFlow && !s.keyAllowed then none
    else
      let s := s.openBlock s.cursor.column s.tokens.size .blockMappingStart
      some ((s.allow !s.inFlow).take 1 .value)

/-- An anchor or alias: its name ends at a gap or at one of a few indicators. -/
def anchor (s : Scanner) (token : String → Token) : Option Scanner := do
  let s ← s.saveKey
  let c := s.cursor.next
  let name := c.rest.takeWhile isWordChar
  let c := c.skip name.length
  if name.isEmpty || !(gapAhead c.rest || c.rest.head?.any ("?:,]\x7d%@`".toList.contains ·)) then
    none
  else
    let tokens := s.tokens.push (token (String.ofList name))
    return { s.allow false with cursor := c, tokens }

def tag (s : Scanner) : Option Scanner := do
  let s ← s.saveKey
  let (handle, after) ← tag? s.cursor.rest
  if gapAhead after || (s.inFlow && after.head? == some ',') then
    return { s.allow false with
      cursor := s.cursor.moveTo after, tokens := s.tokens.push (.tag handle) }
  else none

/-- A directive with its line break. -/
def directive (s : Scanner) : Option Scanner := do
  let s ← (s.closeBlocks (-1)).dropKey
  let (d, after) ← Directive.parse? s.cursor.next.rest
  return { s.allow false with
    cursor := (s.cursor.moveTo after).next, tokens := s.tokens.push (.directive d) }

def scanned (s : Scanner) (plain : Bool) (r : ScannedScalar) : Scanner :=
  { s with cursor := r.cursor, tokens := s.tokens.push (.scalar plain (String.ofList r.text)) }

def plainScalar (s : Scanner) : Option Scanner := do
  let s ← s.saveKey
  let r ← scanPlain s.inFlow (s.indent + 1).toNat [] [] s.cursor
  return (s.allow r.brokeLine).scanned true r

def quotedScalar (s : Scanner) (double : Bool) : Option Scanner := do
  let s ← s.saveKey
  let r ← scanQuoted double [] s.cursor.next
  return (s.allow false).scanned false r

def blockScalar (s : Scanner) (literal : Bool) : Option Scanner := do
  let s ← s.dropKey
  let r ← scanBlock literal s.indent s.cursor.next
  return (s.allow true).scanned false r

def finish (s : Scanner) : Option Scanner := do
  let s ← (s.closeBlocks (-1)).dropKey
  return { s.emit .streamEnd with ended := true }

/-- Characters that begin no plain scalar. -/
def isIndicator (c : Char) : Bool := "-?:,[]\x7b\x7d#&*!|>'\"%@`".toList.contains c

/-- Reads the next token, and with it the ends of the block collections before it. -/
def step (s : Scanner) : Option Scanner := do
  let s ← s.skipGaps.dropStale
  let s := s.closeBlocks s.cursor.column
  match s.cursor.rest with
  | [] => s.finish
  | c :: rest =>
    if s.cursor.column == 0 && c == '%' then s.directive
    else if s.cursor.atDocumentMark then
      s.documentMark (if c == '-' then .documentStart else .documentEnd)
    else match c with
      | '[' => s.flowStart .flowSequenceStart
      | '\x7b' => s.flowStart .flowMappingStart
      | ']' => s.flowEnd .flowSequenceEnd
      | '\x7d' => s.flowEnd .flowMappingEnd
      | ',' => s.flowEntry
      | '*' => s.anchor .alias
      | '&' => s.anchor .anchor
      | '!' => s.tag
      | '\'' => s.quotedScalar false
      | '"' => s.quotedScalar true
      | c =>
        let gap := gapAhead rest
        if c == '-' && gap then s.blockEntry
        else if c == '?' && (s.inFlow || gap) then s.keyIndicator
        else if c == ':' && (s.inFlow || gap) then s.valueIndicator
        else if c == '|' && !s.inFlow then s.blockScalar true
        else if c == '>' && !s.inFlow then s.blockScalar false
        else if (!isGap c && !isIndicator c) || (c == '-' && !rest.head?.any isSpace) ||
            (!s.inFlow && (c == '?' || c == ':')) then
          s.plainScalar
        else none

/-- Reads tokens up to the end of the text. -/
def run (s : Scanner) : Option (Array Token) :=
  match s.step with
  | none => none
  | some s' =>
    if s'.ended then some s'.tokens
    else if s'.cursor.rest.length < s.cursor.rest.length then run s'
    else none
  termination_by s.cursor.rest.length

end Scanner

def tokens? (text : String) : Option (List Token) :=
  if text.toList.all isAllowed then
    (Scanner.run { cursor := { rest := unifyBreaks text.toList } }).map Array.toList
  else none

end KeyManagement.Yaml
