import KeyManagement.Bytes
import KeyManagement.Text.Hexadecimal
import KeyManagement.Yaml.Cursor

/-! # YAML scalars

Plain, quoted and block scalars. In plain and quoted scalars a run of gaps that holds a
line break is folded: one break becomes a space, and of more the first is dropped.
-/

namespace KeyManagement.Yaml

/-- What a run of gaps inside of a plain or quoted scalar stands for. -/
def foldGap (gap : List Char) : List Char :=
  match gap.filter isBreak with
  | [] => gap
  | ['\n'] => [' ']
  | '\n' :: others => others
  | breaks => breaks

/-- The characters up to a gap or to an indicator that ends a plain scalar. Inside of flow
collections a colon must not stand directly before an indicator. -/
def plainChunk (inFlow : Bool) : List Char → Option (List Char)
  | [] => some []
  | c :: rest =>
    if isGap c then some []
    else if inFlow && c == ':' && rest.head?.any (",?[]\x7b\x7d".toList.contains ·) then none
    else if c == ':' && gapAhead rest then some []
    else if inFlow && ",[]\x7b\x7d".toList.contains c then some []
    else (plainChunk inFlow rest).map (c :: ·)

/-- Whether a tab stands in the indentation of a line that the gap begins. -/
def hasTabInIndent (indent : Nat) (afterBreak : Bool) (column : Nat) : List Char → Bool
  | [] => false
  | c :: rest =>
    if isBreak c then hasTabInIndent indent true 0 rest
    else (afterBreak && column < indent && c == '\t') ||
      hasTabInIndent indent afterBreak (column + 1) rest

/-- A scalar, where it ends, and whether a line break stands between its last character and
there. -/
structure ScannedScalar where
  text : List Char
  cursor : Cursor
  brokeLine : Bool := false

/-- Reads a plain scalar; in block context its lines must be indented. -/
def scanPlain (inFlow : Bool) (indent : Nat) (text gap : List Char) (c : Cursor) :
    Option ScannedScalar :=
  let ended : Option ScannedScalar := some ⟨text, c, gap.any isBreak⟩
  if c.atDocumentMark || c.rest.head? == some '#' then ended
  else match plainChunk inFlow c.rest with
    | none => none
    | some [] => ended
    | some chunk =>
      let text := text ++ foldGap gap ++ chunk
      let c₁ := c.skip chunk.length
      let gap := c₁.rest.takeWhile isGap
      let c₂ := c₁.skip gap.length
      if hasTabInIndent indent false c₁.column gap then none
      else if gap.isEmpty || (!inFlow && c₂.column < indent) then
        some ⟨text, c₂, gap.any isBreak⟩
      else if c₂.rest.length < c.rest.length then scanPlain inFlow indent text gap c₂
      else none
  termination_by c.rest.length

/-- The character of a hexadecimal escape with the given number of digits, and what follows
the digits. -/
def hexEscape (width : Nat) (s : List Char) : Option (Char × List Char) := do
  let digits := s.take width
  if digits.length < width then none
  else
    let n ← Hexadecimal.value? digits
    if n.isValidChar then some (Char.ofNat n, s.drop width) else none

/-- The character that an escape in a double-quoted scalar stands for. -/
def escape : List Char → Option (Char × List Char)
  | '0' :: rest => some ('\x00', rest)
  | 'a' :: rest => some ('\x07', rest)
  | 'b' :: rest => some ('\x08', rest)
  | 't' :: rest => some ('\t', rest)
  | '\t' :: rest => some ('\t', rest)
  | 'n' :: rest => some ('\n', rest)
  | 'v' :: rest => some ('\x0b', rest)
  | 'f' :: rest => some ('\x0c', rest)
  | 'r' :: rest => some ('\r', rest)
  | 'e' :: rest => some ('\x1b', rest)
  | ' ' :: rest => some (' ', rest)
  | '"' :: rest => some ('"', rest)
  | '/' :: rest => some ('/', rest)
  | '\\' :: rest => some ('\\', rest)
  | 'N' :: rest => some ('\u0085', rest)
  | '_' :: rest => some ('\u00a0', rest)
  | 'L' :: rest => some ('\u2028', rest)
  | 'P' :: rest => some ('\u2029', rest)
  | 'x' :: rest => hexEscape 2 rest
  | 'u' :: rest => hexEscape 4 rest
  | 'U' :: rest => hexEscape 8 rest
  | _ => none

/-- Reads the rest of a quoted scalar. A backslash before a line break in double quotes
joins the lines. -/
def scanQuoted (double : Bool) (text : List Char) (c : Cursor) : Option ScannedScalar :=
  if c.atDocumentMark then none
  else
    let quote := if double then '"' else '\''
    let step (added : List Char) (next : Cursor) : Option ScannedScalar :=
      if next.rest.length < c.rest.length then scanQuoted double (text ++ added) next else none
    match c.rest with
    | [] => none
    | x :: rest =>
      if x == quote then
        if !double && rest.head? == some quote then step [quote] (c.skip 2)
        else some { text, cursor := c.next }
      else if double && x == '\\' then
        if rest.head?.any isBreak then
          let after := c.skip 2
          let gap := after.rest.takeWhile isGap
          step (gap.filter isBreak) (after.skip gap.length)
        else match escape rest with
          | none => none
          | some (e, after) => step [e] (c.moveTo after)
      else if isGap x then
        let gap := c.rest.takeWhile isGap
        step (foldGap gap) (c.skip gap.length)
      else step [x] c.next
  termination_by c.rest.length

/-- What happens to the line breaks at the end of a block scalar. -/
inductive Chomping
  | clip
  | strip
  | keep
  deriving DecidableEq

/-- The blank lines ahead, and where the first line that is not blank begins. Without an
indentation given, the deepest of the lines passed decides it. -/
def blankLines (parent : Int) (indent : Nat) (deepest : Nat) (breaks : List Char) (c : Cursor) :
    Option (Nat × List Char × Cursor) :=
  let spaces := (c.rest.takeWhile (· == ' ')).length
  let skipped := if indent = 0 then spaces else min spaces (indent - c.column)
  let c' := c.skip skipped
  let deepest := max deepest c'.column
  match c'.rest with
  | [] => some (settled deepest, breaks, c')
  | x :: _ =>
    if x == '\t' && (indent = 0 || c'.column < indent) then none
    else if isBreak x then
      if c'.next.rest.length < c.rest.length then
        blankLines parent indent deepest (breaks ++ [x]) c'.next
      else none
    else some (settled deepest, breaks, c')
  termination_by c.rest.length
where
  settled (deepest : Nat) : Nat :=
    if indent = 0 then max (max deepest (parent + 1).toNat) 1 else indent

/-- Reads the lines of a block scalar. The first break of a pair of folded lines becomes a
space, unless one of the lines begins with a blank. -/
def blockLines (literal : Bool) (chomping : Chomping) (parent : Int) (indent : Nat)
    (text lastBreak breaks : List Char) (lastBlank : Bool) (c : Cursor) : Option ScannedScalar :=
  let atEnd : Option ScannedScalar :=
    some {
      text := text ++ (if chomping = .strip then [] else lastBreak) ++
        (if chomping = .keep then breaks else [])
      cursor := c }
  if c.column ≠ indent then atEnd
  else match c.rest with
    | [] => atEnd
    | x :: _ =>
      let blank := isSpace x
      let joined :=
        if !literal && lastBreak == ['\n'] && !lastBlank && !blank then
          (if breaks.isEmpty then [' '] else [])
        else lastBreak
      let line := c.rest.takeWhile fun x => !isBreak x
      let c₁ := c.skip line.length
      let text := text ++ joined ++ breaks ++ line
      match blankLines parent indent 0 [] c₁.next with
      | none => none
      | some (_, breaks, c₂) =>
        if c₂.rest.length < c.rest.length then
          blockLines literal chomping parent indent text (c₁.rest.take 1) breaks blank c₂
        else none
  termination_by c.rest.length

/-- The chomping and indentation indicators of a block scalar, in either order. -/
def blockHeader (s : List Char) : Option (Chomping × Nat × List Char) :=
  let chomp : List Char → Chomping × List Char
    | '+' :: rest => (.keep, rest)
    | '-' :: rest => (.strip, rest)
    | rest => (.clip, rest)
  let increment : List Char → Option (Nat × List Char)
    | d :: rest =>
      if d == '0' then none
      else if d.isDigit then some (d.toNat - '0'.toNat, rest)
      else some (0, d :: rest)
    | [] => some (0, [])
  let (first, afterChomp) := chomp s
  if first = .clip then do
    let (n, rest) ← increment s
    if n = 0 then some (.clip, 0, rest)
    else
      let (chomping, rest) := chomp rest
      some (chomping, n, rest)
  else do
    let (n, rest) ← increment afterChomp
    some (first, n, rest)

/-- Reads a block scalar after its indicator, in a collection of the given indentation. -/
def scanBlock (literal : Bool) (parent : Int) (c : Cursor) : Option ScannedScalar := do
  let (chomping, increment, afterHeader) ← blockHeader c.rest
  let c := (c.moveTo afterHeader).skipWhile isSpace
  let c := if c.rest.head? == some '#' then c.skipWhile fun x => !isBreak x else c
  if c.rest.head?.any fun x => !isBreak x then none
  else
    let indent := if increment = 0 then 0 else (max parent 0).toNat + increment
    let (indent, breaks, c) ← blankLines parent indent 0 [] c.next
    blockLines literal chomping parent indent [] [] breaks false c

end KeyManagement.Yaml
