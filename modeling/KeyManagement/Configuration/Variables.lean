import KeyManagement.Configuration.Basic
import KeyManagement.Configuration.Setting
import KeyManagement.Text.Decimal

/-! # Configuration by variables

A variable whose name starts with the prefix of the emulator, in any case, gives the
setting that the rest of its name says. A name may go on with parts of a setting, behind
dots and in brackets. What is not given has its default.
-/

namespace KeyManagement

inductive ConfigurationError
  /-- The value of a setting has the wrong kind. -/
  | unreadable (setting : String)
  | invalid (fault : ConfigurationFault)
  deriving DecidableEq, Repr

def ConfigurationError.message : ConfigurationError → String
  | .unreadable setting =>
    "Failed to load configuration: the value of " ++ setting ++ " has the wrong kind"
  | .invalid fault => fault.message

namespace Variable

def namePrefix : List Char := "kms_emulator_".toList

/-- The small letter. Of all other capitals only the Kelvin sign has a small letter that
can stand in the name of a setting. -/
def lower (c : Char) : Char := if c = '\u212a' then 'k' else c.toLower

def isNameChar (c : Char) : Bool := c.isAlphanum || c == '_' || c == '-' || c == ' '

def isGap (c : Char) : Bool := c == ' ' || c == '\t'

/-- Where a reader of parts stands; in the digits of an index, with the number so far. -/
inductive PartMode
  | betweenParts
  | afterDot
  | inName
  | afterBracket
  | afterMinus
  | inDigits (negative : Bool) (n : Nat)
  | afterDigits
  deriving DecidableEq, Repr

/-- Indices are signed 64-bit integers. -/
def isIndex (negative : Bool) (n : Nat) : Bool :=
  n < 0x8000000000000000 || (negative && n = 0x8000000000000000)

def PartMode.begin? (c : Char) : Option PartMode :=
  if c = '.' then some .afterDot
  else if c = '[' then some .afterBracket
  else none

def PartMode.next? : PartMode → Char → Option PartMode
  | .betweenParts, c => begin? c
  | .afterDot, c => if isNameChar c then some .inName else none
  | .inName, c => if isNameChar c then some .inName else begin? c
  | .afterBracket, c =>
    if isGap c then some .afterBracket
    else if c = '-' then some .afterMinus
    else (Decimal.digit? c).map (.inDigits false)
  | .afterMinus, c => (Decimal.digit? c).map (.inDigits true)
  | .inDigits negative n, c =>
    match Decimal.digit? c with
    | some d => some (.inDigits negative (n * 10 + d))
    | none =>
      if !isIndex negative n then none
      else if isGap c then some .afterDigits
      else if c = ']' then some .betweenParts
      else none
  | .afterDigits, c =>
    if isGap c then some .afterDigits
    else if c = ']' then some .betweenParts
    else none

/-- Whether a text is a sequence of parts: each is a dot and a name, or an index in
brackets. -/
def areParts (s : List Char) : Bool :=
  match s.foldlM PartMode.next? .betweenParts with
  | some mode => mode = .betweenParts || mode = .inName
  | none => false

/-- The setting that a variable is for, and whether it gives the whole of it. -/
def setting? (variableName : String) : Option (String × Bool) :=
  let name := variableName.toList.map lower
  if namePrefix.isPrefixOf name then
    let name := name.drop namePrefix.length
    let (head, parts) := name.span isNameChar
    if !head.isEmpty && areParts parts then some (String.ofList head, parts.isEmpty)
    else some (String.ofList name, true)
  else none

end Variable

namespace Configuration

/-- The settings that variables give, the last variable first. -/
def settings (vars : List (String × String)) : List (String × Setting) :=
  vars.reverse.filterMap fun (name, value) =>
    (Variable.setting? name).map fun (setting, whole) =>
      (setting, if whole then .ofText value else .parts)

/-- A setting as the wanted kind, or nothing if it is not given. -/
def given {α : Type} (settings : List (String × Setting)) (name : String)
    (convert : Setting → Option α) : Except ConfigurationError (Option α) :=
  match settings.lookup name with
  | none => .ok none
  | some setting =>
    match convert setting with
    | some value => .ok (some value)
    | none => .error (.unreadable name)

def read (settings : List (String × Setting)) : Except ConfigurationError Configuration := do
  let defaults : Configuration := {}
  let text := fun name => given settings name Setting.text?
  return {
    listenAddress := (← text "listen_addr").getD defaults.listenAddress
    seedFile := ← text "seed_file"
    store := (← text "store").getD defaults.store
    logLevel := (← text "log_level").getD defaults.logLevel
    logFormat := (← text "log_format").getD defaults.logFormat
    requestTimeout := ← given settings "request_timeout_secs" Setting.natural? }

/-- The configuration that variables give, if all of it can be used. -/
def ofVariables (vars : List (String × String)) :
    Except ConfigurationError Configuration := do
  let c ← read (settings vars)
  match c.fault? with
  | some fault => .error (.invalid fault)
  | none => .ok c

end Configuration

end KeyManagement
