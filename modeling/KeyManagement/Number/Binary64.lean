import KeyManagement.Text.Decimal

/-! # Floating-point numbers of 64 bits

A finite number is a sign and a magnitude counted in units of 2 ^ -1074, the smallest
positive magnitude. Counted in units of 10 ^ -1074 the same magnitude is 5 ^ 1074 times as
much, so that rounding and printing are arithmetic on natural numbers.
-/

namespace KeyManagement

inductive Binary64
  | nan
  | infinite (negative : Bool)
  /-- A magnitude in units of 2 ^ -1074. -/
  | finite (negative : Bool) (units : Nat)
  deriving DecidableEq, Repr

namespace Binary64

/-- How many binary, and how many decimal places a magnitude may have. -/
def places : Nat := 1074

/-- How many decimal units make a binary one. -/
def decimalFactor : Nat := Nat.pow 5 places

/-- The distance from a magnitude to the next greater one with 53 binary digits. -/
def step (units : Nat) : Nat := 1 <<< (units.log2 - 52)

/-- The distance to the next smaller one, which is half as much below a power of two. -/
def stepBelow (units : Nat) : Nat :=
  if units = 1 <<< units.log2 then max 1 (step units / 2) else step units

/-- The quotient rounded to the nearest natural number, a half to the even one. -/
def divideToEven (n d : Nat) : Nat :=
  let q := n / d
  if 2 * (n % d) < d ∨ (2 * (n % d) = d ∧ q % 2 = 0) then q else q + 1

/-- The number nearest to a quotient, infinite from 2 ^ 1024 on. -/
def ofQuotient (negative : Bool) (n d : Nat) : Binary64 :=
  let scaled := n <<< places
  let s := step (scaled / d)
  let units := divideToEven scaled (d * s) * s
  if units < 1 <<< (1024 + places) then .finite negative units else .infinite negative

/-- The number nearest to some digits times a power of ten. Powers that are out of reach of
all digits are not computed. -/
def ofDecimal (negative : Bool) (digits : Nat) (exponent : Int) : Binary64 :=
  if digits = 0 then .finite negative 0
  else if 400 < exponent then .infinite negative
  else if exponent + digits.log2 < -400 then .finite negative 0
  else if 0 ≤ exponent then ofQuotient negative (digits * Decimal.power exponent.toNat) 1
  else ofQuotient negative digits (Decimal.power (-exponent).toNat)

/-- Whether a decimal magnitude, in units of 10 ^ -1074, is nearest to a binary one: it lies
between the midpoints to the neighbours, or on one if the last binary digit is even. -/
def isNearest (units decimal : Nat) : Bool :=
  let low := (4 * units - 2 * stepBelow units) * decimalFactor
  let high := (4 * units + 2 * step units) * decimalFactor
  if units / step units % 2 = 0 then low ≤ 4 * decimal && 4 * decimal ≤ high
  else low < 4 * decimal && 4 * decimal < high

/-- The better of the two neighbours of a magnitude on a decimal grid, if one is nearest to
it; of two at the same distance the greater one. -/
def onGrid? (units grid : Nat) : Option Nat :=
  let exact := units * decimalFactor
  let below := exact / grid * grid
  let above := below + grid
  if isNearest units below && (exact - below < above - exact || !isNearest units above) then
    some below
  else if isNearest units above then some above
  else none

/-- The decimal magnitude with the fewest digits that is nearest to a binary one. -/
def shortest (units : Nat) : Nat :=
  let exact := units * decimalFactor
  let length := (Nat.toDigits 10 exact).length
  ((List.range length).findSome? fun n => onGrid? units (Decimal.power (length - 1 - n))).getD exact

/-- A decimal magnitude with all digits of the whole part and without zeros at the end. -/
def positional (decimal : Nat) : List Char :=
  let whole := Nat.toDigits 10 (decimal / Decimal.power places)
  let fraction := Nat.toDigits 10 (decimal % Decimal.power places)
  let padded := List.replicate (places - fraction.length) '0' ++ fraction
  match (padded.reverse.dropWhile (· = '0')).reverse with
  | [] => whole
  | digits => whole ++ '.' :: digits

def sign (negative : Bool) : List Char := if negative then ['-'] else []

/-- The shortest text that reads back, never with an exponent. -/
def render : Binary64 → String
  | .nan => "NaN"
  | .infinite negative => String.ofList (sign negative ++ ['i', 'n', 'f'])
  | .finite negative units => String.ofList (sign negative ++ positional (shortest units))

def greatest : Nat := 0xffffffffffffffff

/-- The nearest natural number below 2 ^ 64, a half rounded up; zero for what is no number. -/
def toUInt64 : Binary64 → UInt64
  | .nan | .infinite true | .finite true _ => 0
  | .infinite false => .ofNat greatest
  | .finite false units => .ofNat (min ((units + 1 <<< (places - 1)) >>> places) greatest)

end Binary64

end KeyManagement
