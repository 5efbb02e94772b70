import KeyManagement.Address.Basic

/-! # Reading socket addresses

Numbers in an IPv4 address have no leading zeros. The last two groups of an IPv6 address
may be written as an IPv4 address, and one run of zero groups may be left out. What is read
first is read as far as it goes, and what remains is read next.
-/

namespace KeyManagement

namespace Address

/-- Reads past a character. -/
def skip? (c : Char) : List Char → Option (List Char)
  | [] => none
  | first :: rest => if first = c then some rest else none

/-- Reads a decimal number below a limit, however many zeros it starts with. -/
def numberBelow? (limit : Nat) (s : List Char) : Option (Nat × List Char) :=
  let (digits, rest) := s.span Char.isDigit
  let n := Decimal.value digits
  if !digits.isEmpty && n < limit then some (n, rest) else none

/-- Reads a number that fits into a byte and has no leading zeros. -/
def octet? (s : List Char) : Option (UInt8 × List Char) := do
  let (n, rest) ← numberBelow? 256 s
  if (Nat.toDigits 10 n).length + rest.length = s.length then some (.ofNat n, rest) else none

/-- Reads a hexadecimal number of one to four digits. -/
def hexGroup? (s : List Char) : Option (UInt16 × List Char) := do
  let (digits, rest) := s.span fun c => (Hexadecimal.digit? c).isSome
  if digits.isEmpty || 4 < digits.length then none
  else return (.ofNat (← Hexadecimal.value? digits), rest)

end Address

open Address

def Ipv4.read? (s : List Char) : Option (Ipv4 × List Char) := do
  let (a, s) ← octet? s
  let (b, s) ← octet? (← skip? '.' s)
  let (c, s) ← octet? (← skip? '.' s)
  let (d, s) ← octet? (← skip? '.' s)
  return (⟨a, b, c, d⟩, s)

def Ipv4.groups (ip : Ipv4) : List UInt16 :=
  [ip.a.toUInt16 <<< 8 ||| ip.b.toUInt16, ip.c.toUInt16 <<< 8 ||| ip.d.toUInt16]

namespace Ipv6

/-- Reads groups with colons between them while there is room. Tells whether they end with
an IPv4 address, which takes the room of two. -/
def readGroups : (room : Nat) → (first : Bool) → List Char → List UInt16 × Bool × List Char
  | 0, _, s => ([], false, s)
  | room + 1, first, s =>
    match if first then some s else skip? ':' s with
    | none => ([], false, s)
    | some start =>
      match if room = 0 then none else Ipv4.read? start with
      | some (ip, rest) => (ip.groups, true, rest)
      | none =>
        match hexGroup? start with
        | none => ([], false, s)
        | some (group, rest) =>
          let (groups, v4, rest) := readGroups room false rest
          (group :: groups, v4, rest)

/-- Two colons stand for one or more zero groups, and no IPv4 address precedes them. -/
def read? (s : List Char) : Option (Ipv6 × List Char) := do
  let (head, v4, s) := readGroups 8 true s
  if head.length = 8 then return (ofParts head [], s)
  if v4 then none
  let s ← skip? ':' (← skip? ':' s)
  let (tail, _, s) := readGroups (7 - head.length) true s
  return (ofParts head tail, s)

end Ipv6

namespace SocketAddress

def readPort? (s : List Char) : Option (UInt16 × List Char) := do
  let (port, s) ← numberBelow? 0x10000 (← skip? ':' s)
  return (.ofNat port, s)

def readScope? (s : List Char) : Option (UInt32 × List Char) := do
  let (scope, s) ← numberBelow? 0x100000000 (← skip? '%' s)
  return (.ofNat scope, s)

def readV4? (s : List Char) : Option (SocketAddress × List Char) := do
  let (ip, s) ← Ipv4.read? s
  let (port, s) ← readPort? s
  return (.v4 ip port, s)

def readV6? (s : List Char) : Option (SocketAddress × List Char) := do
  let (ip, s) ← Ipv6.read? (← skip? '[' s)
  let (scope, s) := (readScope? s).getD (0, s)
  let (port, s) ← readPort? (← skip? ']' s)
  return (.v6 ip scope port, s)

def parse? (s : String) : Option SocketAddress :=
  match readV4? s.toList <|> readV6? s.toList with
  | some (address, []) => some address
  | _ => none

end SocketAddress

end KeyManagement
