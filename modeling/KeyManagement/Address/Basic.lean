import KeyManagement.Text.Decimal
import KeyManagement.Text.Hexadecimal

/-! # Internet addresses

Addresses of hosts, and of sockets on them, with their canonical texts: the longest run of
zero groups is left out, the first of several, and an address that stands for one of the
older kind shows that one.
-/

namespace KeyManagement

structure Ipv4 where
  a : UInt8
  b : UInt8
  c : UInt8
  d : UInt8
  deriving DecidableEq, Repr

structure Ipv6 where
  groups : Vector UInt16 8
  deriving DecidableEq, Repr

inductive IpAddress
  | v4 (ip : Ipv4)
  | v6 (ip : Ipv6)
  deriving DecidableEq, Repr

inductive SocketAddress
  | v4 (ip : Ipv4) (port : UInt16)
  /-- The scope tells which link a local address belongs to, zero for none. -/
  | v6 (ip : Ipv6) (scope : UInt32) (port : UInt16)
  deriving DecidableEq, Repr

def Ipv4.render (ip : Ipv4) : String :=
  ".".intercalate ([ip.a, ip.b, ip.c, ip.d].map fun octet => Decimal.render octet.toNat)

namespace Ipv6

/-- The address whose text leaves out the zero groups between the two parts. -/
def ofParts (head tail : List UInt16) : Ipv6 :=
  let groups := head ++ List.replicate (8 - tail.length - head.length) 0 ++ tail
  ⟨.ofFn fun i => groups.getD i 0⟩

/-- How many groups are zero from a position on. -/
def zerosFrom (groups : List UInt16) (start : Nat) : Nat :=
  ((groups.drop start).takeWhile (· = 0)).length

/-- Where the longest run of zero groups starts. -/
def longestZeros (groups : List UInt16) : Nat :=
  (List.range groups.length).foldl
    (fun best start => if zerosFrom groups best < zerosFrom groups start then start else best) 0

def renderGroups (groups : List UInt16) : String :=
  ":".intercalate (groups.map fun group => Hexadecimal.render group.toNat)

def render (ip : Ipv6) : String :=
  match ip.groups.toList with
  | [0, 0, 0, 0, 0, 0xffff, ab, cd] =>
    "::ffff:" ++ Ipv4.render ⟨(ab >>> 8).toUInt8, ab.toUInt8, (cd >>> 8).toUInt8, cd.toUInt8⟩
  | groups =>
    let start := longestZeros groups
    let zeros := zerosFrom groups start
    if 1 < zeros then
      renderGroups (groups.take start) ++ "::" ++ renderGroups (groups.drop (start + zeros))
    else renderGroups groups

end Ipv6

def IpAddress.render : IpAddress → String
  | .v4 ip => ip.render
  | .v6 ip => ip.render

namespace SocketAddress

def ip : SocketAddress → IpAddress
  | .v4 ip _ => .v4 ip
  | .v6 ip _ _ => .v6 ip

def port : SocketAddress → UInt16
  | .v4 _ port => port
  | .v6 _ _ port => port

/-- The same host with another port. -/
def withPort : SocketAddress → UInt16 → SocketAddress
  | .v4 ip _, port => .v4 ip port
  | .v6 ip scope _, port => .v6 ip scope port

def render : SocketAddress → String
  | .v4 ip port => ip.render ++ ":" ++ Decimal.render port.toNat
  | .v6 ip scope port =>
    let scope := if scope = 0 then "" else "%" ++ Decimal.render scope.toNat
    "[" ++ ip.render ++ scope ++ "]:" ++ Decimal.render port.toNat

end SocketAddress

end KeyManagement
