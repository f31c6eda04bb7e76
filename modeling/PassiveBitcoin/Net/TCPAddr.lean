/-
# PassiveBitcoin.Net.TCPAddr — TCP addresses and their canonical strings

Nodes and peers are identified by `addr.String()` of a `*net.TCPAddr`: the
repository's `nodeIndex`, the manager's `peerIndex` and its `listenIndex` are all
keyed by it. This module models the part of Go's `net` package the program relies on
(Go 1.5, the version of the time):

* `TCPAddr` with its exported fields `IP` (a byte slice), `Port` and `Zone`;
* `to4` and `to16`, the methods `IP.To4` and `IP.To16`;
* `ipString`, `IP.String`: dotted decimal for IPv4 and IPv4-mapped addresses,
  eight hexadecimal groups with the first longest run of two or more zero groups
  written `::` for IPv6, `?` for any other length;
* `joinHostPort` and `TCPAddr.string`, `(*TCPAddr).String`, with `ptrString` for a
  possibly nil pointer, which Go answers with `<nil>`.

No result of the development depends on how the string is formed, only on its being
a function of the address: equal addresses have equal keys.
-/
import Mathlib.Data.List.AList

namespace PassiveBitcoin

set_option autoImplicit false

/-- A `net.TCPAddr`. -/
structure TCPAddr where
  ip : List UInt8
  port : Int
  zone : String
  deriving DecidableEq, Repr

namespace TCPAddr

/-- `ip.To4()`: the four bytes of an IPv4 or IPv4-mapped IPv6 address. -/
def to4 (ip : List UInt8) : Option (List UInt8) :=
  if ip.length = 4 then some ip
  else if ip.length = 16 ∧ ip.take 12 = List.replicate 10 0 ++ [0xff, 0xff] then some (ip.drop 12)
  else none

/-- `ip.To16()`: the sixteen bytes of an address, IPv4 ones mapped. -/
def to16 (ip : List UInt8) : Option (List UInt8) :=
  if ip.length = 4 then some (List.replicate 10 0 ++ [0xff, 0xff] ++ ip)
  else if ip.length = 16 then some ip
  else none

/-- The sixteen-bit groups of an IPv6 address. -/
def groups : List UInt8 → List Nat
  | a :: b :: rest => (a.toNat * 256 + b.toNat) :: groups rest
  | _ => []

/-- The first longest run of zero groups, as its start and end, when it spans at
least two groups: `::` must not shorten a single zero group. -/
def zeroRun (gs : List Nat) : Option (Nat × Nat) :=
  let runs := (List.range gs.length).map fun i => (i, i + ((gs.drop i).takeWhile (· = 0)).length)
  let best := runs.foldl (fun b r => if r.2 - r.1 > b.2 - b.1 then r else b) (0, 0)
  if best.2 - best.1 ≥ 2 then some best else none

/-- A group in lowercase hexadecimal without leading zeros. -/
def hex (g : Nat) : String := String.mk (Nat.toDigits 16 g)

/-- The IPv6 text form of eight groups. -/
def ipv6String (gs : List Nat) : String :=
  match zeroRun gs with
  | none => ":".intercalate (gs.map hex)
  | some (e0, e1) =>
      ":".intercalate ((gs.take e0).map hex) ++ "::" ++ ":".intercalate ((gs.drop e1).map hex)

/-- `ip.String()`. -/
def ipString (ip : List UInt8) : String :=
  if ip.length = 0 then "<nil>"
  else
    match to4 ip with
    | some p4 => ".".intercalate (p4.map fun b => toString b.toNat)
    | none => if ip.length = 16 then ipv6String (groups ip) else "?"

/-- `net.JoinHostPort(host, port)`: a host with a colon or a percent sign is
bracketed. -/
def joinHostPort (host port : String) : String :=
  if ':' ∈ host.data ∨ '%' ∈ host.data then "[" ++ host ++ "]:" ++ port
  else host ++ ":" ++ port

/-- `a.String()` on a non-nil `*net.TCPAddr`. -/
def string (a : TCPAddr) : String :=
  let ip := if a.ip.length = 0 then "" else ipString a.ip
  if a.zone ≠ "" then joinHostPort (ip ++ "%" ++ a.zone) (toString a.port)
  else joinHostPort ip (toString a.port)

/-- `a.String()` on a `*net.TCPAddr` that may be nil (`none`). -/
def ptrString : Option TCPAddr → String
  | none => "<nil>"
  | some a => a.string

end TCPAddr

end PassiveBitcoin
