import StaticSite.Number.Numeral
import StaticSite.Text.Split
/-!
# StaticSite.Command.Address

The addresses at which a server can listen: an IPv4 address, or an IPv6 address in brackets, and a
port after a colon. Names of hosts are no addresses.
-/

set_option autoImplicit false

namespace StaticSite.Address

/-- A part of an IPv4 address: a number up to 255 without superfluous zeros. -/
def isByte (s : List Char) : Bool :=
  s.length ≤ 3 && (s.length ≤ 1 || s.head? != some '0') &&
    match naturalIn? 10 s with
    | some n => n < 256
    | none => false

/-- Four numbers with points between them. -/
def isIPv4 (s : List Char) : Bool :=
  let parts := Text.splitAtEach (· == '.') s
  parts.length == 4 && parts.all isByte

/-- A part of an IPv6 address: up to four hexadecimal digits. -/
def isGroup (s : List Char) : Bool := s.length ≤ 4 && (naturalIn? 16 s).isSome

/-- The number of groups in parts with colons between them. The last part may be an IPv4 address,
which takes two. -/
def groups? (s : List Char) : Option Nat :=
  if s.isEmpty then some 0
  else
    let parts := Text.splitAtEach (· == ':') s
    match parts.getLast? with
    | none => some 0
    | some last =>
      if !parts.dropLast.all isGroup then none
      else if isGroup last then some parts.length
      else if isIPv4 last then some (parts.length + 1)
      else none

/-- Eight groups, or fewer with two colons in place of the others. -/
def isIPv6 (s : List Char) : Bool :=
  match Text.cutAt? [':', ':'] s with
  | none => groups? s == some 8
  | some (before, after) =>
    match groups? before, groups? after with
    | some m, some n => m + n < 8 && !before.contains '.'
    | _, _ => false

/-- A number of a port. -/
def isPort (s : List Char) : Bool :=
  match naturalIn? 10 s with
  | some n => n < Nat.pow 2 16
  | none => false

/-- A number of a zone. -/
def isZone (s : List Char) : Bool :=
  match naturalIn? 10 s with
  | some n => n < Nat.pow 2 32
  | none => false

/-- What stands in brackets: an IPv6 address, which may end in a percent sign and a zone. -/
def isBracketed (s : List Char) : Bool :=
  match Text.cutAt? ['%'] s with
  | none => isIPv6 s
  | some (address, zone) => isIPv6 address && isZone zone

/-- Whether a server can listen at a text. -/
def isAddress (s : List Char) : Bool :=
  match s with
  | '[' :: rest =>
    match Text.cutAt? [']', ':'] rest with
    | some (inside, port) => isBracketed inside && isPort port
    | none => false
  | _ =>
    match Text.cutAt? [':'] s with
    | some (host, port) => isIPv4 host && isPort port
    | none => false

end StaticSite.Address
