import Parley.Net.Host
import Parley.Word

/-!
# Addresses to listen at

A host and a port name an address when the host is an IPv4 address, or an IPv6 address in brackets,
which may have the number of a zone behind a percent sign.
-/

namespace Parley.Settings

open Net (Host.decimalByte? Host.ipv6? Host.showIpv6)

/-- The four bytes of an IPv4 address. -/
def ipv4? (cs : List Char) : Option (List Nat) :=
  ((Text.split (· = '.') cs).mapM Host.decimalByte?).filter (·.length = 4)

/-- Bytes with points between them. -/
def showBytes (bytes : List Nat) : String := Text.join "." (bytes.map toString)

/-- An IPv6 address in writing.  One that stands for an IPv4 address shows it. -/
def showIpv6 : List Nat → String
  | [0, 0, 0, 0, 0, 0xFFFF, a, b] => "::ffff:" ++ showBytes [a / 256, a % 256, b / 256, b % 256]
  | groups => Host.showIpv6 groups

/-- The number of a zone, of 32 bits; none is zero. -/
def zone? : List Char → Option Nat
  | [] => some 0
  | _ :: digits => (Text.numeral? 10 digits).filter (Word.holds 32)

/-- What stands between the brackets of a host. -/
def bracketed? (cs : List Char) : Option String := do
  let groups ← Host.ipv6? (cs.takeWhile (· != '%'))
  let zone ← zone? (cs.dropWhile (· != '%'))
  return "[" ++ showIpv6 groups ++ (if zone = 0 then "" else "%" ++ toString zone) ++ "]"

/-- The host of an address. -/
def address? (host : String) : Option String :=
  match host.toList with
  | '[' :: rest => if rest.getLast? = some ']' then bracketed? rest.dropLast else none
  | cs => (ipv4? cs).map showBytes

/-- The address of a host and a port. -/
def socketAddress? (host : String) (port : Nat) : Option String :=
  (address? host).map fun a => a ++ ":" ++ toString port

end Parley.Settings
