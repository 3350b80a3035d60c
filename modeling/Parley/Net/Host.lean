import Parley.Net.Percent
import Parley.Net.Punycode
import Parley.Text.Casing
import Parley.Text.Digits
import Parley.Text.Pieces

/-!
# Hosts of addresses

A host is a domain name, an IPv4 address or an IPv6 address in brackets.  A domain name is brought
into lower-case ASCII; when its last part is a number the host is an IPv4 address, in any of the
spellings that the address has.  `Host.parse` reads the host of a web address and `Host.parsePlain`
that of any other.

Both answer with the one spelling in which the host is written.
-/

namespace Parley.Net

/-- Why an address cannot be read. -/
inductive UrlError where
  | relativeWithoutBase
  | emptyHost
  | invalidIpv6
  | invalidIpv4
  | invalidPort
  | invalidDomainCharacter
  | invalidInternationalName
deriving DecidableEq, Repr

/-- The wording of an error. -/
def UrlError.message : UrlError → String
  | .relativeWithoutBase => "relative URL without a base"
  | .emptyHost => "empty host"
  | .invalidIpv6 => "invalid IPv6 address"
  | .invalidIpv4 => "invalid IPv4 address"
  | .invalidPort => "invalid port number"
  | .invalidDomainCharacter => "invalid domain character"
  | .invalidInternationalName => "invalid international domain name"

namespace Host

open Text (number?)

/-! ### IPv4 -/

/-- A part of an IPv4 address: decimal, octal behind a zero, or hexadecimal behind `0x`. -/
def ipv4Part? : List Char → Option Nat
  | [] => none
  | '0' :: 'x' :: rest | '0' :: 'X' :: rest => number? 16 rest
  | '0' :: c :: rest => number? 8 (c :: rest)
  | cs => number? 10 cs

/-- The parts of a name between its points, without an empty last one. -/
def parts (name : List Char) : List (List Char) :=
  let ps := Text.split (· = '.') name
  if ps.getLast? = some [] then ps.dropLast else ps

/-- Whether the last part of a name is a number. -/
def endsInNumber (name : List Char) : Bool :=
  match (parts name).getLast? with
  | some last => (!last.isEmpty && last.all Char.isDigit) || (ipv4Part? last).isSome
  | none => false

/-- The value of an IPv4 address: the last part fills all bytes that the parts before it leave. -/
def ipv4? (name : List Char) : Option Nat := do
  let ps := parts name
  guard (ps.length ≤ 4)
  let numbers ← ps.mapM ipv4Part?
  let last ← numbers.getLast?
  let bytes := numbers.dropLast
  guard (bytes.all (· < 256))
  guard (last < Nat.pow 256 (4 - bytes.length))
  return bytes.zipIdx.foldl (fun n (b, i) => n + b * Nat.pow 256 (3 - i)) last

/-- An IPv4 address in writing. -/
def showIpv4 (n : Nat) : String :=
  Text.join "." ([3, 2, 1, 0].map fun i => toString (n / Nat.pow 256 i % 256))

/-! ### IPv6 -/

/-- A group of one to four hexadecimal digits. -/
def ipv6Group? (cs : List Char) : Option Nat :=
  if cs.isEmpty || 4 < cs.length then none else number? 16 cs

/-- A byte in decimal digits, without leading zeros. -/
def decimalByte? (cs : List Char) : Option Nat :=
  if cs.isEmpty || (1 < cs.length && cs.head? = some '0') then none
  else (number? 10 cs).filter (· < 256)

/-- The two groups of an IPv4 address that ends an IPv6 address. -/
def ipv6Tail? (cs : List Char) : Option (List Nat) :=
  match (Text.split (· = '.') cs).mapM decimalByte? with
  | some [a, b, c, d] => some [a * 256 + b, c * 256 + d]
  | _ => none

/-- The groups between the colons of one side of an IPv6 address.  The last may be an IPv4
address. -/
def ipv6Groups? (allowsTail : Bool) (cs : List Char) : Option (List Nat) :=
  if cs.isEmpty then some []
  else
    let pieces := Text.split (· = ':') cs
    match pieces.getLast? with
    | none => none
    | some last => do
      let front ← pieces.dropLast.mapM ipv6Group?
      let back ← if allowsTail && last.contains '.' then ipv6Tail? last
        else (ipv6Group? last).map ([·])
      return front ++ back

/-- The eight groups of an IPv6 address.  Two colons stand for one or more groups of zeros. -/
def ipv6? (cs : List Char) : Option (List Nat) :=
  match Text.splitOnceAt [':', ':'] [] cs with
  | none => (ipv6Groups? true cs).filter (·.length = 8)
  | some (before, after) => do
    let front ← ipv6Groups? false before
    let back ← ipv6Groups? true after
    guard (front.length + back.length < 8)
    return front ++ List.replicate (8 - front.length - back.length) 0 ++ back

/-- The length of the run of zeros that begins at each group. -/
def zeroRuns : List Nat → List Nat
  | [] => []
  | g :: rest =>
    let runs := zeroRuns rest
    (if g = 0 then runs.headD 0 + 1 else 0) :: runs

/-- The digits of a group. -/
def showGroup (g : Nat) : String := String.ofList (Nat.toDigits 16 g)

/-- An IPv6 address in writing: two colons stand for the first of the longest runs of two or more
zero groups. -/
def showIpv6 (groups : List Nat) : String :=
  let runs := zeroRuns groups
  let longest := runs.foldl max 0
  let side (gs : List Nat) : String := Text.join ":" (gs.map showGroup)
  if longest < 2 then side groups
  else
    let start := runs.idxOf longest
    side (groups.take start) ++ "::" ++ side (groups.drop (start + longest))

/-- The address in brackets that a host spells. -/
def bracketed (cs : List Char) : Except UrlError String :=
  if cs.getLast? = some ']' then
    match ipv6? cs.tail.dropLast with
    | some groups => .ok ("[" ++ showIpv6 groups ++ "]")
    | none => .error .invalidIpv6
  else .error .invalidIpv6

/-! ### Names -/

/-- What a character of a domain name is read as: nothing, the lower-case letter, a plain point, or
the ASCII character of which it is the wide form. -/
def mapped (c : Char) : List Char :=
  let n := c.toNat
  if n = 0xAD || n = 0x200B || n = 0x2060 || n = 0xFEFF then []
  else if n = 0x3002 || n = 0xFF61 then ['.']
  else if 0xFF01 ≤ n ∧ n ≤ 0xFF5E then [(Char.ofNat (n - 0xFEE0)).toLower]
  else Text.Casing.lowerChar c

/-- Whether an ASCII character may not occur in a domain name. -/
def isForbidden (c : Char) : Bool :=
  c.val ≤ 0x20 || c.val = 0x7F || "#%/:<>?@[\\]^|".toList.contains c

/-- A label in ASCII. -/
def asciiLabel (label : List Char) : List Char :=
  if label.all (·.val < 0x80) then label else "xn--".toList ++ Punycode.encode label

/-- A domain name in ASCII. -/
def asciiName (name : String) : Except UrlError (List Char) :=
  match Text.Utf8.decode? (Percent.decode name) with
  | none => .error .invalidInternationalName
  | some s =>
    let cs := s.toList.flatMap mapped
    if cs.any isForbidden then .error .invalidInternationalName
    else .ok (['.'].intercalate ((Text.split (· = '.') cs).map asciiLabel))

/-- The host of a web address. -/
def parse (host : String) : Except UrlError String :=
  if host.toList.head? = some '[' then bracketed host.toList
  else do
    let name ← asciiName host
    if name.isEmpty then .error .emptyHost
    else if endsInNumber name then
      match ipv4? name with
      | some n => .ok (showIpv4 n)
      | none => .error .invalidIpv4
    else .ok (String.ofList name)

/-- Whether a character may not occur in the host of an address that is no web address. -/
def isForbiddenPlain (c : Char) : Bool := c = '\x00' || " #/:<>?@[\\]^|".toList.contains c

/-- The host of an address that is no web address. -/
def parsePlain (host : String) : Except UrlError String :=
  if host.toList.head? = some '[' then bracketed host.toList
  else if host.toList.any isForbiddenPlain then .error .invalidDomainCharacter
  else .ok (String.ofList (Percent.encode Percent.isControl host.toList))

end Host

end Parley.Net
