import AgentResolver.Web.Percent
import Mathlib.Algebra.Group.Nat.Defs

/-!
# Hosts

The host parser and serializer of the URL standard. The one ingredient that is not spelled out
is the Unicode ToASCII operation of UTS #46, whose tables the standard refers to: it is the
parameter `idna`, and the standard itself says what it does on ASCII domains without `xn--`
labels, so it is only consulted for the others.
-/

namespace Web

/-- Unicode ToASCII with the standard's flags; `none` is failure. -/
abbrev Idna := ScalarString → Option ScalarString

/-- ToASCII for a set of hosts of which none is internationalised: it is never met. -/
def Idna.ascii : Idna := fun _ => none

inductive Host where
  | domain (name : ScalarString)
  | ipv4 (address : Nat)
  | ipv6 (pieces : List Nat)
  | nonSpecial (name : ScalarString)
  deriving DecidableEq

/-! ## Domains -/

def asciiLowerChar (c : Char) : Char := if 'A' ≤ c ∧ c ≤ 'Z' then Char.ofNat (c.toNat + 32) else c

def isForbiddenHostCodePoint (c : Char) : Bool :=
  c.toNat == 0 || c == '\t' || c == '\n' || c == '\r' || c == ' ' || c == '#' || c == '/' ||
    c == ':' || c == '<' || c == '>' || c == '?' || c == '@' || c == '[' || c == '\\' ||
    c == ']' || c == '^' || c == '|'

def isForbiddenDomainCodePoint (c : Char) : Bool :=
  isForbiddenHostCodePoint c || isC0Control c || c == '%' || c.toNat == 0x7F

/-- The domain has a label that starts with `xn--`, in any case. -/
def hasPunycodeLabel (domain : ScalarString) : Bool :=
  (domain.splitOn '.').any fun label => (label.take 4).map asciiLowerChar == "xn--".toList

/-- Domain to ASCII, with `beStrict` false. -/
def domainToAscii (idna : Idna) (domain : ScalarString) : Option ScalarString :=
  let result :=
    if domain.all isAsciiChar && !hasPunycodeLabel domain then some (domain.map asciiLowerChar)
    else idna domain
  match result with
  | none => none
  | some ascii => if ascii.isEmpty || ascii.any isForbiddenDomainCodePoint then none else some ascii

/-! ## IPv4 -/

def isDigit (c : Char) : Bool := '0' ≤ c && c ≤ '9'

/-- The value of a digit string in a radix up to 16, `none` when a digit is out of range. -/
def digitsValue (radix : Nat) : ScalarString → Option Nat :=
  fun digits => digits.foldl
    (fun value c =>
      match value, hexValue c.toNat with
      | some v, some digit => if digit < radix then some (v * radix + digit) else none
      | _, _ => none)
    (some 0)

/-- The IPv4 number parser. -/
def parseIpv4Number : ScalarString → Option Nat
  | [] => none
  | '0' :: x :: rest =>
      if x = 'x' ∨ x = 'X' then digitsValue 16 rest else digitsValue 8 (x :: rest)
  | input => digitsValue 10 input

/-- The labels of a domain, without the empty one that follows a trailing dot. -/
def ipv4Parts (input : ScalarString) : List ScalarString :=
  let parts := input.splitOn '.'
  if 1 < parts.length ∧ parts.getLast? = some [] then parts.dropLast else parts

/-- The ends-in-a-number checker. -/
def endsInNumber (input : ScalarString) : Bool :=
  match (ipv4Parts input).getLast? with
  | none => false
  | some last => (!last.isEmpty && last.all isDigit) || (parseIpv4Number last).isSome

/-- The IPv4 address of the numbers of its parts: all but the last are bytes, the last fills the
bytes that remain. -/
def ipv4OfNumbers : List Nat → Nat → Option Nat
  | [], _ => none
  | [last], remaining => if last < 256 ^ remaining then some last else none
  | number :: rest, remaining =>
      if number > 255 then none
      else
        (ipv4OfNumbers rest (remaining - 1)).map fun low => number * 256 ^ (remaining - 1) + low

/-- The IPv4 parser. -/
def parseIpv4 (input : ScalarString) : Option Nat :=
  let parts := ipv4Parts input
  if parts.length > 4 then none
  else
    match parts.mapM parseIpv4Number with
    | none => none
    | some numbers => ipv4OfNumbers numbers 4

def serializeIpv4 (address : Nat) : ScalarString :=
  ['.'].intercalate
    ([address / 256 ^ 3 % 256, address / 256 ^ 2 % 256, address / 256 % 256, address % 256].map
      (Nat.toDigits 10))

/-! ## IPv6 -/

/-- The dotted-decimal tail of an IPv6 address, as two pieces. -/
def parseIpv4InIpv6 (input : ScalarString) : Option (List Nat) :=
  let byte (digits : ScalarString) : Option Nat :=
    if digits.isEmpty || !digits.all isDigit || (digits.length > 1 && digits.head? == some '0') then
      none
    else
      match digitsValue 10 digits with
      | some n => if n ≤ 255 then some n else none
      | none => none
  match (input.splitOn '.').mapM byte with
  | some [a, b, c, d] => some [a * 256 + b, c * 256 + d]
  | _ => none

/-- One colon-separated piece of up to four hex digits. -/
def parseIpv6Piece (digits : ScalarString) : Option Nat :=
  if digits.isEmpty || digits.length > 4 then none else digitsValue 16 digits

/-- The pieces of one side of a `::`, or of a whole address: hex pieces, the last of which may be
a dotted-decimal tail. -/
def parseIpv6Pieces : List ScalarString → Option (List Nat)
  | [] => some []
  | [last] => if last.contains '.' then parseIpv4InIpv6 last else (parseIpv6Piece last).map ([·])
  | piece :: rest => do
      let value ← parseIpv6Piece piece
      let values ← parseIpv6Pieces rest
      return value :: values

/-- The text before and after the first `::`. -/
def splitAtCompress : ScalarString → Option (ScalarString × ScalarString)
  | ':' :: ':' :: rest => some ([], rest)
  | c :: rest => (splitAtCompress rest).map fun (before, after) => (c :: before, after)
  | [] => none

/-- The pieces of one side of a `::`, which may be empty. -/
def parseIpv6Side (side : ScalarString) : Option (List Nat) :=
  if side.isEmpty then some [] else parseIpv6Pieces (side.splitOn ':')

/-- The IPv6 parser. A `::` stands for at least one zero piece, and no dotted-decimal tail may
stand before it. -/
def parseIpv6 (input : ScalarString) : Option (List Nat) :=
  match splitAtCompress input with
  | none =>
      match parseIpv6Pieces (input.splitOn ':') with
      | some pieces => if pieces.length = 8 then some pieces else none
      | none => none
  | some (before, after) =>
      if before.contains '.' then none
      else
        match parseIpv6Side before, parseIpv6Side after with
        | some left, some right =>
            if left.length + right.length < 8 then
              some (left ++ List.replicate (8 - left.length - right.length) 0 ++ right)
            else none
        | _, _ => none

/-- The length of the run of zeros at the head. -/
def zeroRun (pieces : List Nat) : Nat := (pieces.takeWhile (· == 0)).length

/-- The index of the first longest run of at least two zero pieces. -/
def compressIndex (pieces : List Nat) : Option Nat :=
  let runs := (List.range pieces.length).map fun i => zeroRun (pieces.drop i)
  let longest := runs.foldl max 0
  if longest < 2 then none else runs.idxOf? longest

def serializeIpv6 (pieces : List Nat) : ScalarString :=
  let hex (group : List Nat) : ScalarString := [':'].intercalate (group.map (Nat.toDigits 16))
  match compressIndex pieces with
  | none => hex pieces
  | some i => hex (pieces.take i) ++ "::".toList ++ hex ((pieces.drop i).dropWhile (· == 0))

/-! ## The host parser -/

/-- The host parser; `special` is false for the hosts of non-special schemes. -/
def parseHost (idna : Idna) (special : Bool) (input : ScalarString) : Option Host :=
  if input.head? = some '[' then
    if input.getLast? = some ']' then (parseIpv6 (input.drop 1).dropLast).map .ipv6 else none
  else if !special then
    if input.any isForbiddenHostCodePoint then none
    else some (.nonSpecial (percentEncode inC0ControlSet input))
  else
    match domainToAscii idna (decode (percentDecode (encode input))) with
    | none => none
    | some ascii =>
        if endsInNumber ascii then (parseIpv4 ascii).map .ipv4 else some (.domain ascii)

def serializeHost : Host → ScalarString
  | .domain name => name
  | .ipv4 address => serializeIpv4 address
  | .ipv6 pieces => '[' :: serializeIpv6 pieces ++ [']']
  | .nonSpecial name => name

end Web
