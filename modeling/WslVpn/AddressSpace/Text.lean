import WslVpn.AddressSpace.Ip
import WslVpn.AddressSpace.Numerals

/-! The written form of IP addresses and networks, and its readers.
IPv4 addresses are dotted quads. IPv6 addresses are colon-separated groups in which the first
longest run of at least two zero groups is left out, and the last 32 bits of an IPv4-mapped
address are a dotted quad.
-/

namespace AddressSpace

-----------------------------------------------------------------------------------------
-- Writers
-----------------------------------------------------------------------------------------

/-- A dotted quad. -/
def renderIpv4 (address : BitVec 32) : List Char :=
  List.intercalate ['.'] ((IpAddr.octets address).map (Nat.toDigits 10))

/-- The eight 16-bit groups of an IPv6 address, most significant first. -/
def segments (address : BitVec 128) : List Nat :=
  [address.toNat / 2 ^ 112, address.toNat / 2 ^ 96 % 65536, address.toNat / 2 ^ 80 % 65536,
    address.toNat / 2 ^ 64 % 65536, address.toNat / 2 ^ 48 % 65536,
    address.toNat / 2 ^ 32 % 65536, address.toNat / 2 ^ 16 % 65536, address.toNat % 65536]

/-- The number that a list of 16-bit groups denotes. -/
def ofSegments (groups : List Nat) : BitVec 128 :=
  BitVec.ofNat 128 (groups.foldl (fun number group => number * 65536 + group) 0)

/-- A run of groups: where it starts and how many there are. -/
structure Span where
  start : Nat
  len : Nat
  deriving DecidableEq

/-- The first longest run of set flags. `current` is the run that ends at position `index`. -/
def longestSpan (longest current : Span) (index : Nat) : List Bool → Span
  | [] => longest
  | false :: rest => longestSpan longest ⟨0, 0⟩ (index + 1) rest
  | true :: rest =>
      let grown : Span := ⟨if current.len = 0 then index else current.start, current.len + 1⟩
      longestSpan (if longest.len < grown.len then grown else longest) grown (index + 1) rest

/-- The run of zero groups that the written form leaves out. -/
def zeroSpan (groups : List Nat) : Span :=
  longestSpan ⟨0, 0⟩ ⟨0, 0⟩ 0 (groups.map (· == 0))

/-- Groups in hexadecimal, separated by colons. -/
def renderGroups (groups : List Nat) : List Char :=
  List.intercalate [':'] (groups.map (Nat.toDigits 16))

/-- The written form of an IPv6 address. -/
def renderIpv6 (address : BitVec 128) : List Char :=
  let groups := segments address
  if groups.take 6 = [0, 0, 0, 0, 0, 65535] then
    "::ffff:".toList ++ renderIpv4 (address.setWidth 32)
  else if 1 < (zeroSpan groups).len then
    renderGroups (groups.take (zeroSpan groups).start) ++ [':', ':']
    ++ renderGroups (groups.drop ((zeroSpan groups).start + (zeroSpan groups).len))
  else renderGroups groups

def IpAddr.render : IpAddr → List Char
  | .v4 address => renderIpv4 address
  | .v6 address => renderIpv6 address

/-- A network is written as its address, a slash and its prefix length. -/
def IpNetwork.render (network : IpNetwork) : List Char :=
  network.ip.render ++ '/' :: Nat.toDigits 10 network.prefixLength

-----------------------------------------------------------------------------------------
-- Readers
-----------------------------------------------------------------------------------------

/-- Read the given character. -/
def readGiven (char : Char) : List Char → Option (List Char)
  | [] => none
  | first :: rest => if first = char then some rest else none

/-- Read an octet of a dotted quad. -/
def readOctet (text : List Char) : Option (Nat × List Char) := readNumber 10 3 false 256 text

def readIpv4 (text : List Char) : Option (BitVec 32 × List Char) := do
  let (a, text) ← readOctet text
  let text ← readGiven '.' text
  let (b, text) ← readOctet text
  let text ← readGiven '.' text
  let (c, text) ← readOctet text
  let text ← readGiven '.' text
  let (d, text) ← readOctet text
  some (IpAddr.ofOctets a b c d, text)

/-- Read what `reader` reads behind a colon, or without a colon when it comes first. -/
def readSeparated {Item : Type} (first : Bool) (reader : List Char → Option (Item × List Char))
    (text : List Char) : Option (Item × List Char) :=
  if first then reader text else (readGiven ':' text).bind reader

/-- Read at most `room` groups. A dotted quad counts as the last two groups, and the flag tells
that there was one.
-/
def readGroups (first : Bool) (room : Nat) (text : List Char)
    : List Nat × Bool × List Char :=
  match room with
  | 0 => ([], false, text)
  | room + 1 =>
      match if 0 < room then readSeparated first readIpv4 text else none with
      | some (address, rest) =>
          ([address.toNat / 65536, address.toNat % 65536], true, rest)
      | none =>
          match readSeparated first (readNumber 16 4 true 65536) text with
          | none => ([], false, text)
          | some (group, rest) =>
              let (groups, quad, rest) := readGroups false room rest
              (group :: groups, quad, rest)

def parseIpv4 (text : List Char) : Option (BitVec 32) :=
  match readIpv4 text with
  | some (address, []) => some address
  | _ => none

/-- Read the groups up to a double colon, then those behind it; the groups that it stands for
are zero, and there is at least one.
-/
def parseIpv6 (text : List Char) : Option (BitVec 128) :=
  match readGroups true 8 text with
  | (head, quad, rest) =>
      if head.length = 8 then
        if rest = [] then some (ofSegments head) else none
      else if quad then none
      else
        match rest with
        | ':' :: ':' :: rest =>
            match readGroups true (8 - (head.length + 1)) rest with
            | (tail, _, []) =>
                some (ofSegments
                  (head ++ List.replicate (8 - head.length - tail.length) 0 ++ tail))
            | _ => none
        | _ => none

def IpAddr.parse (text : List Char) : Option IpAddr :=
  match parseIpv4 text with
  | some address => some (.v4 address)
  | none => (parseIpv6 text).map .v6

def stripPlus : List Char → List Char
  | '+' :: rest => rest
  | text => text

/-- Read an unsigned 8-bit number with an optional plus sign. -/
def parseU8 (text : List Char) : Option Nat :=
  let digits := stripPlus text
  match readNumber 10 digits.length true 256 digits with
  | some (number, []) => some number
  | _ => none

/-- The prefix length that an IPv4 netmask stands for, if its set bits come first. -/
def maskLength? (mask : BitVec 32) : Option Nat :=
  (List.range 33).find? (fun length => mask.toNat == 2 ^ 32 - 2 ^ (32 - length))

/-- The address part and the part behind the slash; a second slash is an error. -/
def cidrParts (text : List Char) : Option (List Char × Option (List Char)) :=
  match text.span (· ≠ '/') with
  | (address, []) => some (address, none)
  | (address, _ :: length) => if '/' ∈ length then none else some (address, some length)

def parseIpv4Network (text : List Char) : Option IpNetwork := do
  let (address, length) ← cidrParts text
  let address ← parseIpv4 address
  let length ← match length with
    | none => some 32
    | some length =>
        match parseIpv4 length with
        | some mask => maskLength? mask
        | none => parseU8 length
  IpNetwork.new? (.v4 address) length

def parseIpv6Network (text : List Char) : Option IpNetwork := do
  let (address, length) ← cidrParts text
  let address ← parseIpv6 address
  let length ← match length with
    | none => some 128
    | some length => parseU8 length
  IpNetwork.new? (.v6 address) length

/-- A bare address is a network of that address alone. -/
def IpNetwork.parse (text : List Char) : Option IpNetwork :=
  match parseIpv4Network text with
  | some network => some network
  | none => parseIpv6Network text

end AddressSpace
