import Quicup.Open5gs.Pfcp.Context

/-!
# Subnets from strings

`ogs_ipsubnet` of `ogs-sockaddr.c` writes the subnet that a string describes to a slot,
and reads what the slot held before. A C string is the list of its characters.
-/

namespace Quicup.Open5gs

def afInet : Nat := 2

def afInet6 : Nat := 10

def digitsToNat (digits : List Char) : Nat :=
  digits.foldl (fun n c => 10 * n + (c.toNat - '0'.toNat)) 0

def isspace (c : Char) : Bool := c = ' ' ∨ 9 ≤ c.toNat ∧ c.toNat ≤ 13

/-- `strtol` in base ten: the number, and what stands behind it. A number beyond `long`
is not cut off, as it is not in any range that is asked for. -/
def strtol (s : List Char) : Int × List Char :=
  let number (sign : Int) (t : List Char) : Int × List Char :=
    match t.takeWhile Char.isDigit with
    | [] => (0, s)
    | digits => (sign * digitsToNat digits, t.dropWhile Char.isDigit)
  match s.dropWhile isspace with
  | '-' :: t => number (-1) t
  | '+' :: t => number 1 t
  | t => number 1 t

/-! ## `inet_pton` -/

/-- The octets read so far, the last one first, and whether the last one has a digit. -/
def inetPton4Loop : List Char → List Nat → Bool → Option (List Nat)
  | [], octets, _ => if octets.length = 4 then some octets.reverse else none
  | c :: s, octets, sawDigit =>
    if c.isDigit then
      let digit := c.toNat - '0'.toNat
      match octets, sawDigit with
      | octet :: octets, true =>
        if octet = 0 ∨ 255 < 10 * octet + digit then none
        else inetPton4Loop s ((10 * octet + digit) :: octets) true
      | octets, _ => if octets.length = 4 then none else inetPton4Loop s (digit :: octets) true
    else if c = '.' ∧ sawDigit then
      if octets.length = 4 then none else inetPton4Loop s octets false
    else none

/-- `inet_pton` of `AF_INET` -/
def inetPton4 (s : List Char) : Option UInt32 :=
  (inetPton4Loop s [] false).map fun octets => .ofNat (natBE (octets.map .ofNat))

def hexDigitValue (c : Char) : Option Nat :=
  if '0' ≤ c ∧ c ≤ '9' then some (c.toNat - '0'.toNat)
  else if 'a' ≤ c ∧ c ≤ 'f' then some (c.toNat - 'a'.toNat + 10)
  else if 'A' ≤ c ∧ c ≤ 'F' then some (c.toNat - 'A'.toNat + 10)
  else none

/-- What the loop of `inet_pton` has read: groups of 16 bits, the last one first, how many
of them stood in front of the double colon, and the digits of the group that it is in. -/
structure Inet6Scan where
  groups : List Nat := []
  colon : Option Nat := none
  xdigits : Nat := 0
  val : Nat := 0

/-- The end of a group. -/
def Inet6Scan.endGroup (scan : Inet6Scan) : Option Inet6Scan :=
  if scan.groups.length = 8 then none
  else some { scan with groups := scan.val :: scan.groups, xdigits := 0, val := 0 }

/-- The loop of `inet_pton` of `AF_INET6`, with the token that it is in. -/
def inetPton6Loop : List Char → List Char → Inet6Scan → Option Inet6Scan
  | [], _, scan => some scan
  | c :: s, token, scan =>
    match hexDigitValue c with
    | some digit =>
      if scan.xdigits = 4 then none
      else inetPton6Loop s token
        { scan with xdigits := scan.xdigits + 1, val := 16 * scan.val + digit }
    | none =>
      if c = ':' then
        if scan.xdigits = 0 then
          if scan.colon.isSome then none
          else inetPton6Loop s s { scan with colon := some scan.groups.length }
        else if s = [] then none
        else scan.endGroup.bind (inetPton6Loop s s)
      else if c = '.' ∧ scan.groups.length ≤ 6 then
        -- an IPv4 address at the end takes the whole token
        (inetPton4 token).map fun addr =>
          { scan with
            groups := addr.toNat % 2 ^ 16 :: addr.toNat / 2 ^ 16 :: scan.groups
            xdigits := 0 }
      else none

/-- The eight groups, with zeros for the double colon. -/
def Inet6Scan.expand (scan : Inet6Scan) : Option (List Nat) :=
  match scan.colon with
  | none => if scan.groups.length = 8 then some scan.groups.reverse else none
  | some n =>
    if scan.groups.length = 8 then none
    else
      let groups := scan.groups.reverse
      some (groups.take n ++ List.replicate (8 - groups.length) 0 ++ groups.drop n)

/-- The words of eight groups. -/
def wordsOfGroups (groups : List Nat) : Vector UInt32 4 :=
  Vector.ofFn fun i =>
    .ofNat (2 ^ 16 * groups.getD (2 * i.val) 0 + groups.getD (2 * i.val + 1) 0)

/-- `inet_pton` of `AF_INET6` -/
def inetPton6 (s : List Char) : Option (Vector UInt32 4) := do
  let start ← match s with
    | [] => none
    | ':' :: ':' :: rest => some (':' :: rest)
    | ':' :: _ => none
    | s => some s
  let scan ← inetPton6Loop start start {}
  let scan ← if 0 < scan.xdigits then scan.endGroup else some scan
  return wordsOfGroups (← scan.expand)

/-! ## `ogs_ipsubnet` -/

def looksLikeIp (ipstr : List Char) : Bool :=
  ipstr ≠ [] ∧ (':' ∈ ipstr ∨ ipstr.all fun c => c = '.' ∨ c.isDigit)

/-- The components between the points of a network, without the empty one behind the last. -/
def networkComponents (network : List Char) : List (List Char) :=
  let components := network.splitOn '.'
  if components.getLast? = some [] then components.dropLast else components

/-- The octet of a component, through `atoi`. -/
def networkOctet (component : List Char) : Option Nat :=
  let octet := digitsToNat component % 2 ^ 32
  if component ≠ [] ∧ component.all Char.isDigit ∧ octet ≤ 255 then some octet else none

/-- `parse_network`: the first word of the address and of the mask. -/
def parseNetwork (network : List Char) : Option (UInt32 × UInt32) := do
  let octets ← (networkComponents network).mapM networkOctet
  if network.length < 16 ∧ octets.length ≤ 4 then
    let word (octets : List Nat) : UInt32 :=
      .ofNat (natBE ((octets ++ List.replicate (4 - octets.length) 0).map .ofNat))
    some (word octets, word (octets.map fun _ => 0xff))
  else none

/-- `IN6_IS_ADDR_V4MAPPED` -/
def isV4Mapped (addr : Vector UInt32 4) : Bool := addr[0]! = 0 ∧ addr[1]! = 0 ∧ addr[2]! = 0xffff

/-- `parse_ip`, with what the slot holds. An IPv4 address leaves the words behind it. -/
def parseIp (ipsub : IpSubnet) (ipstr : List Char) (networkAllowed : Bool) : Option IpSubnet :=
  match inetPton6 ipstr with
  | some sub => if isV4Mapped sub then none else some { ipsub with sub, family := afInet6 }
  | none =>
    match inetPton4 ipstr with
    | some addr => some { ipsub with sub := ipsub.sub.set! 0 addr, family := afInet }
    | none =>
      if networkAllowed then
        (parseNetwork ipstr).map fun (sub, mask) =>
          { sub := ipsub.sub.set! 0 sub, mask := ipsub.mask.set! 0 mask, family := afInet }
      else none

/-- The loop that sets so many bits of a mask. -/
def fillBits : Nat → Int32 → UInt32 → UInt32
  | 0, _, mask => mask
  | bits + 1, curBitValue, mask => fillBits bits (curBitValue / 2) (mask ||| curBitValue.toUInt32)

/-- A mask of so many bits. -/
def maskOfBits (bits : Nat) : Vector UInt32 4 :=
  Vector.ofFn fun i =>
    if 32 * (i.val + 1) < bits then 0xffffffff
    else fillBits (bits - 32 * i.val) Int32.minValue 0

/-- The mask behind the slash. A netmask is for IPv4 and leaves the words behind it. -/
def ipsubnetMask (ipsub : IpSubnet) (maskOrNumbits : List Char) : Option (Vector UInt32 4) :=
  let maxbits : Int := if ipsub.family = afInet6 then 128 else 32
  let (bits, rest) := strtol maskOrNumbits
  if rest = [] ∧ 0 < bits ∧ bits ≤ maxbits then some (maskOfBits bits.toNat)
  else
    match inetPton4 maskOrNumbits with
    | some mask => if ipsub.family = afInet then some (ipsub.mask.set! 0 mask) else none
    | none => none

/-- `fix_subnet` -/
def fixSubnet (ipsub : IpSubnet) : IpSubnet :=
  { ipsub with sub := Vector.zipWith (· &&& ·) ipsub.sub ipsub.mask }

/-- `ogs_ipsubnet` -/
def ogsIpsubnet (ipsub : IpSubnet) (ipstr : List Char) (maskOrNumbits : Option (List Char)) :
    Option IpSubnet := do
  if looksLikeIp ipstr then
    let ipsub ← parseIp { ipsub with mask := Vector.replicate 4 0xffffffff } ipstr
      maskOrNumbits.isNone
    match maskOrNumbits with
    | none => return fixSubnet ipsub
    | some maskOrNumbits =>
      return fixSubnet { ipsub with mask := ← ipsubnetMask ipsub maskOrNumbits }
  else none

end Quicup.Open5gs
