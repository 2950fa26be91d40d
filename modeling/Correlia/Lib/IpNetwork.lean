import Correlia.Lib.Text

/-!
# Lib.IpNetwork — addresses and networks of both IP versions (`ipaddress`)

Texts are read as the standard library reads them: dotted quads without leading zeros, hextets with
one `::`, an embedded dotted quad, a scope after `%`; masks by length, and for IPv4 also as a netmask
or a hostmask.  A network has its host bits cleared.

Two networks that share an address overlap (`overlaps_of_contains`): the mask of the longer prefix
has every bit of the other, so the network address of the longer one lies in the shorter.
-/

namespace Lib

inductive IPVersion
  | v4 | v6
deriving DecidableEq, Repr

namespace IPVersion

def maxPrefixlen : IPVersion → ℕ
  | v4 => 32
  | v6 => 128

def allOnes (v : IPVersion) : ℕ := 2 ^ v.maxPrefixlen - 1

/-- `_ip_int_from_prefix`. -/
def netmask (v : IPVersion) (prefixlen : ℕ) : ℕ := v.allOnes ^^^ (v.allOnes >>> prefixlen)

theorem testBit_netmask (v : IPVersion) (prefixlen i : ℕ) :
    (v.netmask prefixlen).testBit i =
      (decide (i < v.maxPrefixlen) ^^ decide (prefixlen + i < v.maxPrefixlen)) := by
  rw [netmask, allOnes, Nat.testBit_xor, Nat.testBit_shiftRight, Nat.testBit_two_pow_sub_one,
    Nat.testBit_two_pow_sub_one]

/-- The longer mask has every bit of the shorter one. -/
theorem netmask_land_netmask (v : IPVersion) {p q : ℕ} (h : p ≤ q) :
    v.netmask q &&& v.netmask p = v.netmask p := by
  apply Nat.eq_of_testBit_eq
  intro i
  rw [Nat.testBit_and, testBit_netmask, testBit_netmask]
  by_cases hi : i < v.maxPrefixlen
  · by_cases hp : p + i < v.maxPrefixlen
    · simp [hi, hp]
    · have hq : ¬ q + i < v.maxPrefixlen := by omega
      simp [hi, hp, hq]
  · have hp : ¬ p + i < v.maxPrefixlen := by omega
    simp [hi, hp]

end IPVersion

structure IPAddress where
  version : IPVersion
  ip : ℕ
  scopeId : Option String := none
deriving DecidableEq, Repr

/-! ### Networks -/

/-- A network whose address has no host bits set. -/
structure IPNetwork where
  version : IPVersion
  networkAddress : ℕ
  scopeId : Option String
  prefixlen : ℕ
  masked : networkAddress &&& version.netmask prefixlen = networkAddress

namespace IPNetwork

/-- `strict=False`: host bits are cleared, and the scope goes with them. -/
def ofAddress (a : IPAddress) (prefixlen : ℕ) : IPNetwork :=
  let packed := a.ip &&& a.version.netmask prefixlen
  { version := a.version
    networkAddress := packed
    scopeId := if packed ≠ a.ip then none else a.scopeId
    prefixlen := prefixlen
    masked := by rw [Nat.land_assoc, Nat.and_self] }

def netmask (n : IPNetwork) : ℕ := n.version.netmask n.prefixlen

def broadcastAddress (n : IPNetwork) : ℕ := n.networkAddress ||| (n.netmask ^^^ n.version.allOnes)

/-- `addr in network`. -/
def contains (n : IPNetwork) (a : IPAddress) : Bool :=
  decide (n.version = a.version) && decide (a.ip &&& n.netmask = n.networkAddress)

def overlaps (m n : IPNetwork) : Bool :=
  n.contains ⟨m.version, m.networkAddress, none⟩ || n.contains ⟨m.version, m.broadcastAddress, none⟩ ||
    m.contains ⟨n.version, n.networkAddress, none⟩ || m.contains ⟨n.version, n.broadcastAddress, none⟩

variable {m n : IPNetwork} {a : IPAddress}

theorem contains_iff : n.contains a = true ↔
    n.version = a.version ∧ a.ip &&& n.netmask = n.networkAddress := by
  rw [contains, Bool.and_eq_true, decide_eq_true_iff, decide_eq_true_iff]

theorem overlaps_comm (m n : IPNetwork) : m.overlaps n = n.overlaps m := by
  simp only [overlaps, Bool.or_comm, Bool.or_left_comm, Bool.or_assoc]

/-- The network with the longer prefix lies in the one it shares an address with. -/
theorem contains_networkAddress (hm : m.contains a = true) (hn : n.contains a = true)
    (hle : m.prefixlen ≤ n.prefixlen) :
    m.contains ⟨n.version, n.networkAddress, none⟩ = true := by
  obtain ⟨hmv, hm⟩ := contains_iff.mp hm
  obtain ⟨hnv, hn⟩ := contains_iff.mp hn
  have hversion : m.version = n.version := hmv.trans hnv.symm
  refine contains_iff.mpr ⟨hversion, ?_⟩
  have hmasks : n.netmask &&& m.netmask = m.netmask := by
    rw [netmask, netmask, ← hversion]
    exact m.version.netmask_land_netmask hle
  show n.networkAddress &&& m.netmask = m.networkAddress
  rw [← hn, Nat.land_assoc, hmasks, hm]

/-- Networks that share an address are of one version and overlap. -/
theorem overlaps_of_contains (hm : m.contains a = true) (hn : n.contains a = true) :
    m.version = n.version ∧ m.overlaps n = true := by
  refine ⟨(contains_iff.mp hm).1.trans (contains_iff.mp hn).1.symm, ?_⟩
  rcases le_total m.prefixlen n.prefixlen with hle | hle
  · have := contains_networkAddress hm hn hle
    simp only [overlaps, this, Bool.or_true, Bool.true_or]
  · have := contains_networkAddress hn hm hle
    simp only [overlaps, this, Bool.true_or]

end IPNetwork

/-! ### Reading IPv4 -/

/-- `s.isascii() and s.isdigit()`. -/
def isDecimal (s : List Char) : Bool := !s.isEmpty && s.all Char.isDigit

def hexDigits : List Char := hexChars ++ ['A', 'B', 'C', 'D', 'E', 'F']

def hexDigitValue (c : Char) : ℕ :=
  if c.isDigit then c.toNat - 48 else if 'a' ≤ c then c.toNat - 87 else c.toNat - 55

/-- `int(s, base)` of digits. -/
def intOfDigits (base : ℕ) (s : List Char) : ℕ := s.foldl (fun n c => base * n + hexDigitValue c) 0

/-- `_parse_octet`. -/
def parseOctet (s : List Char) : Option ℕ :=
  if !isDecimal s || decide (3 < s.length) || decide (s ≠ ['0'] ∧ s.head? = some '0') then none
  else
    let octet := intOfDigits 10 s
    if 255 < octet then none else some octet

/-- `_BaseV4._ip_int_from_string`. -/
def ipv4Int (s : List Char) : Option ℕ :=
  match s.splitOn '.' with
  | [a, b, c, d] => do
    let a ← parseOctet a
    let b ← parseOctet b
    let c ← parseOctet c
    let d ← parseOctet d
    return ((a * 256 + b) * 256 + c) * 256 + d
  | _ => none

/-- `_prefix_from_ip_int`: the leading ones, when nothing but zeros follows. -/
def prefixFromIpInt (v : IPVersion) (ip : ℕ) : Option ℕ :=
  let trailing := ((List.range v.maxPrefixlen).find? ip.testBit).getD v.maxPrefixlen
  let prefixlen := v.maxPrefixlen - trailing
  if ip >>> trailing = 2 ^ prefixlen - 1 then some prefixlen else none

/-- `_prefix_from_prefix_string`; `int` refuses more than 4300 digits. -/
def prefixFromPrefixString (v : IPVersion) (s : List Char) : Option ℕ :=
  if !isDecimal s || decide (4300 < s.length) then none
  else
    let prefixlen := intOfDigits 10 s
    if v.maxPrefixlen < prefixlen then none else some prefixlen

/-- `_prefix_from_ip_string`: a netmask, else a hostmask. -/
def prefixFromIpString (s : List Char) : Option ℕ := do
  let ip ← ipv4Int s
  (prefixFromIpInt .v4 ip).or (prefixFromIpInt .v4 (ip ^^^ IPVersion.v4.allOnes))

/-- `_make_netmask`; no mask is the whole address. -/
def makeNetmask (v : IPVersion) : Option (List Char) → Option ℕ
  | none => some v.maxPrefixlen
  | some s =>
    match v with
    | .v4 => (prefixFromPrefixString .v4 s).or (prefixFromIpString s)
    | .v6 => prefixFromPrefixString .v6 s

/-! ### Reading IPv6 -/

/-- `_parse_hextet`. -/
def parseHextet (s : List Char) : Option ℕ :=
  if s.isEmpty || !s.all (hexDigits.contains ·) || decide (4 < s.length) then none
  else some (intOfDigits 16 s)

/-- `'%x' % n`. -/
def hexText (n : ℕ) : List Char := Nat.toDigits 16 n

/-- The parts between colons, with a dotted quad at the end turned into two hextets. -/
def hextetParts (s : List Char) : Option (List (List Char)) := do
  let parts := s.splitOn ':'
  if parts.length < 3 then none
  else
    let last := parts.getLastD []
    if '.' ∈ last then
      let ip ← ipv4Int last
      return parts.dropLast ++ [hexText (ip >>> 16 &&& 0xFFFF), hexText (ip &&& 0xFFFF)]
    else return parts

/-- How many parts stand before and after the `::`, and how many it skips. -/
def hextetLayout (parts : List (List Char)) : Option (ℕ × ℕ × ℕ) :=
  let leading := decide (parts.head? = some [])
  let trailing := decide (parts.getLast? = some [])
  match (List.range parts.length).filter fun i =>
      decide (1 ≤ i ∧ i < parts.length - 1) && decide (parts[i]? = some []) with
  | [] => if parts.length ≠ 8 || leading || trailing then none else some (8, 0, 0)
  | [skip] =>
    let hi := if leading then skip - 1 else skip
    let lo := if trailing then parts.length - skip - 2 else parts.length - skip - 1
    if leading && decide (hi ≠ 0) then none
    else if trailing && decide (lo ≠ 0) then none
    else if 8 < hi + lo + 1 then none
    else some (hi, lo, 8 - (hi + lo))
  | _ => none

/-- `_BaseV6._ip_int_from_string`. -/
def ipv6Int (s : List Char) : Option ℕ := do
  let parts ← hextetParts s
  if 9 < parts.length then none
  else
    let (hi, lo, skipped) ← hextetLayout parts
    let high ← (parts.take hi).mapM parseHextet
    let low ← (parts.drop (parts.length - lo)).mapM parseHextet
    return low.foldl (fun ip h => ip <<< 16 ||| h)
      (high.foldl (fun ip h => ip <<< 16 ||| h) 0 <<< (16 * skipped))

/-- `_split_scope_id`. -/
def splitScopeId (s : List Char) : Option (List Char × Option String) :=
  match s.splitOn '%' with
  | [addr] => some (addr, none)
  | [addr, scope] => if scope.isEmpty then none else some (addr, some (String.ofList scope))
  | _ => none

/-! ### `ip_address` and `ip_network` -/

/-- `IPv4Address`, `IPv6Address`. -/
def addressOf (v : IPVersion) (s : List Char) : Option IPAddress :=
  if '/' ∈ s then none
  else
    match v with
    | .v4 => (ipv4Int s).map fun ip => ⟨.v4, ip, none⟩
    | .v6 => do
      let (addr, scope) ← splitScopeId s
      let ip ← ipv6Int addr
      return ⟨.v6, ip, scope⟩

/-- `IPv4Network`, `IPv6Network` with `strict=False`. -/
def networkOf (v : IPVersion) (s : List Char) : Option IPNetwork := do
  let (addr, mask) ← match s.splitOn '/' with
    | [addr] => some (addr, none)
    | [addr, mask] => some (addr, some mask)
    | _ => none
  let a ← addressOf v addr
  let prefixlen ← makeNetmask v mask
  return IPNetwork.ofAddress a prefixlen

/-- `ip_address`; `none` is `ValueError`. -/
def ipAddress (s : String) : Option IPAddress :=
  (addressOf .v4 s.toList).or (addressOf .v6 s.toList)

/-- `ip_network(.., strict=False)`. -/
def ipNetwork (s : String) : Option IPNetwork :=
  (networkOf .v4 s.toList).or (networkOf .v6 s.toList)

/-! ### Writing -/

/-- The longest run of zero hextets, its start and its length: the first of equal ones.  The
arguments are the index, the current run and the best one so far. -/
def bestZeroRun : (index start len bestStart bestLen : ℕ) → List ℕ → ℕ × ℕ
  | _, _, _, bestStart, bestLen, [] => (bestStart, bestLen)
  | index, start, len, bestStart, bestLen, h :: hs =>
    if h = 0 then
      let start := if len = 0 then index else start
      if bestLen < len + 1 then bestZeroRun (index + 1) start (len + 1) start (len + 1) hs
      else bestZeroRun (index + 1) start (len + 1) bestStart bestLen hs
    else bestZeroRun (index + 1) start 0 bestStart bestLen hs

/-- `_compress_hextets`. -/
def compressHextets (hextets : List ℕ) : List String :=
  let texts := hextets.map fun h => String.ofList (hexText h)
  let (start, len) := bestZeroRun 0 0 0 0 0 hextets
  if 1 < len then
    (if start = 0 then [""] else []) ++ texts.take start ++ [""] ++ texts.drop (start + len) ++
      (if start + len = hextets.length then [""] else [])
  else texts

/-- `_string_from_ip_int`. -/
def octetsText (ip : ℕ) : String :=
  ".".intercalate ([24, 16, 8, 0].map fun k => natText (ip >>> k &&& 0xFF))

def hextetsText (ip : ℕ) : String :=
  ":".intercalate
    (compressHextets ([112, 96, 80, 64, 48, 32, 16, 0].map fun k => ip >>> k &&& 0xFFFF))

/-- `str(address)`: from Python 3.13 on, an IPv4-mapped address ends in the four octets. -/
def ipText : IPVersion → ℕ → String
  | .v4, ip => octetsText ip
  | .v6, ip =>
    if ip >>> 32 = 0xFFFF then hextetsText 0xFFFF ++ ":" ++ octetsText (ip &&& 0xFFFFFFFF)
    else hextetsText ip

/-- `str(network)`. -/
def IPNetwork.text (n : IPNetwork) : String :=
  ipText n.version n.networkAddress ++ (n.scopeId.elim "" fun scope => "%" ++ scope) ++ "/" ++
    natText n.prefixlen

end Lib
