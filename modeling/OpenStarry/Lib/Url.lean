import OpenStarry.Lib.Cut
import OpenStarry.Lib.Decimal

/-!
# Addresses in text

What `ipaddress.ip_address` accepts: four decimal octets, or up to eight groups of hexadecimal
digits of which one run may be skipped, with an IPv4 tail and a scope identifier.
-/

namespace OpenStarry.Lib.Text

/-! ### IPv4 -/

/-- `_parse_octet` accepts: ASCII digits, at most three, no leading zero, at most 255. -/
def isOctet (text : Str) : Bool :=
  !text.isEmpty && text.all Char.isDigit && text.length ≤ 3 &&
    (text == ['0'] || text.head? != some '0') && intOf text ≤ 255

/-- The integer of `IPv4Address(text)`, `none` where it raises. -/
def ipv4Address (text : Str) : Option Nat :=
  let octets := text.splitOn '.'
  if octets.length = 4 ∧ octets.all isOctet then
    some (octets.foldl (fun ip octet => ip * 256 + intOf octet) 0)
  else none

/-! ### IPv6 -/

def isHexDigit (c : Char) : Bool :=
  c.isDigit || ('a' ≤ c && c ≤ 'f') || ('A' ≤ c && c ≤ 'F')

/-- `_parse_hextet` accepts. -/
def isHextet (text : Str) : Bool := !text.isEmpty && text.all isHexDigit && text.length ≤ 4

def expandTail (parts : List Str) : Option (List Str) :=
  match parts.getLast? with
  | none => some parts
  | some last =>
      if '.' ∈ last then
        (ipv4Address last).map fun ip =>
          parts.dropLast ++ [Nat.toDigits 16 (ip / 65536 % 65536), Nat.toDigits 16 (ip % 65536)]
      else some parts

def skips (parts : List Str) : List Nat :=
  (List.range parts.length).filter fun i =>
    1 ≤ i && i + 1 < parts.length && parts[i]? == some []

/-- How many groups stand on one side of `::`: an empty part at the end belongs to the `::` and
must be the only one there. -/
def sideLength (emptyEnd : Bool) (length : Nat) : Option Nat :=
  if emptyEnd then (if length = 1 then some 0 else none) else some length

/-- The groups make eight, with what `::` stands for. -/
def areGroups (parts : List Str) : Bool :=
  match skips parts with
  | [] => parts.length == 8 && parts.all isHextet
  | [skip] =>
      match sideLength (parts.head? == some []) skip,
        sideLength (parts.getLast? == some []) (parts.length - skip - 1) with
      | some high, some low =>
          high + low < 8 && (parts.take high).all isHextet &&
            (parts.drop (parts.length - low)).all isHextet
      | _, _ => false
  | _ => false

/-- `IPv6Address(text)` does not raise. -/
def isIpv6Address (text : Str) : Bool :=
  let address := beforeFirst '%' text
  let scope := afterFirst '%' text
  let parts := address.splitOn ':'
  '/' ∉ text && ('%' ∉ text || (!scope.isEmpty && '%' ∉ scope)) && 3 ≤ parts.length &&
    match expandTail parts with
    | none => false
    | some parts => parts.length ≤ 9 && areGroups parts

/-- `ipaddress.ip_address(text)` does not raise. -/
def isIpAddress (text : Str) : Bool := (ipv4Address text).isSome || isIpv6Address text

/-! ### The separators of an address -/

theorem isDigit_of_isOctet {text : Str} (h : isOctet text = true) :
    text ≠ [] ∧ ∀ c ∈ text, c.isDigit = true := by
  simp only [isOctet, Bool.and_eq_true, List.all_eq_true] at h
  exact ⟨by simpa using h.1.1.1.1, h.1.1.1.2⟩

theorem octets_of_ipv4Address {text : Str} (h : (ipv4Address text).isSome = true) :
    (text.splitOn '.').length = 4 ∧ ∀ octet ∈ text.splitOn '.', isOctet octet = true := by
  by_cases hoctets : (text.splitOn '.').length = 4 ∧ (text.splitOn '.').all isOctet = true
  · exact ⟨hoctets.1, List.all_eq_true.mp hoctets.2⟩
  · rw [ipv4Address, if_neg hoctets] at h
    simp at h

theorem two_le_count_of_isIpv6Address {text : Str} (h : isIpv6Address text = true) :
    2 ≤ text.count ':' := by
  have hparts : 3 ≤ ((beforeFirst '%' text).splitOn ':').length := by
    simp only [isIpv6Address, Bool.and_eq_true, decide_eq_true_eq] at h
    exact h.1.2
  rw [length_splitOn] at hparts
  have hbegins : (beforeFirst '%' text).count ':' ≤ text.count ':' :=
    (List.takeWhile_prefix _).sublist.count_le ':'
  omega

example : isIpAddress "192.0.2.7".toList = true := by decide +kernel

example : isIpAddress "fe80::1:192.0.2.7%eth0".toList = true := by decide +kernel

example : isIpAddress "1:2:3:4:5:6:7::8:9".toList = false := by decide +kernel

/-!
## The network location of a URL

`urllib.parse.urlparse` as far as the location goes: leading control characters and every tab and
line end are dropped, a scheme is cut off, and what follows `//` up to the path, the query or the
fragment is the location, whose host and port are read from behind its last `@`.
-/

/-- The Unicode tables: `str.lower`, which leaves every piece of what it has made as it is and maps
ASCII text letter by letter, and the compatibility normal form. -/
structure Unicode where
  lower : Str → Str
  nfkc : Str → Str
  lower_part : ∀ text part, part <:+: lower text → lower part = part
  lower_ascii : ∀ text, (∀ c ∈ text, c.toNat < 128) → lower text = text.map Char.toLower

theorem toLower_toLower (c : Char) : c.toLower.toLower = c.toLower := by
  by_cases h : c.toNat < 128
  · have hall : ∀ n < 128, (Char.ofNat n).toLower.toLower = (Char.ofNat n).toLower := by decide
    rw [← Char.ofNat_toNat c]
    exact hall _ h
  · have hself : c.toLower = c := by
      refine dif_neg ?_
      rintro ⟨-, hle⟩
      have hnat : c.toNat ≤ 'Z'.toNat := hle
      have hz : 'Z'.toNat = 90 := rfl
      omega
    rw [hself, hself]

def Unicode.ascii : Unicode where
  lower := List.map Char.toLower
  nfkc := id
  lower_part := by
    intro text part hpart
    have hlowered : ∀ c ∈ part, c.toLower = c := fun c hc => by
      obtain ⟨d, -, rfl⟩ := List.mem_map.mp (hpart.subset hc)
      exact toLower_toLower d
    rw [List.map_congr_left hlowered, List.map_id']
  lower_ascii := Text.map_toLower_ascii

namespace Url

def isControlOrSpace (c : Char) : Bool := c.toNat ≤ 0x20

def isUnsafe (c : Char) : Bool := c = '\t' || c = '\r' || c = '\n'

def isSchemeChar (c : Char) : Bool := c.isAlphanum || c = '+' || c = '-' || c = '.'

def isDelimiter (c : Char) : Bool := c = '/' || c = '?' || c = '#'

def clean (url : Str) : Str := (url.dropWhile isControlOrSpace).filter fun c => !isUnsafe c

def dropScheme (url : Str) : Str :=
  let scheme := beforeFirst ':' url
  if ':' ∈ url ∧ scheme.head?.any Char.isAlpha ∧ scheme.all isSchemeChar then afterFirst ':' url
  else url

/-- `_splitnetloc`, where two slashes lead. -/
def splitNetloc : Str → Str
  | '/' :: '/' :: rest => rest.takeWhile fun c => !isDelimiter c
  | _ => []

/-- `_check_bracketed_host`: an address of the future form, or an IPv6 address. -/
def isBracketedHost (hostname : Str) : Bool :=
  match hostname with
  | 'v' :: rest =>
      let version := rest.takeWhile isHexDigit
      let address := (rest.dropWhile isHexDigit).tail
      !version.isEmpty && (rest.dropWhile isHexDigit).head? == some '.' && !address.isEmpty &&
        '\n' ∉ address
  | _ => isIpAddress hostname && (ipv4Address hostname).isNone

def bracketsFit (netloc : Str) : Bool :=
  ('[' ∈ netloc) == (']' ∈ netloc) &&
    ('[' ∉ netloc || isBracketedHost (beforeFirst ']' (afterFirst '[' netloc)))

/-- `_checknetloc`: no character of the location turns into one that would split it. -/
def netlocFits (unicode : Unicode) (netloc : Str) : Bool :=
  let plain := netloc.filter fun c => c ∉ ['@', ':', '#', '?']
  let normal := unicode.nfkc plain
  netloc.all (fun c => c.toNat < 128) || plain == normal ||
    normal.all fun c => c ∉ ['/', '?', '#', '@', ':']

/-- `urlparse(url).netloc`, `none` where it raises. -/
def netloc (unicode : Unicode) (url : Str) : Option Str :=
  let found := splitNetloc (dropScheme (clean url))
  if bracketsFit found ∧ netlocFits unicode found then some found else none

/-- `_hostinfo`: the host and the text of the port. -/
def hostinfo (netloc : Str) : Str × Str :=
  let info := afterLast '@' netloc
  if '[' ∈ info then
    let bracketed := afterFirst '[' info
    (beforeFirst ']' bracketed, afterFirst ':' (afterFirst ']' bracketed))
  else (beforeFirst ':' info, afterFirst ':' info)

/-- `hostname or ""`: a zone keeps its case. -/
def hostname (unicode : Unicode) (netloc : Str) : Str :=
  let host := (hostinfo netloc).1
  unicode.lower (beforeFirst '%' host) ++
    if '%' ∈ host then '%' :: afterFirst '%' host else []

/-- `port` does not raise. -/
def portFits (netloc : Str) : Bool :=
  let port := (hostinfo netloc).2
  port.isEmpty || (port.all Char.isDigit && intOf port ≤ 65535)

end Url

end OpenStarry.Lib.Text
