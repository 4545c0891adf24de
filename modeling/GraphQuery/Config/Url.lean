import GraphQuery.Text.Split

/-! # Addresses of databases

A database is addressed by a URL: a scheme, two slashes and an authority, which ends before the
path, the query or the fragment. An authority may hold an address in brackets, which must be of
version six or later. An authority with a character that is compatible with one of the marks of a
URL is refused, because it could be taken for another authority.
-/

namespace GraphQuery

namespace Url

/-- Whether characters are an octet in decimal digits without leading zeros. -/
def isOctet (cs : List Char) : Bool :=
  let n := cs.foldl (fun n c => 10 * n + (c.toNat - 48)) 0
  !cs.isEmpty && cs.all Char.isDigit && cs.length ≤ 3 && n ≤ 255 &&
    !(1 < cs.length && cs.head? = some '0')

/-- Whether a character is a hexadecimal digit. -/
def isHex (c : Char) : Bool :=
  c.isDigit || ('a' ≤ c && c ≤ 'f') || ('A' ≤ c && c ≤ 'F')

/-- Whether characters are a group of an address of version six. -/
def isGroup (cs : List Char) : Bool :=
  !cs.isEmpty && cs.length ≤ 4 && cs.all isHex

/-- Whether characters are an address of version four. -/
def isVersionFour (cs : List Char) : Bool :=
  let octets := Text.partsOf ['.'] cs.length cs
  octets.length = 4 && octets.all isOctet

/-- The number of groups that parts between colons stand for. Only the last part may be an address
of version four, which stands for two groups. -/
def groupCount? : List (List Char) → Option Nat
  | [] => some 0
  | [last] => if isGroup last then some 1 else if isVersionFour last then some 2 else none
  | part :: rest => if isGroup part then (groupCount? rest).map (· + 1) else none

/-- The parts between colons; no characters have no parts. -/
def colonParts (cs : List Char) : List (List Char) :=
  if cs.isEmpty then [] else Text.partsOf [':'] cs.length cs

/-- Whether characters are an address of version six: eight groups, or fewer around two colons. -/
def isVersionSix (cs : List Char) : Bool :=
  match Text.splitAt? [':', ':'] cs with
  | none => groupCount? (colonParts cs) == some 8
  | some (before, after) =>
    let high := colonParts before
    high.all isGroup && (groupCount? (colonParts after)).any fun low => high.length + low ≤ 7

/-- Whether an address of version six may carry a zone. -/
def isZoned (cs : List Char) : Bool :=
  match Text.splitAt? ['%'] cs with
  | none => isVersionSix cs
  | some (address, zone) => isVersionSix address && !zone.isEmpty && !zone.contains '%'

/-- Whether characters are an address of a later version: the letter v, the version, a point and the
address. -/
def isLaterVersion (cs : List Char) : Bool :=
  match cs with
  | 'v' :: rest =>
    let version := rest.takeWhile isHex
    !version.isEmpty &&
      match rest.drop version.length with
      | '.' :: _ :: _ => true
      | _ => false
  | _ => false

/-- Whether an address may stand in brackets. -/
def isBracketed (cs : List Char) : Bool :=
  if cs.head? = some 'v' then isLaterVersion cs else isZoned cs

/-- The code points of characters that are compatible with a slash, a question mark, a number sign,
an at sign or a colon. -/
def deceptive : List Nat := [
  0x2047, 0x2048, 0x2049, 0x2100, 0x2101, 0x2105, 0x2106, 0x2a74, 0xfe13, 0xfe16, 0xfe55, 0xfe56,
  0xfe5f, 0xfe6b, 0xff03, 0xff0f, 0xff1a, 0xff1f, 0xff20]

/-- Whether an authority is well formed. -/
def isAuthority (cs : List Char) : Bool :=
  let opening := cs.contains '['
  let bracketed := (cs.dropWhile (· ≠ '[')).drop 1
  opening == cs.contains ']' && (!opening || isBracketed (bracketed.takeWhile (· ≠ ']'))) &&
    cs.all fun c => !deceptive.contains c.toNat

/-- Whether a scheme may hold a character. -/
def isSchemeChar (c : Char) : Bool :=
  c.isAlphanum || c = '+' || c = '-' || c = '.'

/-- The scheme in small letters and what follows its colon. Without a scheme everything follows. -/
def takeScheme (cs : List Char) : List Char × List Char :=
  match Text.splitAt? [':'] cs with
  | some (scheme, after) =>
    if (scheme.head?.any Char.isAlpha) && scheme.all isSchemeChar then
      (scheme.map Char.toLower, after)
    else ([], cs)
  | none => ([], cs)

/-- The authority behind two slashes. -/
def authorityOf (cs : List Char) : List Char :=
  match cs with
  | '/' :: '/' :: rest => rest.takeWhile fun c => c ≠ '/' && c ≠ '?' && c ≠ '#'
  | _ => []

/-- The characters of a URL that count: blanks and controls in front are skipped, and so are tabs
and ends of lines anywhere. -/
def significant (cs : List Char) : List Char :=
  (cs.dropWhile fun c => c.toNat ≤ 32).filter fun c => c ≠ '\t' && c ≠ '\r' && c ≠ '\n'

def schemes : List String := ["neo4j", "neo4j+s", "neo4j+ssc", "bolt", "bolt+s", "bolt+ssc"]

def isDatabase (url : String) : Bool :=
  let (scheme, after) := takeScheme (significant url.toList)
  let authority := authorityOf after
  schemes.contains (String.ofList scheme) && !authority.isEmpty && isAuthority authority

example : isDatabase "BOLT+s://u:p@[::1]:7687/db" = true := by decide +kernel
example : isDatabase "bolt://[::1" = false := by decide +kernel
example : isDatabase "bolt://[1.2.3.4]" = false := by decide +kernel

end Url

end GraphQuery
