/-
# The parts of a URI, as Java has them

`URIUtil.toUri` parses a text to a `java.net.URI`, whose getters the server uses:

| getter | gives |
| --- | --- |
| `getScheme` | the scheme, as it is written |
| `getHost` | the host of an authority with a host name or an IP address, and otherwise `null` |
| `getPath` | the path, with its escaped octets read as UTF-8 |

A host name has labels of letters, digits and inner hyphens, and the last one of several begins
with a letter.  The text of `null` is `null`.

`toUri` throws on a text that is no URI; it is called here on what has been requested.
-/

import CloudOs.Lib.Texts
import CloudOs.Lib.Uri
import Mathlib.Data.Char

namespace CloudOs

open Uri Texts

namespace URIUtil

/-! ### Hosts -/

def isLetter (c : Char) : Bool := ('a' ≤ c && c ≤ 'z') || ('A' ≤ c && c ≤ 'Z')

def isDigit (c : Char) : Bool := '0' ≤ c && c ≤ '9'

/-- A label of a host name. -/
def isLabel (label : List Char) : Bool :=
  label.all (fun c => isLetter c || isDigit c || c == '-') && label.head?.any (· != '-') &&
    label.getLast?.any (· != '-')

/-- A host name, which may end with a dot. -/
def isHostname (host : List Char) : Bool :=
  match (if host.getLast? = some '.' then host.dropLast else host).splitOn '.' with
  | [label] => isLabel label
  | labels => labels.all isLabel && labels.getLast?.any fun label => label.head?.any isLetter

/-- A number of an IP address. -/
def isByte (digits : List Char) : Bool :=
  digits != [] && digits.all isDigit &&
    digits.foldl (fun n c => 10 * n + (c.toNat - '0'.toNat)) 0 ≤ 255

def isIPv4 (host : List Char) : Bool :=
  (host.splitOn '.').length == 4 && (host.splitOn '.').all isByte

/-- What stands after the user information of an authority. -/
def afterUserInfo (authority : List Char) : List Char :=
  (cut '@' authority).2.getD authority

/-- The host of an authority, before its port. -/
def hostOf (authority : List Char) : Option (List Char) :=
  let server := afterUserInfo authority
  let host := if server.head? = some '[' then (cut ']' server).1 ++ [']'] else (cut ':' server).1
  let port := server.drop host.length
  if (host.head? = some '[' || isIPv4 host || isHostname host) &&
      (port == [] || (port.head? == some ':' && port.tail.all isDigit)) then some host
  else none

/-! ### Escapes -/

/-- A character that has been begun: how many octets it still takes, the bounds of the next one,
and its bits so far. -/
structure Part where
  left : ℕ
  low : ℕ
  high : ℕ
  bits : ℕ

def replacement : Char := '\uFFFD'

/-- An octet that begins a character. -/
def beginChar (b : ℕ) : List Char × Option Part :=
  if b < 0x80 then ([Char.ofNat b], none)
  else if b < 0xC2 then ([replacement], none)
  else if b < 0xE0 then ([], some ⟨1, 0x80, 0xBF, b % 0x20⟩)
  else if b < 0xF0 then
    ([], some ⟨2, if b = 0xE0 then 0xA0 else 0x80, if b = 0xED then 0x9F else 0xBF, b % 0x10⟩)
  else if b < 0xF5 then
    ([], some ⟨3, if b = 0xF0 then 0x90 else 0x80, if b = 0xF4 then 0x8F else 0xBF, b % 0x08⟩)
  else ([replacement], none)

/-- The characters that the next octet completes. -/
def nextOctet (part : Option Part) (b : ℕ) : List Char × Option Part :=
  match part with
  | none => beginChar b
  | some p =>
    if p.low ≤ b ∧ b ≤ p.high then
      if p.left = 1 then ([Char.ofNat (p.bits * 0x40 + b % 0x40)], none)
      else ([], some ⟨p.left - 1, 0x80, 0xBF, p.bits * 0x40 + b % 0x40⟩)
    else (replacement :: (beginChar b).1, (beginChar b).2)

/-- What ends before its last octet. -/
def flush : Option Part → List Char
  | none => []
  | some _ => [replacement]

/-- `URI.decode`: a run of escaped octets is read as UTF-8, and what is malformed in it as
U+FFFD. -/
def decodeFrom : Option Part → List Char → List Char
  | part, [] => flush part
  | part, '%' :: hi :: lo :: s =>
    match hexDigit hi, hexDigit lo with
    | some h, some l =>
      (nextOctet part (16 * h + l)).1 ++ decodeFrom (nextOctet part (16 * h + l)).2 s
    | _, _ => flush part ++ '%' :: decodeFrom none (hi :: lo :: s)
  | part, c :: s => flush part ++ c :: decodeFrom none s

def decode (s : List Char) : List Char := decodeFrom none s

/-! ### Getters -/

/-- `toUri`. -/
def toUri (uri : String) : Reference := parse uri.toList

/-- The text of a part that may be `null`. -/
def text : Option (List Char) → String
  | none => "null"
  | some s => String.ofList s

def getScheme (uri : Reference) : Option (List Char) := uri.scheme

def getHost (uri : Reference) : Option (List Char) := uri.authority.bind hostOf

def getPath (uri : Reference) : String := String.ofList (decode uri.path)

/-- `FileUtil.dirname`: the path up to its last slash. -/
def dirname (path : String) : String := String.ofList (dir path.toList).dropLast

end URIUtil

end CloudOs
