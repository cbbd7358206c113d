import DeviceTrust.Text.Blank

/-!
# Web addresses

An address that a request can be sent to is absolute, has the scheme `http` or `https`, and
names a host. Blank and control characters around it do not count, nor do tabs and line
breaks inside it, and slashes may lean either way.
-/

namespace DeviceTrust.Web

def isEdge (c : Char) : Bool := c.toNat ≤ 0x20

def strip (s : String) : List Char :=
  (Text.dropWhileEnd isEdge (s.toList.dropWhile isEdge)).filter fun c =>
    c != '\t' && c != '\n' && c != '\r'

def isSlash (c : Char) : Bool := c == '/' || c == '\\'

/-- What follows a scheme and its colon, letters compared without regard to case. -/
def afterScheme? (scheme : String) (cs : List Char) : Option (List Char) :=
  let n := scheme.length
  if (cs.take n).map Char.toLower = scheme.toList ∧ (cs.drop n).head? = some ':' then
    some (cs.drop (n + 1))
  else none

/-- What stands between the slashes behind the scheme and the path, query or fragment. -/
def authority (rest : List Char) : List Char :=
  (rest.dropWhile isSlash).takeWhile fun c => !isSlash c && c != '?' && c != '#'

def withoutUser (cs : List Char) : List Char :=
  (cs.reverse.takeWhile (· != '@')).reverse

def isPort (digits : List Char) : Bool :=
  digits.all Char.isDigit && digits.foldl (fun n c => n * 10 + (c.toNat - '0'.toNat)) 0 ≤ 65535

def isForbidden (c : Char) : Bool :=
  c.toNat ≤ 0x20 || c.toNat == 0x7f || "#/:<>?@[\\]^|%".toList.contains c

/-- A number in decimal, octal or hexadecimal notation, as a part of a numeric host. -/
def number? (cs : List Char) : Option Nat :=
  let read (base : Nat) (ds : List Char) : Option Nat :=
    ds.foldlM (fun n c =>
      let d := if c.isDigit then c.toNat - '0'.toNat
        else if 'a' ≤ c.toLower ∧ c.toLower ≤ 'f' then c.toLower.toNat - 'a'.toNat + 10 else 16
      if d < base then some (n * base + d) else none) 0
  match cs with
  | [] => none
  | '0' :: 'x' :: ds => read 16 ds
  | '0' :: 'X' :: ds => read 16 ds
  | '0' :: d :: ds => read 8 (d :: ds)
  | ds => read 10 ds

/-- Whether a host is no number, or the numbers of an address of four bytes. -/
def isHostNumber (host : List Char) : Bool :=
  let parts := Text.splitChars '.' host
  let parts := if 1 < parts.length ∧ parts.getLast? = some [] then parts.dropLast else parts
  let last := parts.getLastD []
  let numeric := !last.isEmpty && (last.all Char.isDigit || (number? last).isSome)
  if !numeric then true
  else match parts.mapM number? with
    | none => false
    | some ns =>
      ns.length ≤ 4 && ns.dropLast.all (· ≤ 255) && ns.getLastD 0 < Nat.pow 256 (5 - ns.length)

/-- Whether a bracketed host has the shape of an address of sixteen bytes. -/
def isHostLong (inner : List Char) : Bool :=
  2 ≤ inner.length && inner.contains ':' && inner.all fun c =>
    c == ':' || c == '.' || c.isDigit || ('a' ≤ c.toLower && c.toLower ≤ 'f')

def isHostPort (cs : List Char) : Bool :=
  match cs with
  | '[' :: rest =>
    let inner := rest.takeWhile (· != ']')
    match rest.dropWhile (· != ']') with
    | [']'] => isHostLong inner
    | ']' :: ':' :: port => isHostLong inner && isPort port
    | _ => false
  | _ =>
    let host := cs.takeWhile (· != ':')
    let port := (cs.dropWhile (· != ':')).drop 1
    !host.isEmpty && !host.any isForbidden && isHostNumber host && isPort port

/-- What follows the scheme of an address, and whether the scheme asks for encryption. -/
def behindScheme? (s : String) : Option (Bool × List Char) :=
  match afterScheme? "http" (strip s) with
  | some rest => some (false, rest)
  | none => (afterScheme? "https" (strip s)).map (true, ·)

/-- Whether a request can be sent to an address. -/
def isAddress (s : String) : Bool :=
  match behindScheme? s with
  | some (_, rest) => isHostPort (withoutUser (authority rest))
  | none => false

end DeviceTrust.Web
