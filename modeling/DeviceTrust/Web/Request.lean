import DeviceTrust.Bytes
import DeviceTrust.Web.Address

/-!
# Requests to the web

A request asks the host of an address for a document. What it asks for is the path and the query
of the address: dots in the path are followed, and characters that may not stand in a request
line are written as the percent forms of their UTF-8 bytes. The fragment is not sent.
-/

namespace DeviceTrust.Web

structure Request where
  isEncrypted : Bool
  /-- Host in lower case, with its brackets if it has any. -/
  host : String
  port : Nat
  target : String
  deriving DecidableEq, Repr

def usualPort (isEncrypted : Bool) : Nat := if isEncrypted then 443 else 80

def splitPort (cs : List Char) : List Char × List Char :=
  match cs with
  | '[' :: _ =>
    (cs.takeWhile (· != ']') ++ [']'], ((cs.dropWhile (· != ']')).drop 1).drop 1)
  | _ => (cs.takeWhile (· != ':'), (cs.dropWhile (· != ':')).drop 1)

def percentByte (b : UInt8) : List Char := '%' :: (Bytes.hexByte b).map Char.toUpper

/-- A character, or the percent forms of its bytes if it is outside printing ASCII or reserved. -/
def percentChar (reserved : List Char) (c : Char) : List Char :=
  if c.toNat ≤ 0x20 ∨ 0x7f ≤ c.toNat ∨ reserved.contains c then
    (Bytes.ofText (String.singleton c)).flatMap percentByte
  else [c]

def reservedInPath : List Char := "\"#<>?`\x7b\x7d".toList

def reservedInQuery : List Char := "\"#<>'".toList

/-- Follows the dots among the parts of a path: one stays, two go back by a part. After dots at the end comes
an empty part, so that the path still ends in a slash. -/
def followDots (before : List (List Char)) : List (List Char) → List (List Char)
  | [] => before
  | part :: rest =>
    let here :=
      if part = ['.'] then before else if part = ['.', '.'] then before.dropLast else before ++ [part]
    if rest.isEmpty ∧ (part = ['.'] ∨ part = ['.', '.']) then here ++ [[]] else followDots here rest

def pathOf (cs : List Char) : List Char :=
  let parts := Text.splitChars '/' ((cs.map fun c => if isSlash c then '/' else c).drop 1)
  (followDots [] parts).flatMap fun part => '/' :: part.flatMap (percentChar reservedInPath)

/-- Path and query of a request, of what follows the host. -/
def targetOf (cs : List Char) : List Char :=
  let sent := cs.takeWhile (· != '#')
  pathOf (sent.takeWhile (· != '?')) ++ (sent.dropWhile (· != '?')).flatMap (percentChar reservedInQuery)

namespace Request

def ofAddress? (s : String) : Option Request :=
  if !isAddress s then none
  else (behindScheme? s).map fun (isEncrypted, rest) =>
    let (host, port) := splitPort (withoutUser (authority rest))
    { isEncrypted := isEncrypted
      host := String.ofList (host.map Char.toLower)
      port := if port.isEmpty then usualPort isEncrypted
        else port.foldl (fun n c => n * 10 + (c.toNat - '0'.toNat)) 0
      target := String.ofList (targetOf ((rest.dropWhile isSlash).drop (authority rest).length)) }

def firstLine (r : Request) : String := "GET " ++ r.target ++ " HTTP/1.1"

/-- Host with the port, unless that is the usual one. -/
def hostField (r : Request) : String :=
  if r.port = usualPort r.isEncrypted then r.host else s!"{r.host}:{r.port}"

/-- Text of the request, with fields of the sender. The connection is closed after the answer. -/
def text (r : Request) (fields : List (String × String)) : String :=
  String.join
    (((r.firstLine :: (fields ++ [("host", r.hostField), ("connection", "close")]).map
      fun (name, value) => name ++ ": " ++ value) ++ [""]).map (· ++ "\r\n"))

end Request

end DeviceTrust.Web
