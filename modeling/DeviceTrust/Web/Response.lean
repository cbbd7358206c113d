import DeviceTrust.Bytes
import DeviceTrust.Text.Blank
import DeviceTrust.Text.Count

/-!
# Responses from the web

A response is a status line, fields and a body. The body comes in chunks, each behind its length
in hexadecimal digits, or has the length that a field states, or lasts until the connection is
closed. A body that is cut short is none.
-/

namespace DeviceTrust.Web

structure Response where
  status : Nat
  /-- Fields in order, with names in lower case. -/
  fields : List (String × String)
  /-- What follows the head. -/
  rest : Bytes

/-- A line and what follows its line feed. A carriage return at its end does not count. -/
def line? (b : Bytes) : Option (Bytes × Bytes) :=
  match b.dropWhile (· != 10) with
  | [] => none
  | _ :: rest =>
    let line := b.takeWhile (· != 10)
    some (if line.getLast? = some 13 then line.dropLast else line, rest)

theorem length_lt_of_line? {b line rest : Bytes} (h : line? b = some (line, rest)) :
    rest.length < b.length := by
  unfold line? at h
  split at h
  · simp at h
  · rename_i c tail hdrop
    simp only [Option.some.injEq, Prod.mk.injEq] at h
    have hle := (List.dropWhile_suffix (l := b) (· != 10)).length_le
    rw [hdrop, List.length_cons, h.2] at hle
    omega

def ofLatin (b : Bytes) : String := String.ofList (b.map fun x => Char.ofNat x.toNat)

def fieldOf (line : String) : String × String :=
  let cs := line.toList
  (Text.lowerAscii (Text.trim (String.ofList (cs.takeWhile (· != ':')))),
    Text.trim (String.ofList ((cs.dropWhile (· != ':')).drop 1)))

/-- The fields up to an empty line, and what follows it. -/
def fields? (b : Bytes) : Option (List (String × String) × Bytes) :=
  match _h : line? b with
  | none => none
  | some (line, rest) =>
    if line.isEmpty then some ([], rest)
    else (fields? rest).map fun (fields, body) => (fieldOf (ofLatin line) :: fields, body)
termination_by b.length
decreasing_by exact length_lt_of_line? _h

def status? (line : String) : Option Nat :=
  match Text.split ' ' line with
  | version :: code :: _ =>
    if version.startsWith "HTTP/1." ∧ code.length = 3 then Text.count? code else none
  | _ => none

/-- Length of a chunk, whatever is said about it behind a semicolon. -/
def chunkLength? (line : Bytes) : Option Nat :=
  let digits := Text.trim (String.ofList ((ofLatin line).toList.takeWhile (· != ';')))
  if digits.isEmpty then none
  else digits.toList.foldlM (fun n c => (Bytes.hexValue? c).map (n * 16 + ·)) 0

def chunk? (b : Bytes) : Option (Bytes × Bytes) :=
  match line? b with
  | none => none
  | some (line, rest) =>
    (chunkLength? line).bind fun n =>
      if rest.length < n then none else some (rest.take n, rest.drop (n + 2))

theorem length_lt_of_chunk? {b chunk rest : Bytes} (h : chunk? b = some (chunk, rest)) :
    rest.length < b.length := by
  unfold chunk? at h
  split at h
  · simp at h
  · rename_i line behind hline
    obtain ⟨n, -, h⟩ := Option.bind_eq_some_iff.1 h
    have := length_lt_of_line? hline
    split at h
    · simp at h
    · simp only [Option.some.injEq, Prod.mk.injEq] at h
      rw [← h.2, List.length_drop]
      omega

/-- A body out of its chunks, which end with an empty one. -/
def ofChunks? (b : Bytes) : Option Bytes :=
  match _h : chunk? b with
  | none => none
  | some (chunk, rest) =>
    if chunk.isEmpty then some [] else (ofChunks? rest).map (chunk ++ ·)
termination_by b.length
decreasing_by exact length_lt_of_chunk? _h

namespace Response

def ofBytes? (b : Bytes) : Option Response := do
  let (first, rest) ← line? b
  let status ← status? (ofLatin first)
  let (fields, rest) ← fields? rest
  return ⟨status, fields, rest⟩

def field? (r : Response) (name : String) : Option String := r.fields.lookup name

def isSuccess (status : Nat) : Bool := 200 ≤ status && status ≤ 299

def isBare (status : Nat) : Bool := status < 200 || status == 204 || status == 304

def body? (r : Response) : Option Bytes :=
  if isBare r.status then some []
  else match r.field? "transfer-encoding" with
    | some coding =>
      if Text.sameIgnoringCase coding "chunked" then ofChunks? r.rest else none
    | none =>
      match r.field? "content-length" with
      | none => some r.rest
      | some digits =>
        match Text.count? digits with
        | none => none
        | some n => if r.rest.length < n then none else some (r.rest.take n)

end Response

end DeviceTrust.Web
