import DeviceTrust.Bytes

/-!
# Files as data

What the library reads from files is given by what each path leads to: contents, a directory,
or nothing. `Storage` holds that as a function of the path; it comes from what was observed of
some paths or from a `Tree`, a table of paths in which a path is followed component by component
and a directory is whatever lies above an entry.
-/

namespace DeviceTrust

inductive StorageError where
  | missing
  | notDirectory
  | isDirectory
  | denied
  | notText
  deriving DecidableEq, Repr

def StorageError.message : StorageError → String
  | missing => "No such file or directory (os error 2)"
  | notDirectory => "Not a directory (os error 20)"
  | isDirectory => "Is a directory (os error 21)"
  | denied => "Permission denied (os error 13)"
  | notText => "stream did not contain valid UTF-8"

inductive StorageEntry where
  | file (contents : Bytes)
  | directory
  /-- A file that may not be read. -/
  | closed
  deriving DecidableEq, Repr

structure Storage where
  resolve : String → Except StorageError StorageEntry

namespace Storage

def empty : Storage := ⟨fun _ => .error .missing⟩

/-- What is known of some paths. Nothing is at any other. -/
def ofObservations (known : List (String × Except StorageError StorageEntry)) : Storage :=
  ⟨fun path => (known.lookup path).getD (.error .missing)⟩

def read (s : Storage) (path : String) : Except StorageError Bytes :=
  match s.resolve path with
  | .ok (.file contents) => .ok contents
  | .ok .directory => .error .isDirectory
  | .ok .closed => .error .denied
  | .error e => .error e

def readText (s : Storage) (path : String) : Except StorageError String :=
  match s.read path with
  | .error e => .error e
  | .ok contents =>
    match Bytes.text? contents with
    | some text => .ok text
    | none => .error .notText

def contains (s : Storage) (path : String) : Bool :=
  match s.resolve path with
  | .ok _ => true
  | .error _ => false

/-- A table of paths, each a list of its components. -/
structure Tree where
  entries : List (List String × StorageEntry)

namespace Tree

/-- Components of a path; empty ones and single dots do not count. -/
def components (path : String) : List String :=
  (path.splitOn "/").filter fun c => c ≠ "" ∧ c ≠ "."

def root : Tree := ⟨[([], .directory)]⟩

def add (t : Tree) (path : String) (entry : StorageEntry) : Tree :=
  ⟨(components path, entry) :: t.entries⟩

/-- What a list of components leads to: an entry of the table, or a directory above one. -/
def entry? (t : Tree) (path : List String) : Option StorageEntry :=
  match t.entries.lookup path with
  | some e => some e
  | none =>
    if t.entries.any fun (p, _) => path.isPrefixOf p then some .directory else none

/-- Follows components from a directory. Two dots lead back up. -/
def follow (t : Tree) (here : List String) : List String → Except StorageError StorageEntry
  | [] =>
    match t.entry? here with
    | some e => .ok e
    | none => .error .missing
  | c :: rest =>
    match t.entry? here with
    | some .directory => t.follow (if c = ".." then here.dropLast else here ++ [c]) rest
    | some _ => .error .notDirectory
    | none => .error .missing

/-- What a path leads to. A path that ends in a slash must lead to a directory. -/
def resolve (t : Tree) (path : String) : Except StorageError StorageEntry :=
  if path.isEmpty then .error .missing
  else match t.follow [] (components path) with
    | .ok .directory => .ok .directory
    | .ok entry => if path.endsWith "/" then .error .notDirectory else .ok entry
    | .error e => .error e

def storage (t : Tree) : Storage := ⟨t.resolve⟩

end Tree

end Storage

end DeviceTrust
