import RpcPool.Files.Tree

/-!
# File operations

An operation on a file tree succeeds or fails; in either case what it has changed by then stays changed.
-/

namespace RpcPool

/-- An operation on a file tree. -/
abbrev FileM := EStateM FileError FileTree

namespace FileM

/-- The result of a lookup in the tree. -/
def ask {α : Type} (f : FileTree → Except FileError α) : FileM α := do
  match f (← get) with
  | .ok a => return a
  | .error e => throw e

/-- The result of an operation, which does not fail any more. -/
def result {α : Type} (op : FileM α) : FileM (Except FileError α) :=
  tryCatch (do return .ok (← op)) fun e => return .error e

/-- Carries on whether an operation succeeds or not. -/
def attempt (op : FileM Unit) : FileM Unit := tryCatch op fun _ => pure ()

/-- The tree that an operation leaves behind, whether it succeeds or not. -/
def after {α : Type} (op : FileM α) (t : FileTree) : FileTree :=
  match op t with
  | .ok _ t => t
  | .error _ t => t

/-! ## Reading -/

/-- The content of a file. -/
def read (p : Path) : FileM Content := do
  match ← ask fun t => t.find p with
  | (_, .file c _) => return c
  | (_, .directory _) => throw .isDirectory

/-- The content of a text file. -/
def readText (p : Path) : FileM String := do
  match (← read p).text? with
  | some s => return s
  | none => throw .notText

/-- The size of a file. That of a directory is not of interest. -/
def size (p : Path) : FileM Nat := do
  match ← ask fun t => t.find p with
  | (_, .file c _) => return c.size
  | (_, .directory _) => return 0

/-- The names in a directory, with what they stand for. -/
def list (p : Path) : FileM (List (String × Entry)) := do
  match ← ask fun t => t.find p with
  | (_, .file ..) => throw .notDirectory
  | (l, .directory _) => return (← get).children l

/-! ## Writing -/

/-- Gives a file a new content that depends on the old one. A file that is not there is made. -/
def update (p : Path) (f : Content → Content) : FileM Unit := do
  let l ← ask fun t => t.locate p
  let t ← get
  match t.get? l with
  | some (.directory _) => throw .isDirectory
  | some (.file c _) => if p.slash then throw .notDirectory else set (t.set l (.file (f c) t.now))
  | none => if p.slash then throw .isDirectory else set (t.set l (.file (f .empty) t.now))

/-- Replaces the content of a file. -/
def write (p : Path) (c : Content) : FileM Unit := update p fun _ => c

/-- Adds to the end of a file. -/
def append (p : Path) (bytes : ByteArray) : FileM Unit := update p fun c => c.append bytes

/-- Makes sure that there is a file, without changing it. -/
def touch (p : Path) : FileM Unit := update p id

/-- Makes a directory. -/
def makeDirectory (p : Path) : FileM Unit := do
  let l ← ask fun t => t.locate p
  let t ← get
  match t.get? l with
  | some _ => throw .alreadyExists
  | none => set (t.set l (.directory t.now))

/-- Makes a directory unless it is there. -/
def ensureDirectory (p : Path) : FileM Unit :=
  tryCatch (makeDirectory p) fun e => do
    if (← get).isDirectory p then return else throw e

/-- Makes a directory with all that lead to it, given the names from the last to the first. -/
def makeDirectories : List String → FileM Unit
  | [] => return
  | name :: above =>
    tryCatch (ensureDirectory (.ofParts (name :: above).reverse)) fun e =>
      if e = .notFound then do
        makeDirectories above
        ensureDirectory (.ofParts (name :: above).reverse)
      else throw e

/-- Makes the directory that a path is in, with all that lead to it. -/
def makeParents (p : Path) : FileM Unit :=
  match p.parent? with
  | none => return
  | some parent => makeDirectories parent.parts.reverse

/-- Removes a file. -/
def remove (p : Path) : FileM Unit := do
  match ← ask fun t => t.find p with
  | (_, .directory _) => throw .isDirectory
  | (l, .file ..) => modify fun t => t.erase l

/-- Removes a file, or a directory with all that is in it. -/
def removeAll (p : Path) : FileM Unit := do
  let (l, _) ← ask fun t => t.find p
  modify fun t => t.eraseAll l

/-- Moves a file, in place of a file that has the new name. -/
def rename (source target : Path) : FileM Unit := do
  match ← ask fun t => t.find source with
  | (_, .directory _) => throw .isDirectory
  | (l, .file c m) =>
    let k ← ask fun t => t.locate target
    match (← get).get? k with
    | some (.directory _) => throw .isDirectory
    | _ => modify fun t => (t.erase l).set k (.file c m)

/-- Whether the lock of a file is free. -/
def isFree (p : Path) : FileM Bool := do
  let l ← ask fun t => t.locate p
  return !(← get).locked.contains l

end FileM

end RpcPool
