import Typeahead.Disk.Path

/-!
Looking things up in a directory tree, and changing it, as an operating system does: links are
followed, and what fails fails for a reason.
-/
namespace Typeahead

/-! ## Failures -/

/-- Why an access to the tree failed. -/
inductive DiskError where
  | notFound
  | exists
  | notDirectory
  | isDirectory
  | nameTooLong
  | tooManyLinks
  | notUtf8
  | nulInPath
  deriving DecidableEq, Repr

/-- The wording of a failure. -/
def DiskError.message : DiskError → String
  | notFound => "No such file or directory (os error 2)"
  | .exists => "File exists (os error 17)"
  | notDirectory => "Not a directory (os error 20)"
  | isDirectory => "Is a directory (os error 21)"
  | nameTooLong => "File name too long (os error 36)"
  | tooManyLinks => "Too many levels of symbolic links (os error 40)"
  | notUtf8 => "stream did not contain valid UTF-8"
  | nulInPath => "file name contained an unexpected NUL byte"

/-- A directory tree, and the place in it from which relative paths start. Everything in it may be read
and written. -/
structure Disk where
  root : Node
  current : List FileName

namespace Disk

/-! ## Looking up -/

/-- How many links are followed on the way to one node. -/
def linkLimit : Nat := 40

/-- Longest name of an entry, in bytes. -/
def nameLimit : Nat := 255

/-- The length in bytes that a path has to stay below. -/
def pathLimit : Nat := 4096

/-- A node that was found, and its place. -/
structure Found where
  place : List FileName
  node : Node

/-- Walks the steps of a path from a place. Where a link has to be followed, `follow` goes on with
its target. The last step's own link is followed only if `last` says so. -/
def walkWith (root : Node) (last : Bool)
    (follow : List FileName → List Path.Step → Except DiskError Found) :
    List FileName → List Path.Step → Except DiskError Found
  | place, [] =>
    match root.get? place with
    | some node => .ok ⟨place, node⟩
    | none => .error .notFound
  | place, step :: rest =>
    match root.get? place with
    | some (.directory entries) =>
      match step with
      | .here => walkWith root last follow place rest
      | .up => walkWith root last follow place.dropLast rest
      | .child name =>
        if nameLimit < name.size then .error .nameTooLong
        else
          match entries.get? name with
          | none => .error .notFound
          | some (.link target) =>
            -- A link goes on from the directory that holds it, an absolute one from the root.
            if rest.isEmpty && !last then .ok ⟨place ++ [name], .link target⟩
            else
              follow (if Path.isAbsolute target then [] else place) (Path.steps target ++ rest)
          | some _ => walkWith root last follow (place ++ [name]) rest
    | some _ => .error .notDirectory
    | none => .error .notFound

/-- Walks the steps of a path, following at most the given number of links. -/
def walk (root : Node) (last : Bool) :
    Nat → List FileName → List Path.Step → Except DiskError Found
  | 0, _, _ => .error .tooManyLinks
  | links + 1, place, steps => walkWith root last (walk root last links) place steps

variable (d : Disk)

/-- Checks on the text of a path that come before any look-up. -/
def checkPath (p : Text) : Except DiskError Unit :=
  if Char.ofNat 0 ∈ p then .error .nulInPath
  else if p.isEmpty then .error .notFound
  else if pathLimit ≤ Text.utf8Size p then .error .nameTooLong
  else .ok ()

/-- The node at a path and its place. -/
def find (p : Text) (last : Bool := true) : Except DiskError Found := do
  checkPath p
  walk d.root last (linkLimit + 1) (if Path.isAbsolute p then [] else d.current) (Path.steps p)

/-- Whether the path leads to something. -/
def pathExists (p : Text) : Bool := (d.find p).isOk

/-- The entries of the directory at a path. -/
def list (p : Text) : Except DiskError (List (FileName × Node)) := do
  match (← d.find p).node with
  | .directory entries => .ok entries.toList
  | _ => .error .notDirectory

/-- The text of the file at a path. -/
def readText (p : Text) : Except DiskError Text := do
  match (← d.find p).node with
  | .file (.text t) _ => .ok t
  | .file .binary _ => .error .notUtf8
  | .directory _ => .error .isDirectory
  | .link _ => .error .notFound

/-! ## Changing -/

/-- The place that the last step of a path names in the directory before it, whether there is
something or not. -/
def slot (p : Text) : Except DiskError (List FileName × Option Node) := do
  checkPath p
  let steps := Path.steps p
  let start := if Path.isAbsolute p then [] else d.current
  match steps.reverse.dropWhile (· = .here) with
  | .child name :: before =>
    let directory ← walk d.root true (linkLimit + 1) start before.reverse
    match directory.node with
    | .directory entries =>
      if nameLimit < name.size then .error .nameTooLong
      else .ok (directory.place ++ [name], entries.get? name)
    | _ => .error .notDirectory
  | _ =>
    let found ← walk d.root true (linkLimit + 1) start steps
    .ok (found.place, some found.node)

/-- Makes one directory. -/
def makeDirectory (p : Text) : Except DiskError Disk := do
  match ← d.slot p with
  | (_, some _) => .error .exists
  | (place, none) => .ok { d with root := d.root.put .emptyDirectory place }

/-- Whether the path leads to a directory. -/
def isDirectory (p : Text) : Bool :=
  match d.find p with
  | .ok found => found.node.isDirectory
  | .error _ => false

/-- Makes the directories that are missing among a path and its ancestors, the nearest one first in
the list. -/
def makeChain : List Text → Disk → Except DiskError Disk
  | [], d => .ok d
  | p :: above, d =>
    if p.isEmpty then .ok d
    else
      match d.makeDirectory p with
      | .ok d => .ok d
      | .error .notFound => do
        let d ← makeChain above d
        match d.makeDirectory p with
        | .ok d => .ok d
        | .error e => if d.isDirectory p then .ok d else .error e
      | .error e => if d.isDirectory p then .ok d else .error e

/-- Makes a directory together with the missing ones above it. -/
def makeDirectories (p : Text) : Except DiskError Disk := makeChain (Path.ancestors p) d

/-- Walks the steps of a path to a file that is to be written, and tells its place and its mode. The
last step may name a file that is not there yet. Where a link has to be followed, `follow` goes on
with its target. -/
def openWith (root : Node)
    (follow : List FileName → List Path.Step → Except DiskError (List FileName × Option Nat)) :
    List FileName → List Path.Step → Except DiskError (List FileName × Option Nat)
  | place, [] =>
    match root.get? place with
    | some (.file _ mode) => .ok (place, some mode)
    | some (.directory _) => .error .isDirectory
    | _ => .error .notFound
  | place, step :: rest =>
    match root.get? place with
    | some (.directory entries) =>
      match step with
      | .here => openWith root follow place rest
      | .up => openWith root follow place.dropLast rest
      | .child name =>
        if nameLimit < name.size then .error .nameTooLong
        else
          match entries.get? name with
          | none => if rest.isEmpty then .ok (place ++ [name], none) else .error .notFound
          | some (.link target) =>
            follow (if Path.isAbsolute target then [] else place) (Path.steps target ++ rest)
          | some _ => openWith root follow (place ++ [name]) rest
    | some _ => .error .notDirectory
    | none => .error .notFound

/-- Opens a file for writing by the steps of its path, following at most the given number of links,
also those that lead nowhere yet. The last step has to name a file. -/
def openForWriting (root : Node) :
    Nat → List FileName → List Path.Step → Except DiskError (List FileName × Option Nat)
  | 0, _, _ => .error .tooManyLinks
  | links + 1, place, steps =>
    match steps.getLast? with
    | some (.child _) => openWith root (openForWriting root links) place steps
    | _ => .error .isDirectory

/-- Writes a file, whole; a new one gets the given mode. -/
def write (p : Text) (content : Content) (mode : Nat := 0o644) : Except DiskError Disk := do
  checkPath p
  let start := if Path.isAbsolute p then [] else d.current
  let (place, old) ← openForWriting d.root (linkLimit + 1) start (Path.steps p)
  .ok { d with root := d.root.put (.file content (old.getD mode)) place }

end Disk

end Typeahead
