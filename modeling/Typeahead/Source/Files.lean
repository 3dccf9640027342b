import Typeahead.Disk.Access
import Typeahead.Source.Basic

/-!
Files and directories as candidates for the path that is being typed.
-/
namespace Typeahead

/-- How many files are offered unless told otherwise. -/
def fileLimit : Nat := 50

/-- The directory that the typed directory part stands for. -/
def typedDirectory (home directory part : Text) : Text :=
  if part.isEmpty then directory
  else
    match Text.strip? ['~', '/'] part with
    | some rest => Path.join home rest
    | none => Path.join directory part

/-- What a directory entry offers: its full score and the text that is inserted and shown. -/
structure FileOffer where
  score : Nat
  value : Text
  shown : Text
  isDirectory : Bool
  deriving DecidableEq, Repr

namespace FileOffer

/-- The offer of an entry, if it matches the typed name. Entries that start with a dot are hidden
unless a dot was typed; a directory ends in a slash and scores more. -/
def ofEntry? (part typed : Text) (name : Text) (isDirectory : Bool) : Option FileOffer :=
  if name.head? = some '.' && typed.head? ≠ some '.' then none
  else
    match matchScore name typed with
    | 0 => none
    | score =>
      if isDirectory then some ⟨score + 5, part ++ name ++ ['/'], name ++ ['/'], true⟩
      else some ⟨score, part ++ name, name, false⟩

/-- The order of offers: the higher score first, then by value. -/
def le (a b : FileOffer) : Bool :=
  if a.score = b.score then Text.le a.value b.value else b.score < a.score

/-- The candidate for an offer. -/
def candidate (o : FileOffer) : Candidate where
  value := o.value
  group := .file
  score := Float.ofNat o.score
  source := "file".toList
  display := some o.shown
  description := some (if o.isDirectory then "directory" else "file").toList

end FileOffer

/-- The best offers of the entries of a directory. -/
def fileCandidates (part typed : Text) (limit : Nat) (entries : List (FileName × Node)) :
    List Candidate :=
  let offers := entries.filterMap fun (name, node) =>
    FileOffer.ofEntry? part typed name.shown node.isDirectory
  ((offers.mergeSort FileOffer.le).take limit).map FileOffer.candidate

/-- The files that complete the typed path. A directory that does not exist has none; one that
cannot be read for another reason is a failure. -/
def completeFiles (d : Disk) (home : Text) (limit : Nat) (s : Snapshot) :
    Except Failure (List Candidate) :=
  let (part, typed) := Text.splitAfterLast '/' s.trigger.typed
  let directory := typedDirectory home s.directory part
  match d.list directory with
  | .ok entries => .ok (fileCandidates part typed limit entries)
  | .error .notFound | .error .notDirectory => .ok []
  | .error e =>
    let reason := directory ++ ": ".toList ++ e.message.toList
    .error (.source (.unavailable "file".toList reason))

end Typeahead
