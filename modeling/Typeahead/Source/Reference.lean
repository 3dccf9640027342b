import Typeahead.Disk.Access
import Typeahead.Source.Basic

/-!
Branches and tags of a git repository, read from its directory.
-/
namespace Typeahead

/-- The kind of a named reference. The order is that of precedence among loose references. -/
inductive ReferenceKind where
  | branch
  | tag
  | remote
  deriving DecidableEq, Repr

namespace ReferenceKind

def all : List ReferenceKind := [branch, tag, remote]

/-- The directory below `refs` that holds references of the kind. -/
def directory : ReferenceKind → String
  | branch => "heads"
  | tag => "tags"
  | remote => "remotes"

/-- The kind of the references in a directory below `refs`. -/
def ofDirectory? (d : Text) : Option ReferenceKind := all.find? (·.directory.toList = d)

/-- The words shown beside a reference. -/
def name : ReferenceKind → String
  | branch => "branch"
  | tag => "tag"
  | remote => "remote branch"

/-- What the kind adds to the score of a reference. -/
def bonus : ReferenceKind → Nat
  | branch => 2
  | tag => 1
  | remote => 0

end ReferenceKind

/-- A named reference. -/
structure Reference where
  name : Text
  kind : ReferenceKind
  deriving DecidableEq, Repr

namespace Reference

/-- Adds a reference to a list in name order; a name that is there already stays as it is. -/
def insert (r : Reference) : List Reference → List Reference
  | [] => [r]
  | x :: xs =>
    if r.name = x.name then x :: xs
    else if Text.le r.name x.name then r :: x :: xs
    else x :: insert r xs

/-- The names after an addition are those before it and the new one. -/
theorem mem_names_insert {r : Reference} {name : Text} {refs : List Reference} :
    name ∈ (r.insert refs).map Reference.name ↔ name = r.name ∨ name ∈ refs.map Reference.name := by
  induction refs with
  | nil => simp [insert]
  | cons x xs ih =>
    simp only [insert]
    split
    · rename_i h
      simp [h]
    · split
      · simp
      · simp only [List.map_cons, List.mem_cons, ih]
        constructor <;> rintro (h | h | h) <;> simp [h]

/-- References in name order stay so. -/
theorem insert_pairwise_le {r : Reference} {refs : List Reference}
    (h : refs.Pairwise fun a b => Text.le a.name b.name = true) :
    (r.insert refs).Pairwise fun a b => Text.le a.name b.name = true := by
  induction refs with
  | nil => simp [insert]
  | cons x xs ih =>
    have hp := List.pairwise_cons.1 h
    simp only [insert]
    split
    · exact h
    · split
      · rename_i hle
        refine List.pairwise_cons.2 ⟨fun y hy => ?_, h⟩
        rcases List.mem_cons.1 hy with rfl | hy
        · exact hle
        · exact Text.le_trans hle (hp.1 y hy)
      · rename_i hle
        refine List.pairwise_cons.2 ⟨fun y hy => ?_, ih hp.2⟩
        have hname := mem_names_insert.1 (List.mem_map_of_mem (f := Reference.name) hy)
        rcases hname with he | hm
        · have total := Text.le_total r.name x.name
          rw [he]
          simpa [hle] using total
        · obtain ⟨z, hz, hzy⟩ := List.mem_map.1 hm
          rw [← hzy]
          exact hp.1 z hz

/-! ## Finding the repository -/

/-- The target that the text of a file in place of a repository directory names. -/
def repositoryTarget? (content : Text) : Option Text :=
  (Text.strip? "gitdir:".toList (Text.trim content)).map Text.trim

/-- Looks for the repository directory in the given directories, the first one that has it. A file
in its place names the directory; one that cannot be read or names none ends the search. -/
def findRepository? (d : Disk) : List Text → Option Text
  | [] => none
  | directory :: above =>
    let path := Path.join directory ".git".toList
    match d.find path with
    | .error _ => findRepository? d above
    | .ok ⟨_, .directory _⟩ => some path
    | .ok _ =>
      match d.readText path with
      | .ok content => (repositoryTarget? content).map (Path.join directory)
      | .error _ => none

/-! ## Reading references -/

/-- The name of the reference in a file, by the steps that lead to it. Symbolic references to a
head are none. -/
def ofLeaf? (kind : ReferenceKind) (steps : List FileName) : Option Reference :=
  let path := Text.joinWith ['/'] (steps.map FileName.shown)
  let name := path.map fun c => if c = '\\' then '/' else c
  if "HEAD".toList.isSuffixOf name then none else some ⟨name, kind⟩

/-- The loose references of a kind in a repository. -/
def loose (d : Disk) (repository : Text) (kind : ReferenceKind) :
    Except Failure (List Reference) :=
  let path := Path.join (Path.join repository "refs".toList) kind.directory.toList
  match d.find path with
  | .ok ⟨_, .directory entries⟩ =>
    .ok (entries.leaves.filterMap fun (steps, _) => ofLeaf? kind steps)
  | .ok _ => .error (.ofDisk .notDirectory)
  | .error .notFound => .ok []
  | .error e => .error (.ofDisk e)

/-- The reference on a line of packed references: a hash, a blank and the full name. -/
def ofPackedLine? (line : Text) : Option Reference := do
  if line.head? = some '#' || line.head? = some '^' then none
  else
    let (_, fullName) ← Text.splitOnce ' ' line
    let rest ← Text.strip? "refs/".toList (Text.trim fullName)
    let (directory, name) ← Text.splitOnce '/' rest
    let kind ← ReferenceKind.ofDirectory? directory
    some ⟨name, kind⟩

/-- The packed references of a repository. -/
def packed (d : Disk) (repository : Text) : Except Failure (List Reference) :=
  match d.readText (Path.join repository "packed-refs".toList) with
  | .ok content => .ok ((Text.lines content).filterMap ofPackedLine?)
  | .error .notFound => .ok []
  | .error e => .error (.ofDisk e)

/-- The references of a repository, in name order. Of one name the first is kept: a loose branch,
tag or remote branch, in this order, and then the packed ones. -/
def ofRepository (d : Disk) (repository : Text) : Except Failure (List Reference) := do
  let branches ← loose d repository .branch
  let tags ← loose d repository .tag
  let remotes ← loose d repository .remote
  let packed ← packed d repository
  .ok ((branches ++ tags ++ remotes ++ packed).foldl (fun refs r => insert r refs) [])

/-- The references of the repository that a directory lies in; none outside of one. -/
def list (d : Disk) (directory : Text) : Except Failure (List Reference) :=
  match findRepository? d (Path.ancestors directory) with
  | some repository => ofRepository d repository
  | none => .ok []

/-! ## Candidates -/

/-- The candidate for a reference, if it matches what was typed. -/
def candidate? (typed : Text) (r : Reference) : Option Candidate :=
  let score := matchScore r.name typed
  if 0 < score then
    some
      { value := r.name
        group := .gitRef
        score := Float.ofNat (score + r.kind.bonus)
        source := "git_ref".toList
        description := some r.kind.name.toList }
  else none

/-- The candidates among references. -/
def candidates (refs : List Reference) (typed : Text) : List Candidate :=
  refs.filterMap (candidate? typed)

/-- The subcommands that take references. -/
def subcommands : List String :=
  ["checkout", "switch", "merge", "rebase", "branch", "diff", "log", "reset", "cherry-pick"]

/-- Whether the words before the trigger begin a command that takes references. -/
def isWanted (s : Snapshot) : Bool :=
  match s.trigger.position with
  | none => false
  | some position =>
    match (s.tokens.filter fun t => !t.isBlank && t.stop ≤ position).map Token.value with
    | program :: subcommand :: _ =>
      program = "git".toList && (subcommands.map String.toList).contains subcommand
    | _ => false

end Reference

end Typeahead
