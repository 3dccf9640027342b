import Typeahead.Disk.Access
import Typeahead.History.Basic
import Typeahead.Source.Basic

/-!
Programs: those that a shell has built in, those that are often used, and those found on the search
path, of which a cache is kept.
-/
namespace Typeahead

/-! ## Known programs -/

/-- Commands that a shell has built in. -/
def builtinPrograms : List Text :=
  [ "alias", "bg", "cd", "dirs", "echo", "eval", "exec", "exit", "export", "fg", "jobs", "popd",
    "pushd", "pwd", "read", "set", "source", "type", "ulimit", "umask", "unalias", "unset",
    "wait" ].map String.toList

/-- What a recommended program is for. -/
inductive ProgramCategory where
  | shell
  | versionControl
  | packageManager
  | runtime
  | container
  | network
  | editor
  deriving DecidableEq, Repr

/-- The category as shown beside a program. -/
def ProgramCategory.name : ProgramCategory → String
  | shell => "shell"
  | versionControl => "version control"
  | packageManager => "package manager"
  | runtime => "runtime"
  | container => "container"
  | network => "network"
  | editor => "editor"

/-- The recommended programs of a category. -/
def ProgramCategory.programs : ProgramCategory → List String
  | shell =>
    [ "ls", "cat", "grep", "find", "cp", "mv", "rm", "mkdir", "touch", "head", "tail", "less",
      "sed", "awk", "chmod" ]
  | versionControl => ["git", "gh", "hg", "svn"]
  | packageManager => ["npm", "pnpm", "yarn", "cargo", "pip", "brew", "apt"]
  | runtime => ["node", "python", "python3", "deno", "bun", "go", "ruby", "java"]
  | container => ["docker", "podman", "kubectl", "helm"]
  | network => ["curl", "wget", "ssh", "scp", "ping"]
  | editor => ["vim", "nvim", "nano", "emacs", "code"]

/-- All categories, in the order in which their programs are listed. -/
def ProgramCategory.all : List ProgramCategory :=
  [shell, versionControl, packageManager, runtime, container, network, editor]

/-- The recommended programs with their categories. -/
def recommendedPrograms : List (Text × ProgramCategory) :=
  ProgramCategory.all.flatMap fun category =>
    category.programs.map fun program => (program.toList, category)

/-- The category of a recommended program. -/
def programCategory? (program : Text) : Option ProgramCategory :=
  (recommendedPrograms.find? (·.1 = program)).map Prod.snd

/-- Keeps one of several equal neighbours. -/
def dropRepeats : List Text → List Text
  | a :: b :: rest => if a = b then dropRepeats (b :: rest) else a :: dropRepeats (b :: rest)
  | short => short

/-- Dropping repeats drops no value. -/
@[simp] theorem mem_dropRepeats {x : Text} {l : List Text} : x ∈ dropRepeats l ↔ x ∈ l := by
  fun_induction dropRepeats l with
  | case1 a rest ih => simp [ih]
  | case2 a b rest h ih => simp [ih]
  | case3 short h => rfl

/-! ## The search path -/

namespace Disk

/-- Whether the path leads to a file that may be run. -/
def isProgram (d : Disk) (p : Text) : Bool :=
  match d.find p with
  | .ok ⟨_, .file _ mode⟩ => mode &&& 0o111 ≠ 0
  | _ => false

/-- The names of the programs in one directory; none if it cannot be read. -/
def programsIn (d : Disk) (directory : Text) : List Text :=
  match d.list directory with
  | .ok entries =>
    (entries.filterMap fun (name, _) => name.text?).filter fun name =>
      d.isProgram (Path.join directory name)
  | .error _ => []

/-- The names of the programs on a search path, in order and each once. -/
def programsOn (d : Disk) (searchPath : Text) : List Text :=
  dropRepeats (((Text.splitOn ':' searchPath).flatMap d.programsIn).mergeSort Text.le)

end Disk

/-! ## The cache -/

/-- The programs found by the last scan, the search path that was scanned, and when. -/
structure ProgramScan where
  programs : List Text
  searchPath : Text
  time : Instant
  deriving DecidableEq, Repr

/-- The last scan, if there was one, and for how long it holds. -/
structure ProgramCache where
  lifetime : Duration
  scan : Option ProgramScan := none
  deriving DecidableEq, Repr

namespace ProgramCache

variable (cache : ProgramCache)

/-- Whether a scan still holds. -/
def holds (s : ProgramScan) (searchPath : Text) (now : Instant) : Bool :=
  s.searchPath = searchPath && now - s.time < cache.lifetime.nanoseconds

/-- The programs known without a scan. -/
def get? (searchPath : Text) (now : Instant) : Option (List Text) :=
  match cache.scan with
  | some s => if cache.holds s searchPath now then some s.programs else none
  | none => none

/-- The programs on a search path: those of the last scan while it holds, or else of a new one. -/
def fetch (d : Disk) (searchPath : Text) (now : Instant) : List Text × ProgramCache :=
  match cache.get? searchPath now with
  | some programs => (programs, cache)
  | none =>
    let programs := d.programsOn searchPath
    (programs, { cache with scan := some ⟨programs, searchPath, now⟩ })

/-- While a scan holds, it is what is fetched, and the cache stays as it is. -/
theorem fetch_of_get? {d : Disk} {searchPath : Text} {now : Instant} {programs : List Text}
    (h : cache.get? searchPath now = some programs) :
    cache.fetch d searchPath now = (programs, cache) := by
  simp [fetch, h]

/-- A scan is made when none holds, and it is kept. -/
theorem fetch_of_none {d : Disk} {searchPath : Text} {now : Instant}
    (h : cache.get? searchPath now = none) :
    cache.fetch d searchPath now =
      (d.programsOn searchPath,
        { cache with scan := some ⟨d.programsOn searchPath, searchPath, now⟩ }) := by
  simp [fetch, h]

end ProgramCache

/-! ## Candidates -/

/-- A program as a candidate. -/
def programCandidate (value : Text) (group : Group) (score : Nat) (description : Option Text) :
    Candidate where
  value := value
  group := group
  score := Float.ofNat score
  source := "command".toList
  description := description

/-- The candidates among the programs of one group that match what was typed. -/
def programCandidates (group : Group) (typed : Text) (programs : List (Text × Option Text)) :
    List Candidate :=
  programs.filterMap fun (program, description) =>
    let score := matchScore program typed
    if 0 < score then some (programCandidate program group score description) else none

/-- The candidates that need no search path. -/
def knownPrograms (typed : Text) : List Candidate :=
  programCandidates .builtin typed
      (builtinPrograms.map fun program => (program, some "shell builtin".toList)) ++
    programCandidates .recommendedCommand typed
      (recommendedPrograms.map fun (program, category) => (program, some category.name.toList))

/-- Whether a program is listed without a look at the search path. -/
def isKnownProgram (program : Text) : Bool :=
  builtinPrograms.any (· = program) || (programCategory? program).isSome

/-- The candidates for the command word: those that are known, and those found on the search
path. -/
def commandCandidates (found : List Text) (typed : Text) : List Candidate :=
  knownPrograms typed ++
    programCandidates .otherCommand typed
      ((found.filter fun program => !isKnownProgram program).map fun program => (program, none))

end Typeahead
