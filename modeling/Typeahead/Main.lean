import Typeahead.Command.Places
import Typeahead.Command.Usage

/-!
The program itself: it reads the arguments and the environment, loads the parts of the directory
tree that the run looks at, and writes what the run says.
-/
open Typeahead Command

/-- What a file holds. -/
def loadContent (path : String) : IO Content := do
  let bytes ← IO.FS.readBinFile path
  return match Text.ofUtf8? bytes.toList with
    | some t => .text t
    | none => .binary

/-- The entry of a directory without what it holds. A file counts as one that may be run. -/
def loadEntry (path : String) (followed : Bool) : IO Node := do
  let file := (← IO.currentDir) / path
  let info ← if followed then file.metadata else file.symlinkMetadata
  return match info.type with
    | .dir => .emptyDirectory
    | .symlink => .link []
    | .file | .other => .file (.text []) 0o755

/-- The entries of a directory, and to some depth those of the directories in it. -/
def loadEntries (path : String) (followed : Bool) : (depth : Nat) → IO Node
  | 0 => return .emptyDirectory
  | depth + 1 => do
    let file := (← IO.currentDir) / path
    let mut entries : Typeahead.Entries := .nil
    for entry in ← file.readDir do
      let inside := entry.path.toString
      let node ← try loadEntry inside followed catch _ => pure (.link [])
      let node ←
        if node.isDirectory then
          try loadEntries inside followed depth catch _ => pure node
        else pure node
      entries := entries.set (.text entry.fileName.toList) node
    return .directory entries

/-- How deep a tree is loaded. -/
def treeDepth : Nat := 64

/-- The node at a place. -/
def loadPlace (p : Place) : IO Node := do
  let path := String.ofList p.path
  match p with
  | .file _ =>
    match ← loadEntry path true with
    | .file _ mode => return .file (← loadContent path) mode
    | node => return node
  | .listing _ => loadEntries path false 1
  | .programs _ => loadEntries path true 1
  | .tree _ => loadEntries path false treeDepth

/-- The names that lead to a path, which is taken as it is written. -/
def namesOf (directory path : Text) : List FileName :=
  (Path.steps (Path.join directory path)).foldl (fun names step =>
    match step with
    | .here => names
    | .up => names.dropLast
    | .child name => names ++ [name]) []

/-- Puts a node into a tree, and makes the directories above it that are missing. -/
def putNode (root : Node) (names : List FileName) (node : Node) : Node :=
  let above := (List.range names.length).map fun n => names.take n
  let root := above.foldl (fun root place =>
    if (root.get? place).isSome then root else root.put .emptyDirectory place) root
  root.put node names

/-- Loads the places of a run, again and again while more of them become known. -/
def loadPlaces (args : Arguments) : (rounds : Nat) → Host → List Place → IO Host
  | 0, h, _ => return h
  | rounds + 1, h, known => do
    let wanted := (places h args).filter fun p => !known.contains p
    if wanted.isEmpty then return h
    let mut disk := h.disk
    for p in wanted do
      match ← (loadPlace p).toBaseIO with
      | .ok node =>
        disk := { disk with root := putNode disk.root (namesOf h.directory p.path) node }
      | .error _ => pure ()
    loadPlaces args rounds { h with disk } (known ++ wanted)

/-- The text of an environment variable. -/
def environmentText? (name : String) : IO (Option Text) :=
  return (← IO.getEnv name).map String.toList

/-- The surroundings of the process, the directory tree aside. -/
def hostOfProcess : IO Host := do
  let directory := (← IO.currentDir).toString.toList
  let names := namesOf [] directory
  let now ← IO.monoNanosNow
  return {
    disk := ⟨putNode .emptyDirectory names .emptyDirectory, names⟩
    home := (← environmentText? "HOME").getD ['.']
    directory := directory
    searchPath := (← environmentText? "PATH").getD []
    environment :=
      { maxResults := ← environmentText? "PROMPTLINE_MAX_RESULTS"
        mode := ← environmentText? "PROMPTLINE_MODE"
        menuMaxVisible := ← environmentText? "PROMPTLINE_MENU_MAX_VISIBLE"
        historyFile := ← environmentText? "PROMPTLINE_HISTORY_FILE"
        noColor := (← environmentText? "PROMPTLINE_NO_COLOR").isSome }
    now := now }

/-- Writes lines. -/
def printLines (lines : List Text) : IO Unit :=
  lines.forM fun line => IO.println (String.ofList line)

def main (arguments : List String) : IO UInt32 := do
  match readArguments (arguments.map String.toList) with
  | .error .helpWanted =>
    printLines usage
    return 0
  | .error .versionWanted =>
    IO.println ("promptline " ++ version)
    return 0
  | .error e =>
    IO.eprintln ("error: " ++ e.message)
    return 2
  | .ok args =>
    let h ← loadPlaces args 4 (← hostOfProcess) []
    let result := run h args
    IO.eprint (String.ofList result.output.err)
    IO.print (String.ofList result.output.out)
    match result.handled with
    | .ok true => return 0
    | .ok false =>
      printLines usage
      return 0
    | .error e =>
      IO.eprintln ("Error: " ++ String.ofList e.message)
      return 1
