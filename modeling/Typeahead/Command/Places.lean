import Typeahead.Command.Run

/-!
The parts of the directory tree that a run looks at, so that these alone have to be read before it.
-/
namespace Typeahead.Command

/-- A part of the directory tree. -/
inductive Place where
  /-- One file with what it holds, or the fact that there is a directory in its place. -/
  | file (path : Text)
  /-- The entries of a directory. -/
  | listing (path : Text)
  /-- The entries of a directory, with what links among them lead to. -/
  | programs (path : Text)
  /-- A directory with all that is in it. -/
  | tree (path : Text)
  deriving DecidableEq, Repr

/-- The path of a place. -/
def Place.path : Place → Text
  | file p | listing p | programs p | tree p => p

/-- The places around a repository. -/
def repositoryPlaces (d : Disk) (directory : Text) : List Place :=
  let above := Path.ancestors directory
  above.map (fun a => .file (Path.join a ".git".toList)) ++
    match Reference.findRepository? d above with
    | some repository =>
      [ .tree (Path.join repository "refs".toList),
        .file (Path.join repository "packed-refs".toList) ]
    | none => []

/-- The places that the sources look at for a snapshot. -/
def snapshotPlaces (h : Host) (s : Snapshot) : List Place :=
  match s.trigger.kind with
  | .command => (Text.splitOn ':' h.searchPath).map .programs
  | .entity =>
    .listing (typedDirectory h.home s.directory (Text.splitAfterLast '/' s.trigger.typed).1) ::
      (if Reference.isWanted s then repositoryPlaces h.disk s.directory else [])
  | .none | .slashCommand => []

/-- The places that a run looks at, as far as the known part of the tree tells. When they have
become known, more of them may be told. -/
def places (h : Host) (args : Arguments) : List Place :=
  let settingsFile := args.configFile.getD (Settings.defaultPath h.home)
  .file settingsFile ::
    match h.settings args, args.request with
    | .ok (settings, _), some (.complete line cursor mode _ _ _) =>
      let s := Snapshot.ofLine line (cursor.getD line.length)
        (mode.getD settings.completion.defaultMode) (args.directory.getD h.directory)
      .file settings.history.file :: snapshotPlaces h s
    | _, _ => []

end Typeahead.Command
