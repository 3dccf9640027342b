import Typeahead.Proofs.Disk.Lookup
import Typeahead.Proofs.Source.Collecting
import Typeahead.Proofs.Source.Offers

/-!
Programs offered for the command word: those that are built in, those that are recommended, and those that
are found on the search path, each once and in the first of these groups that it belongs to. The order of
the search path and of its directories does not matter.
-/
namespace Typeahead

/-! ## The search path -/

/-- Sorted texts of which repeats were dropped stand in ascending order. -/
theorem ascending_dropRepeats {l : List Text} (h : l.Pairwise fun a b => Text.le a b = true) :
    AscendingBy id (dropRepeats l) := by
  fun_induction dropRepeats l with
  | case1 a rest ih => exact ih (List.pairwise_cons.1 h).2
  | case2 a b rest hne ih =>
    obtain ⟨hle, hrest⟩ := List.pairwise_cons.1 h
    obtain ⟨hb, _⟩ := List.pairwise_cons.1 hrest
    refine List.pairwise_cons.2 ⟨fun c hc => ?_, ih hrest⟩
    rw [mem_dropRepeats] at hc
    refine ⟨hle c hc, ?_⟩
    rintro rfl
    -- A text that stands before and behind another one is that one.
    rcases List.mem_cons.1 hc with hsame | hmem
    · exact hne hsame
    · exact hne (Text.le_antisymm (hle b List.mem_cons_self) (hb _ hmem))
  | case3 short hshort =>
    obtain _ | ⟨a, _ | ⟨b, rest⟩⟩ := short
    · exact List.Pairwise.nil
    · exact List.pairwise_singleton _ a
    · exact absurd rfl (hshort a b rest)

namespace Disk

variable {d d' : Disk} {searchPath searchPath' name : Text}

/-- The name stands in a directory of the search path that can be read, and it leads there, perhaps over
links, to a file that may be run. -/
def OnSearchPath (d : Disk) (searchPath name : Text) : Prop :=
  ∃ directory ∈ Text.splitOn ':' searchPath,
    (∃ entries, d.list directory = .ok entries ∧ .text name ∈ entries.map Prod.fst) ∧
      ∃ place content mode, d.find (Path.join directory name) = .ok ⟨place, .file content mode⟩ ∧
        mode &&& 0o111 ≠ 0

theorem isProgram_iff {p : Text} :
    d.isProgram p = true ↔
      ∃ place content mode, d.find p = .ok ⟨place, .file content mode⟩ ∧ mode &&& 0o111 ≠ 0 := by
  unfold isProgram
  constructor
  · intro h
    split at h
    · rename_i place content mode hfind
      exact ⟨place, content, mode, hfind, of_decide_eq_true h⟩
    · cases h
  · rintro ⟨place, content, mode, hfind, hmode⟩
    rw [hfind]
    exact decide_eq_true hmode

theorem mem_programsIn {directory : Text} :
    name ∈ d.programsIn directory ↔
      (∃ entries, d.list directory = .ok entries ∧ .text name ∈ entries.map Prod.fst) ∧
        d.isProgram (Path.join directory name) = true := by
  have htext : ∀ {file : FileName}, file.text? = some name ↔ file = .text name := by
    intro file
    cases file <;> simp [FileName.text?]
  unfold programsIn
  cases d.list directory with
  | error e => simp
  | ok entries => simp [htext]

theorem onSearchPath_iff :
    d.OnSearchPath searchPath name ↔
      name ∈ (Text.splitOn ':' searchPath).flatMap d.programsIn := by
  unfold OnSearchPath
  rw [List.mem_flatMap]
  simp only [mem_programsIn, isProgram_iff]

theorem mem_programsOn : name ∈ d.programsOn searchPath ↔ d.OnSearchPath searchPath name := by
  unfold programsOn
  rw [mem_dropRepeats, List.mem_mergeSort, onSearchPath_iff]

theorem ascending_programsOn (d : Disk) (searchPath : Text) :
    AscendingBy id (d.programsOn searchPath) := by
  have hsorted : ∀ l : List Text, (l.mergeSort Text.le).Pairwise fun a b => Text.le a b = true :=
    List.pairwise_mergeSort (fun _ _ _ => Text.le_trans) Text.le_total
  exact ascending_dropRepeats (hsorted _)

theorem OnSearchPath.relisted (h : d.OnSearchPath searchPath name) (hdisk : d.Relisted d')
    (hpath : ∀ directory ∈ Text.splitOn ':' searchPath, directory ∈ Text.splitOn ':' searchPath') :
    d'.OnSearchPath searchPath' name := by
  obtain ⟨directory, hdirectory, hlist, place, content, mode, hfound, hmode⟩ := h
  refine ⟨directory, hpath directory hdirectory, hdisk.exists_list hlist, place, content, mode, ?_, hmode⟩
  have hfind := hdisk.find (Path.join directory name) true
  rw [hfound] at hfind
  generalize d'.find (Path.join directory name) = r at hfind ⊢
  cases hfind with
  | found h => rw [h.eq_of_not_directory rfl]

/-- Neither the order of the search path and of its directories nor their repetition counts. -/
theorem programsOn_congr (hdisk : d.Relisted d')
    (hpath : ∀ directory, directory ∈ Text.splitOn ':' searchPath' ↔
      directory ∈ Text.splitOn ':' searchPath) :
    d'.programsOn searchPath' = d.programsOn searchPath := by
  apply (ascending_programsOn d' searchPath').eq_of_mem_iff (ascending_programsOn d searchPath)
  intro name
  rw [mem_programsOn, mem_programsOn]
  exact ⟨fun h => h.relisted hdisk.symm fun directory => (hpath directory).1,
    fun h => h.relisted hdisk fun directory => (hpath directory).2⟩

end Disk

/-! ## The three groups -/

/-- The group of a program: that of the first list in which it stands. Programs of the search path are
offered only when something was typed. -/
inductive ListedAs (d : Disk) (searchPath typed name : Text) : Group → Prop
  | builtin (h : name ∈ builtinPrograms) : ListedAs d searchPath typed name .builtin
  | recommended (hnot : name ∉ builtinPrograms) (h : name ∈ recommendedPrograms.map Prod.fst) :
      ListedAs d searchPath typed name .recommendedCommand
  | found (hnot : name ∉ builtinPrograms) (hnot' : name ∉ recommendedPrograms.map Prod.fst)
      (htyped : typed ≠ []) (h : d.OnSearchPath searchPath name) :
      ListedAs d searchPath typed name .otherCommand

/-- What the search path adds to the programs that are known. -/
def addedPrograms (d : Disk) (searchPath typed : Text) : List Text :=
  if typed = [] then [] else (d.programsOn searchPath).filter fun name => !isKnownProgram name

section Groups

variable {d : Disk} {searchPath typed name : Text} {group : Group}

theorem isKnownProgram_iff :
    isKnownProgram name = true ↔ name ∈ builtinPrograms ∨ name ∈ recommendedPrograms.map Prod.fst := by
  unfold isKnownProgram programCategory?
  simp [List.find?_isSome]

/-- No program that is built in is recommended as well, and none stands twice. -/
theorem nodup_knownPrograms : (builtinPrograms ++ recommendedPrograms.map Prod.fst).Nodup := by
  decide +kernel

theorem ascending_addedPrograms (d : Disk) (searchPath typed : Text) :
    AscendingBy id (addedPrograms d searchPath typed) := by
  unfold addedPrograms
  split
  · exact List.Pairwise.nil
  · exact (Disk.ascending_programsOn d searchPath).sublist List.filter_sublist

theorem mem_addedPrograms :
    name ∈ addedPrograms d searchPath typed ↔ ListedAs d searchPath typed name .otherCommand := by
  unfold addedPrograms
  constructor
  · intro h
    split at h
    · cases h
    · rename_i htyped
      obtain ⟨hmem, hnot⟩ := List.mem_filter.1 h
      rw [Bool.not_eq_true', Bool.eq_false_iff, Ne, isKnownProgram_iff, not_or] at hnot
      exact .found hnot.1 hnot.2 htyped (Disk.mem_programsOn.1 hmem)
  · rintro (_ | _ | ⟨hnot, hnot', htyped, h⟩)
    have hknown : ¬ isKnownProgram name = true := fun h => (isKnownProgram_iff.1 h).elim hnot hnot'
    rw [if_neg htyped, List.mem_filter, Disk.mem_programsOn]
    exact ⟨h, by simpa using hknown⟩

theorem nodup_offeredPrograms (d : Disk) (searchPath typed : Text) :
    (builtinPrograms ++ recommendedPrograms.map Prod.fst ++ addedPrograms d searchPath typed).Nodup := by
  refine List.nodup_append.2
    ⟨nodup_knownPrograms, (ascending_addedPrograms d searchPath typed).nodup, ?_⟩
  rintro name hknown _ hadded rfl
  cases mem_addedPrograms.1 hadded with
  | found hnot hnot' => exact (List.mem_append.1 hknown).elim hnot hnot'

/-- The lists of the groups. -/
theorem listedAs_iff :
    ListedAs d searchPath typed name group ↔
      (group = .builtin ∧ name ∈ builtinPrograms) ∨
      (group = .recommendedCommand ∧ name ∈ recommendedPrograms.map Prod.fst) ∨
      (group = .otherCommand ∧ name ∈ addedPrograms d searchPath typed) := by
  constructor
  · intro h
    cases h with
    | builtin h => exact Or.inl ⟨rfl, h⟩
    | recommended _ h => exact Or.inr (Or.inl ⟨rfl, h⟩)
    | found hnot hnot' htyped h =>
      exact Or.inr (Or.inr ⟨rfl, mem_addedPrograms.2 (.found hnot hnot' htyped h)⟩)
  · rintro (⟨rfl, h⟩ | ⟨rfl, h⟩ | ⟨rfl, h⟩)
    · exact .builtin h
    · refine .recommended (fun hbuiltin => ?_) h
      exact (List.nodup_append.1 nodup_knownPrograms).2.2 name hbuiltin name h rfl
    · exact mem_addedPrograms.1 h

end Groups

/-! ## Candidates -/

section Candidates

variable {group : Group} {typed : Text} {programs : List (Text × Option Text)}

theorem values_programCandidates (group : Group) (typed : Text)
    (programs : List (Text × Option Text)) :
    (programCandidates group typed programs).map Candidate.value =
      (programs.map Prod.fst).filter fun name => 0 < matchScore name typed := by
  induction programs with
  | nil => rfl
  | cons program rest ih =>
    unfold programCandidates at *
    rw [List.map_cons, List.filter_cons, ← ih, List.filterMap_cons]
    by_cases h : 0 < matchScore program.1 typed
    · simp only [h, if_true, decide_true]
      rfl
    · simp only [h, if_false, decide_false, Bool.false_eq_true]

theorem exists_mem_programCandidates {name : Text} {g : Group} :
    (∃ c ∈ programCandidates group typed programs, c.value = name ∧ c.group = g) ↔
      g = group ∧ 0 < matchScore name typed ∧ name ∈ programs.map Prod.fst := by
  have hvalues := values_programCandidates group typed programs
  constructor
  · rintro ⟨c, hc, rfl, rfl⟩
    have hvalue := List.mem_map_of_mem (f := Candidate.value) hc
    rw [hvalues, List.mem_filter] at hvalue
    exact ⟨(Source.offers_programCandidates hc).2.1, of_decide_eq_true hvalue.2, hvalue.1⟩
  · rintro ⟨rfl, hscore, hname⟩
    have hvalue : name ∈ (programCandidates g typed programs).map Candidate.value := by
      rw [hvalues]
      exact List.mem_filter.2 ⟨hname, decide_eq_true hscore⟩
    obtain ⟨c, hc, rfl⟩ := List.mem_map.1 hvalue
    exact ⟨c, hc, rfl, (Source.offers_programCandidates hc).2.1⟩

theorem filter_programCandidates (group g : Group) (typed : Text)
    (programs : List (Text × Option Text)) :
    (programCandidates group typed programs).filter (·.group = g) =
      if group = g then programCandidates group typed programs else [] := by
  split
  · rename_i hsame
    rw [List.filter_eq_self]
    intro c hc
    exact decide_eq_true ((Source.offers_programCandidates hc).2.1.trans hsame)
  · rename_i hne
    rw [List.filter_eq_nil_iff]
    intro c hc
    rw [decide_eq_true_iff, (Source.offers_programCandidates hc).2.1]
    exact hne

/-- The candidates of the three groups in turn. -/
def offeredPrograms (d : Disk) (searchPath typed : Text) : List Candidate :=
  knownPrograms typed ++
    programCandidates .otherCommand typed
      ((addedPrograms d searchPath typed).map fun program => (program, none))

/-- A source that has not scanned yet offers the programs of the search path as they are now. -/
theorem Source.answer_commands {ε : Type} {w : World ε} (hscan : w.programs.scan = none)
    (s : Snapshot) :
    (Source.commands.answer s w).1 =
      .candidates (offeredPrograms w.disk w.searchPath s.trigger.typed) := by
  have hget : w.programs.get? w.searchPath w.now = none := by
    unfold ProgramCache.get?
    rw [hscan]
  unfold Source.commands offeredPrograms addedPrograms
  dsimp only
  by_cases htyped : s.trigger.typed = []
  · rw [htyped]
    simp [programCandidates]
  · rw [w.programs.fetch_of_none hget]
    simp [htyped, commandCandidates]

variable {d : Disk} {searchPath : Text}

theorem values_offeredPrograms (d : Disk) (searchPath typed : Text) :
    (offeredPrograms d searchPath typed).map Candidate.value =
      (builtinPrograms ++ recommendedPrograms.map Prod.fst ++ addedPrograms d searchPath typed).filter
        fun name => 0 < matchScore name typed := by
  unfold offeredPrograms knownPrograms
  simp [values_programCandidates, Function.comp_def]

theorem exists_mem_offeredPrograms {name : Text} {group : Group} :
    (∃ c ∈ offeredPrograms d searchPath typed, c.value = name ∧ c.group = group) ↔
      0 < matchScore name typed ∧ ListedAs d searchPath typed name group := by
  unfold offeredPrograms knownPrograms
  rw [listedAs_iff]
  simp only [List.mem_append, or_and_right, exists_or, exists_mem_programCandidates]
  simp only [List.map_map, Function.comp_def, List.map_id']
  tauto

theorem ascending_offeredPrograms (d : Disk) (searchPath typed : Text) :
    AscendingBy Candidate.value
      ((offeredPrograms d searchPath typed).filter (·.group = .otherCommand)) := by
  have hvalues : AscendingBy id ((programCandidates .otherCommand typed
      ((addedPrograms d searchPath typed).map fun program => (program, none))).map
        Candidate.value) := by
    have hnames : Prod.fst ∘ (fun program : Text => (program, (none : Option Text))) = id := rfl
    rw [values_programCandidates, List.map_map, hnames, List.map_id]
    exact (ascending_addedPrograms d searchPath typed).filter _
  unfold offeredPrograms knownPrograms
  rw [List.filter_append, List.filter_append, filter_programCandidates, filter_programCandidates,
    filter_programCandidates]
  exact List.pairwise_map.1 hvalues

end Candidates

/-- A source that has not scanned the search path yet offers each program once: every one that matches what
was typed and is built in, recommended, or on the search path, in the first of these groups that it belongs
to, those of the search path in ascending order. Neither the order of the search path and of its
directories nor their repetition makes a difference. -/
theorem every_program_that_matches_is_offered_once {ε : Type} {w : World ε}
    (hscan : w.programs.scan = none) (s : Snapshot) :
    ∃ cs, (Source.commands.answer s w).1 = .candidates cs ∧
      (cs.map Candidate.value).Nodup ∧
      (∀ name group, (∃ c ∈ cs, c.value = name ∧ c.group = group) ↔
        0 < matchScore name s.trigger.typed ∧
          ListedAs w.disk w.searchPath s.trigger.typed name group) ∧
      AscendingBy Candidate.value (cs.filter (·.group = .otherCommand)) ∧
      ∀ w' : World ε, w'.programs.scan = none → w.disk.Relisted w'.disk →
        (∀ directory, directory ∈ Text.splitOn ':' w'.searchPath ↔
          directory ∈ Text.splitOn ':' w.searchPath) →
        (Source.commands.answer s w').1 = .candidates cs := by
  refine ⟨offeredPrograms w.disk w.searchPath s.trigger.typed, Source.answer_commands hscan s, ?_,
    fun name group => exists_mem_offeredPrograms, ascending_offeredPrograms _ _ _, ?_⟩
  · rw [values_offeredPrograms]
    exact (nodup_offeredPrograms _ _ _).filter _
  · intro w' hscan' hdisk hpath
    rw [Source.answer_commands hscan' s]
    unfold offeredPrograms addedPrograms
    rw [Disk.programsOn_congr hdisk hpath]

/-- A barn with a program, a link to one in the cellar, a file that is none, a name that is no text, and two
names that are known without it. -/
def barn : List (FileName × Node) :=
  let program : Node := .file .binary 0o755
  [(.text "ladder".toList, program), (.text "lamp".toList, .link "../cellar/lantern".toList),
    (.text "list".toList, .file (.text []) 0o644), (.bytes [0x6C, 0xFF], program),
    (.text "ls".toList, program), (.text "exec".toList, program)]

/-- A farm with a barn of the given entries, and a cellar. -/
def farm (entries : List (FileName × Node)) : Disk where
  current := []
  root := .directory (.ofList
    [(.text "barn".toList, .directory (.ofList entries)),
      (.text "cellar".toList, .directory (.ofList
        [(.text "lantern".toList, .file .binary 0o700)]))])

/-- A world in which nothing was scanned yet. -/
def homestead (entries : List (FileName × Node)) (searchPath : Text) : World Unit :=
  { disk := farm entries, home := [], searchPath, now := 0, programs := { lifetime := 60 }, more := () }

/-- For an `l` the lamp of the barn is offered, and `ls` as a program that is recommended; the list is not.
The answer is the same with the cellar first and last, the barn twice, and the barn listed backwards. -/
theorem the_lamp_is_offered_and_the_list_is_not :
    let s := Snapshot.ofLine "l".toList 1 .shell ['/']
    let w := homestead barn "/barn:/attic:/cellar".toList
    let w' := homestead barn.reverse "/cellar:/barn:/attic:/barn:/cellar".toList
    s.trigger.typed = "l".toList ∧ w.programs.scan = none ∧
      ∃ cs, (Source.commands.answer s w).1 = .candidates cs ∧
        (cs.map Candidate.value).Nodup ∧
        (∃ c ∈ cs, c.value = "lamp".toList ∧ c.group = .otherCommand) ∧
        (∃ c ∈ cs, c.value = "ls".toList ∧ c.group = .recommendedCommand) ∧
        (∀ c ∈ cs, c.value ≠ "list".toList) ∧
        (Source.commands.answer s w').1 = .candidates cs := by
  intro s w w'
  have htyped : s.trigger.typed = "l".toList := by decide
  obtain ⟨cs, hcs, hnodup, hoffered, _, hsame⟩ :=
    every_program_that_matches_is_offered_once (w := w) rfl s
  rw [htyped] at hoffered
  refine ⟨htyped, rfl, cs, hcs, hnodup, ?_, ?_, ?_, ?_⟩
  · refine (hoffered _ _).2 ⟨by decide +kernel, ?_⟩
    have hlamp : w.disk.OnSearchPath w.searchPath "lamp".toList :=
      Disk.onSearchPath_iff.2 (by decide +kernel)
    exact .found (by decide +kernel) (by decide +kernel) (by decide) hlamp
  · refine (hoffered _ _).2 ⟨by decide +kernel, ?_⟩
    exact .recommended (by decide +kernel) (by decide +kernel)
  · intro c hc hvalue
    obtain ⟨_, hlisted⟩ := (hoffered "list".toList c.group).1 ⟨c, hc, hvalue, rfl⟩
    generalize c.group = group at hlisted
    cases hlisted with
    | builtin h => exact absurd h (by decide +kernel)
    | recommended _ h => exact absurd h (by decide +kernel)
    | found _ _ _ h => exact absurd (Disk.onSearchPath_iff.1 h) (by decide +kernel)
  · have hdisk : w.disk.Relisted w'.disk :=
      ⟨.inside [] _ (.order (by decide) (List.reverse_perm barn).symm) _, rfl⟩
    have hthere : ∀ directory ∈ Text.splitOn ':' w'.searchPath,
        directory ∈ Text.splitOn ':' w.searchPath := by decide +kernel
    have hback : ∀ directory ∈ Text.splitOn ':' w.searchPath,
        directory ∈ Text.splitOn ':' w'.searchPath := by decide +kernel
    exact hsame w' rfl hdisk fun directory => ⟨hthere directory, hback directory⟩

end Typeahead
