import Typeahead.Proofs.Source.Repository

/-!
Where references are stored: loose, each in a file of its own, or packed, on the lines of one file. Either
way the same references are listed, but for a loose one whose name ends in the letters of a head.
-/
namespace Typeahead

/-- To find out whether all characters of a text have a property, it is enough to look at these. -/
instance (priority := 1100) (t : Text) (p : Char → Prop) [DecidablePred p] :
    Decidable (∀ c ∈ t, p c) :=
  List.decidableBAll p t

theorem ReferenceKind.mem_all (kind : ReferenceKind) : kind ∈ all := by
  cases kind <;> decide

namespace Reference

/-! ## Names -/

/-- A name that a reference can be given: without blanks and backslashes, none of its steps empty, and
the last one not that of a head. -/
structure IsName (name : Text) : Prop where
  unbroken : ∀ c ∈ name, Text.isBlank c = false
  forward : '\\' ∉ name
  solid : [] ∉ Text.splitOn '/' name
  headless : (Text.splitOn '/' name).getLast? ≠ some "HEAD".toList

instance (name : Text) : Decidable (IsName name) :=
  decidable_of_iff
    ((∀ c ∈ name, Text.isBlank c = false) ∧ '\\' ∉ name ∧
      (∀ piece ∈ Text.splitOn '/' name, piece ≠ []) ∧
      (Text.splitOn '/' name).getLast? ≠ some "HEAD".toList)
    ⟨fun ⟨hunbroken, hforward, hsolid, hheadless⟩ =>
        ⟨hunbroken, hforward, fun hnil => hsolid [] hnil rfl, hheadless⟩,
      fun h => ⟨h.unbroken, h.forward, fun _ hpiece hnil => h.solid (hnil ▸ hpiece), h.headless⟩⟩

/-- The names of the directories and of the file that a loose reference is stored under. -/
def stepsOf (name : Text) : List FileName := (Text.splitOn '/' name).map FileName.text

theorem nameOf_stepsOf {name : Text} (h : '\\' ∉ name) : nameOf (stepsOf name) = name := by
  have hshown : FileName.shown ∘ FileName.text = id := rfl
  have hkept : ∀ c ∈ name, (if c = '\\' then '/' else c) = id c := by
    intro c hc
    have hne : c ≠ '\\' := by
      rintro rfl
      exact h hc
    rw [if_neg hne]
    rfl
  unfold nameOf stepsOf
  rw [List.map_map, hshown, List.map_id, Text.joinWith_splitOn, List.map_congr_left hkept,
    List.map_id]

/-- The name of a reference with the directories that all of its kind are in. -/
def fullName (r : Reference) : Text :=
  "refs/".toList ++ r.kind.directory.toList ++ '/' :: r.name

theorem fullName_unbroken {r : Reference} (h : IsName r.name) :
    ∀ c ∈ r.fullName, Text.isBlank c = false := by
  have hfront : ∀ kind : ReferenceKind, ∀ c ∈ "refs/".toList ++ kind.directory.toList ++ ['/'],
      Text.isBlank c = false := by
    intro kind
    cases kind <;> decide
  intro c hc
  have hcut : r.fullName = "refs/".toList ++ r.kind.directory.toList ++ ['/'] ++ r.name :=
    List.append_cons _ _ _
  rw [hcut] at hc
  rcases List.mem_append.1 hc with hc | hc
  · exact hfront r.kind c hc
  · exact h.unbroken c hc

/-! ## Lines of packed references -/

/-- The hash of an object, in hexadecimal digits. -/
structure Hash where
  digits : Text
  hex : ∀ c ∈ digits, (Text.hexValue? c).isSome = true

theorem Hash.not_mem {c : Char} (h : Text.hexValue? c = none) (hash : Hash) : c ∉ hash.digits := by
  intro hc
  have hsome := hash.hex c hc
  rw [h] at hsome
  cases hsome

/-- A line that starts with a hash and a blank starts with no mark. -/
theorem Hash.head?_ne {c : Char} (h : Text.hexValue? c = none) (hblank : c ≠ ' ') (hash : Hash)
    (rest : Text) : (hash.digits ++ ' ' :: rest).head? ≠ some c := by
  have hnot := hash.not_mem h
  cases hdigits : hash.digits with
  | nil => simp [Ne.symm hblank]
  | cons d ds =>
    rw [hdigits] at hnot
    rintro hhead
    cases hhead
    exact hnot List.mem_cons_self

/-- A line of the file of packed references: a reference, a remark, or the object that the tag on the
line before stands for. -/
inductive PackedLine where
  | remark (text : Text)
  | peeled (hash : Hash)
  | entry (hash : Hash) (r : Reference)

namespace PackedLine

/-- The line as it is written. -/
def text : PackedLine → Text
  | remark text => '#' :: text
  | peeled hash => '^' :: hash.digits
  | entry hash r => hash.digits ++ ' ' :: r.fullName

def reference? : PackedLine → Option Reference
  | entry _ r => some r
  | remark _ | peeled _ => none

/-- What was written on a line is read from it. -/
theorem ofPackedLine?_text {line : PackedLine} (h : ∀ r, line.reference? = some r → IsName r.name) :
    ofPackedLine? line.text = line.reference? := by
  cases line with
  | remark text => rfl
  | peeled hash => rfl
  | entry hash r =>
    apply ofPackedLine?_eq_some.2
    refine ⟨hash.head?_ne rfl (by decide) _, hash.head?_ne rfl (by decide) _, hash.digits, r.fullName,
      rfl, hash.not_mem rfl, ?_⟩
    exact Text.trim_eq_self (fullName_unbroken (h r rfl))

end PackedLine

/-! ## Storages -/

/-- The loose references and the lines of packed ones. -/
structure Storage where
  loose : List Reference
  lines : List PackedLine

/-- What is read meets the condition; where there is nothing to read, there is nothing to be stored. -/
def Meets {α : Type} (reading : Except DiskError α) (nothing : Prop) (condition : α → Prop) : Prop :=
  match reading with
  | .ok a => condition a
  | .error e => e = .notFound ∧ nothing

instance {α : Type} {nothing : Prop} {condition : α → Prop} [Decidable nothing]
    [DecidablePred condition] :
    (reading : Except DiskError α) → Decidable (Meets reading nothing condition)
  | .ok a => inferInstanceAs (Decidable (condition a))
  | .error e => inferInstanceAs (Decidable (e = .notFound ∧ nothing))

/-- Below the node stand the files of the references of the kind, and no others. -/
structure HoldsFiles (n : Node) (rs : List Reference) (kind : ReferenceKind) : Prop where
  directory : n.isDirectory = true
  leads_iff : ∀ steps, (∃ leaf, n.Leads steps leaf ∧ leaf.isDirectory = false) ↔
    ∃ r ∈ rs, r.kind = kind ∧ stepsOf r.name = steps

theorem holdsFiles_iff {n : Node} {rs : List Reference} {kind : ReferenceKind} :
    HoldsFiles n rs kind ↔
      n.isDirectory = true ∧
        (∀ file ∈ n.leaves, ∃ r ∈ rs, r.kind = kind ∧ stepsOf r.name = file.1) ∧
        ∀ r ∈ rs, r.kind = kind → ∃ file ∈ n.leaves, file.1 = stepsOf r.name := by
  constructor
  · rintro ⟨hdirectory, h⟩
    refine ⟨hdirectory, ?_, ?_⟩
    · rintro ⟨steps, leaf⟩ hfile
      exact (h steps).1 ⟨leaf, Node.mem_leaves.1 hfile⟩
    · intro r hr hkind
      obtain ⟨leaf, hleaf⟩ := (h (stepsOf r.name)).2 ⟨r, hr, hkind, rfl⟩
      exact ⟨_, Node.mem_leaves.2 hleaf, rfl⟩
  · rintro ⟨hdirectory, honly, hall⟩
    refine ⟨hdirectory, fun steps => ⟨?_, ?_⟩⟩
    · rintro ⟨leaf, hleaf⟩
      exact honly _ (Node.mem_leaves.2 hleaf)
    · rintro ⟨r, hr, hkind, rfl⟩
      obtain ⟨⟨steps, leaf⟩, hfile, rfl⟩ := hall r hr hkind
      exact ⟨leaf, Node.mem_leaves.1 hfile⟩

instance (n : Node) (rs : List Reference) (kind : ReferenceKind) : Decidable (HoldsFiles n rs kind) :=
  decidable_of_iff' _ holdsFiles_iff

namespace Storage

variable (s : Storage)

/-- The packed references. -/
def packed : List Reference := s.lines.filterMap PackedLine.reference?

/-- All references, wherever they are stored. -/
def references : List Reference := s.loose ++ s.packed

/-- The references have proper names, and no two have the same one. -/
structure IsProper : Prop where
  names : ∀ r ∈ s.references, IsName r.name
  unique : ∀ r ∈ s.references, ∀ other ∈ s.references, r.name = other.name → r = other

/-- The repository stores its references in this way. -/
structure IsIn (d : Disk) (repository : Text) : Prop where
  loose : ∀ kind, Meets (d.find (looseDirectory repository kind)) (∀ r ∈ s.loose, r.kind ≠ kind)
    fun found => HoldsFiles found.node s.loose kind
  lines : Meets (d.readText (Path.join repository "packed-refs".toList)) (s.lines = [])
    fun content => Text.lines content = s.lines.map PackedLine.text

instance : Decidable s.IsProper :=
  decidable_of_iff
    ((∀ r ∈ s.references, IsName r.name) ∧
      ∀ r ∈ s.references, ∀ other ∈ s.references, r.name = other.name → r = other)
    ⟨fun ⟨hnames, hunique⟩ => ⟨hnames, hunique⟩, fun h => ⟨h.names, h.unique⟩⟩

instance (d : Disk) (repository : Text) : Decidable (s.IsIn d repository) :=
  decidable_of_iff
    ((∀ kind ∈ ReferenceKind.all, Meets (d.find (looseDirectory repository kind))
        (∀ r ∈ s.loose, r.kind ≠ kind) fun found => HoldsFiles found.node s.loose kind) ∧
      Meets (d.readText (Path.join repository "packed-refs".toList)) (s.lines = [])
        fun content => Text.lines content = s.lines.map PackedLine.text)
    ⟨fun ⟨hloose, hlines⟩ => ⟨fun kind => hloose kind kind.mem_all, hlines⟩,
      fun h => ⟨fun kind _ => h.loose kind, h.lines⟩⟩

variable {s} {d : Disk} {repository : Text} {r : Reference}

theorem mem_references : r ∈ s.references ↔ r ∈ s.loose ∨ r ∈ s.packed := List.mem_append

/-- Of the loose references only those are read whose names do not end in the letters of a head. -/
theorem isLoose_iff (hs : s.IsProper) (h : s.IsIn d repository) :
    IsLoose d repository r ↔ r ∈ s.loose ∧ ¬ "HEAD".toList <:+ r.name := by
  have hnames : ∀ r ∈ s.loose, nameOf (stepsOf r.name) = r.name := fun r hr =>
    nameOf_stepsOf (hs.names r (mem_references.2 (.inl hr))).forward
  have hkind := h.loose r.kind
  unfold IsLoose
  cases hfind : d.find (looseDirectory repository r.kind) with
  | error e =>
    rw [hfind] at hkind
    constructor
    · rintro ⟨found, _, _, hfound, _⟩
      cases hfound
    · rintro ⟨hr, _⟩
      exact absurd rfl (hkind.2 r hr)
  | ok found =>
    rw [hfind] at hkind
    obtain ⟨hdirectory, hfiles⟩ := hkind
    constructor
    · rintro ⟨found, steps, leaf, hfound, _, hleads, hleaf, hname, hhead⟩
      cases hfound
      obtain ⟨other, hother, hkind, rfl⟩ := (hfiles steps).1 ⟨leaf, hleads, hleaf⟩
      rw [hnames other hother] at hname
      -- The kind and the name are those of the other reference, and there is no more to it.
      obtain ⟨name, kind⟩ := other
      cases hname
      cases hkind
      exact ⟨hother, hhead⟩
    · rintro ⟨hr, hhead⟩
      obtain ⟨leaf, hleads, hleaf⟩ := (hfiles (stepsOf r.name)).2 ⟨r, hr, rfl, rfl⟩
      exact ⟨_, _, leaf, rfl, hdirectory, hleads, hleaf, hnames r hr, hhead⟩

/-- All packed references are read. -/
theorem packed_eq (hs : s.IsProper) (h : s.IsIn d repository) :
    Reference.packed d repository = .ok s.packed := by
  have hlines := h.lines
  unfold Reference.packed Storage.packed
  cases hread : d.readText (Path.join repository "packed-refs".toList) with
  | error e =>
    rw [hread] at hlines
    obtain ⟨rfl, hnone⟩ := hlines
    rw [hnone]
    rfl
  | ok content =>
    rw [hread] at hlines
    have hcontent : Text.lines content = s.lines.map PackedLine.text := hlines
    dsimp only
    rw [hcontent, List.filterMap_map]
    congr 1
    apply List.filterMap_congr
    intro line hline
    apply PackedLine.ofPackedLine?_text
    intro r hr
    exact hs.names r (mem_references.2 (.inr (List.mem_filterMap.2 ⟨line, hline, hr⟩)))

theorem IsIn.missesOnly (h : s.IsIn d repository) (kind : ReferenceKind) :
    MissesOnly (d.list (looseDirectory repository kind)) := by
  have hkind := h.loose kind
  unfold Disk.list
  intro e he
  cases hfind : d.find (looseDirectory repository kind) with
  | error e =>
    rw [hfind] at hkind he
    cases he
    exact hkind.1
  | ok found =>
    obtain ⟨place, node⟩ := found
    rw [hfind] at hkind he
    cases node with
    | directory entries => cases he
    | _ => cases hkind.directory

/-- The references that are listed: a loose one is not if its name ends in the letters of a head. -/
def Lists (s : Storage) (r : Reference) : Prop :=
  r ∈ s.references ∧ ("HEAD".toList <:+ r.name → r ∈ s.packed)

theorem exists_ofRepository (hs : s.IsProper) (h : s.IsIn d repository) :
    ∃ refs, ofRepository d repository = .ok refs ∧ InNameOrder refs ∧ ∀ r, r ∈ refs ↔ s.Lists r := by
  obtain ⟨branches, hbranches, hbranch⟩ := exists_loose (h.missesOnly .branch)
  obtain ⟨tags, htags, htag⟩ := exists_loose (h.missesOnly .tag)
  obtain ⟨remotes, hremotes, hremote⟩ := exists_loose (h.missesOnly .remote)
  have hread := ofRepository_eq_collect hbranches htags hremotes (packed_eq hs h)
  have hmem : ∀ r, r ∈ branches ++ tags ++ remotes ++ s.packed ↔ s.Lists r := by
    intro r
    rw [List.mem_append, List.mem_append, List.mem_append, hbranch, htag, hremote, isLoose_iff hs h]
    unfold Lists
    rw [mem_references]
    cases r.kind <;> grind
  refine ⟨_, hread, inNameOrder_collect _, fun r => ?_⟩
  rw [mem_collect_of_unique, hmem]
  intro r hr other hother
  exact hs.unique r ((hmem r).1 hr).1 other ((hmem other).1 hother).1

theorem exists_list {directory : Text} (hrepository : IsRepository d directory repository)
    (hs : s.IsProper) (h : s.IsIn d repository) :
    ∃ refs, list d directory = .ok refs ∧ InNameOrder refs ∧ ∀ r, r ∈ refs ↔ s.Lists r := by
  unfold list
  rw [findRepository?_eq_some.2 hrepository]
  exact exists_ofRepository hs h

theorem IsProper.of_mem_iff {s' : Storage} (hs : s.IsProper)
    (h : ∀ r, r ∈ s'.references ↔ r ∈ s.references) : s'.IsProper :=
  ⟨fun r hr => hs.names r ((h r).1 hr),
    fun r hr other hother => hs.unique r ((h r).1 hr) other ((h other).1 hother)⟩

end Storage

/-- Repositories that store the same references list the same ones, whichever are loose and whichever are
packed, if they pack the same of the names that end in the letters of a head, and only then: such a name
is listed where it is packed and not where it is loose. -/
theorem packing_counts_only_for_names_that_end_like_a_head {d d' : Disk}
    {directory directory' repository repository' : Text} {s s' : Storage}
    (hrepository : IsRepository d directory repository) (h : s.IsIn d repository)
    (hrepository' : IsRepository d' directory' repository') (h' : s'.IsIn d' repository')
    (hs : s.IsProper) (hsame : ∀ r, r ∈ s'.references ↔ r ∈ s.references) :
    ∃ refs refs', list d directory = .ok refs ∧ list d' directory' = .ok refs' ∧
      (∀ r, r ∈ refs ↔ r ∈ s.references ∧ ("HEAD".toList <:+ r.name → r ∈ s.packed)) ∧
      (refs = refs' ↔
        ∀ r ∈ s.references, "HEAD".toList <:+ r.name → (r ∈ s.packed ↔ r ∈ s'.packed)) := by
  obtain ⟨refs, hlist, horder, hrefs⟩ := Storage.exists_list hrepository hs h
  obtain ⟨refs', hlist', horder', hrefs'⟩ :=
    Storage.exists_list hrepository' (hs.of_mem_iff hsame) h'
  refine ⟨refs, refs', hlist, hlist', hrefs, ?_⟩
  have hmem : refs = refs' ↔ ∀ r, s.Lists r ↔ s'.Lists r := by
    constructor
    · rintro rfl r
      exact (hrefs r).symm.trans (hrefs' r)
    · intro hlists
      apply AscendingBy.eq_of_mem_iff horder horder'
      intro r
      rw [hrefs, hrefs', hlists]
  rw [hmem]
  unfold Storage.Lists
  constructor
  · intro hlists r hr hhead
    have hr' := hlists r
    rw [hsame] at hr'
    simpa only [hr, hhead, true_and, true_imp_iff] using hr'
  · intro hpacked r
    rw [hsame]
    constructor
    · rintro ⟨hr, hkept⟩
      exact ⟨hr, fun hhead => (hpacked r hr hhead).1 (hkept hhead)⟩
    · rintro ⟨hr, hkept⟩
      exact ⟨hr, fun hhead => (hpacked r hr hhead).2 (hkept hhead)⟩

/-! ## A repository packed and unpacked -/

/-- A disk with a repository that has the branches and tags as files, and the packed references. -/
def shed (branches tags : List String) (packed : String) : Disk where
  current := []
  root :=
    let files (names : List String) : Node :=
      folder (names.map fun name => (name, .file (.text "c0ffee".toList) 0o644))
    folder
      [(".git", folder
        [("refs", folder [("heads", files branches), ("tags", files tags)]),
          ("packed-refs", .file (.text packed.toList) 0o644)])]

theorem isRepository_shed (branches tags : List String) (packed : String) :
    IsRepository (shed branches tags packed) "/".toList "/.git".toList :=
  findRepository?_eq_some.1 rfl

/-- The hash of the objects in the shed. -/
def coffee : Hash := ⟨"c0ffee".toList, by decide⟩

/-- The branch of the figs is listed from its file or from its line, among the same others. -/
theorem the_figs_are_listed_from_the_file_and_from_the_line :
    let figs : Reference := ⟨"figs".toList, .branch⟩
    let old : Reference := ⟨"v1".toList, .tag⟩
    let s : Storage := ⟨[figs], [.remark " sorted".toList, .entry coffee old, .peeled coffee]⟩
    let s' : Storage := ⟨[old], [.entry coffee figs]⟩
    let d := shed ["figs"] [] "# sorted\nc0ffee refs/tags/v1\n^c0ffee\n"
    let d' := shed [] ["v1"] "c0ffee refs/heads/figs\r\n"
    s.IsIn d "/.git".toList ∧ s'.IsIn d' "/.git".toList ∧ s.IsProper ∧
      ∃ refs, list d "/".toList = .ok refs ∧ list d' "/".toList = .ok refs ∧
        ∀ r, r ∈ refs ↔ r ∈ s.references := by
  intro figs old s s' d d'
  have hin : s.IsIn d "/.git".toList := by decide +kernel
  have hin' : s'.IsIn d' "/.git".toList := by decide +kernel
  have hproper : s.IsProper := by decide +kernel
  have hperm : s'.references.Perm s.references := by decide
  obtain ⟨refs, refs', hlist, hlist', hrefs, hsame⟩ :=
    packing_counts_only_for_names_that_end_like_a_head (isRepository_shed _ _ _) hin
      (isRepository_shed _ _ _) hin' hproper fun _ => hperm.mem_iff
  have hnone : ∀ r ∈ s.references, ¬ "HEAD".toList <:+ r.name := by decide +kernel
  obtain rfl : refs = refs' := hsame.2 fun r hr hhead => absurd hhead (hnone r hr)
  refine ⟨hin, hin', hproper, refs, hlist, hlist', fun r => ?_⟩
  rw [hrefs]
  exact ⟨And.left, fun hr => ⟨hr, fun hhead => absurd hhead (hnone r hr)⟩⟩

/-- A branch with a proper name that ends in the letters of a head is listed from its line and not from
its file. -/
theorem a_branch_that_ends_like_a_head_is_missed_unless_packed :
    let ahead : Reference := ⟨"AHEAD".toList, .branch⟩
    let main : Reference := ⟨"main".toList, .branch⟩
    let s : Storage := ⟨[ahead, main], []⟩
    let s' : Storage := ⟨[main], [.entry coffee ahead]⟩
    let d := shed ["AHEAD", "main"] [] ""
    let d' := shed ["main"] [] "c0ffee refs/heads/AHEAD\n"
    s.IsProper ∧ (∀ r, r ∈ s'.references ↔ r ∈ s.references) ∧
      s.IsIn d "/.git".toList ∧ s'.IsIn d' "/.git".toList ∧
      IsRepository d "/".toList "/.git".toList ∧ IsRepository d' "/".toList "/.git".toList ∧
      list d "/".toList = .ok [main] ∧ list d' "/".toList = .ok [ahead, main] := by
  intro ahead main s s' d d'
  have hperm : s'.references.Perm s.references := by decide
  exact ⟨by decide +kernel, fun r => hperm.mem_iff, by decide +kernel, by decide +kernel,
    isRepository_shed _ _ _, isRepository_shed _ _ _, by decide +kernel, by decide +kernel⟩

end Reference

end Typeahead
