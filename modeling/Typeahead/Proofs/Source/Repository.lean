import Typeahead.Proofs.Disk.Lookup
import Typeahead.Proofs.Source.Collecting

/-!
The references of a repository: which one a directory lies in, what it holds by name, loose or packed,
and what is kept of a name that stands in several places.
-/
namespace Typeahead

theorem ReferenceKind.ofDirectory?_eq_some {t : Text} {kind : ReferenceKind} :
    ofDirectory? t = some kind ↔ kind.directory.toList = t := by
  unfold ofDirectory?
  constructor
  · intro h
    simpa using List.find?_some h
  · rintro rfl
    cases kind <;> rfl

namespace Reference

/-! ## The repository of a directory -/

/-- Where the repository of a directory is looked for. -/
def repositoryPath (directory : Text) : Text := Path.join directory ".git".toList

/-- The directory has a repository, or a file in its place. -/
def HasRepository (d : Disk) (directory : Text) : Prop :=
  ∃ found, d.find (repositoryPath directory) = .ok found ∧
    (found.node.isDirectory = true ∨ found.node.isFile = true)

/-- The first of the directories that has a repository. -/
inductive IsNearest (d : Disk) : List Text → Text → Prop
  | here {directory : Text} {above : List Text} (h : HasRepository d directory) :
      IsNearest d (directory :: above) directory
  | above {directory nearest : Text} {above : List Text} (hnot : ¬ HasRepository d directory)
      (h : IsNearest d above nearest) : IsNearest d (directory :: above) nearest

/-- The repository that a directory has: its own one, or the one that a file names. -/
inductive PointsTo (d : Disk) (directory : Text) : Text → Prop
  | directly (h : d.isDirectory (repositoryPath directory) = true) :
      PointsTo d directory (repositoryPath directory)
  | byFile {content target : Text} (h : d.readText (repositoryPath directory) = .ok content)
      (hcontent : Text.trim content = "gitdir:".toList ++ target) :
      PointsTo d directory (Path.join directory (Text.trim target))

/-- The repository of the nearest of the directories above one, this one included. -/
def IsRepository (d : Disk) (directory repository : Text) : Prop :=
  ∃ nearest, IsNearest d (Path.ancestors directory) nearest ∧ PointsTo d nearest repository

theorem repositoryTarget?_eq_some {content target : Text} :
    repositoryTarget? content = some target ↔
      ∃ rest, Text.trim content = "gitdir:".toList ++ rest ∧ Text.trim rest = target := by
  unfold repositoryTarget?
  simp only [Option.map_eq_some_iff, Text.strip?_eq_some_iff]

theorem isNearest_cons {d : Disk} {directory nearest : Text} {above : List Text} :
    IsNearest d (directory :: above) nearest ↔
      (HasRepository d directory ∧ directory = nearest) ∨
        (¬ HasRepository d directory ∧ IsNearest d above nearest) := by
  constructor
  · intro h
    cases h with
    | here h => exact Or.inl ⟨h, rfl⟩
    | above hnot h => exact Or.inr ⟨hnot, h⟩
  · rintro (⟨h, rfl⟩ | ⟨hnot, h⟩)
    · exact .here h
    · exact .above hnot h

/-- A directory in the place of the repository is the repository. -/
theorem pointsTo_iff_eq {d : Disk} {directory repository : Text} {found : Disk.Found}
    (hfind : d.find (repositoryPath directory) = .ok found)
    (hnode : found.node.isDirectory = true) :
    PointsTo d directory repository ↔ repositoryPath directory = repository := by
  obtain ⟨place, node⟩ := found
  cases node with
  | directory entries =>
    constructor
    · intro h
      cases h with
      | directly => rfl
      | byFile h =>
        unfold Disk.readText at h
        rw [hfind] at h
        cases h
    · rintro rfl
      apply PointsTo.directly
      unfold Disk.isDirectory
      rw [hfind]
      rfl
  | _ => cases hnode

/-- A file in the place of the repository names it. -/
theorem pointsTo_iff_exists_target {d : Disk} {directory repository : Text} {found : Disk.Found}
    (hfind : d.find (repositoryPath directory) = .ok found)
    (hnode : found.node.isDirectory = false) :
    PointsTo d directory repository ↔
      ∃ content target, d.readText (repositoryPath directory) = .ok content ∧
        repositoryTarget? content = some target ∧ Path.join directory target = repository := by
  constructor
  · intro h
    cases h with
    | directly h =>
      unfold Disk.isDirectory at h
      rw [hfind] at h
      cases hnode.symm.trans h
    | byFile h hcontent =>
      exact ⟨_, _, h, repositoryTarget?_eq_some.2 ⟨_, hcontent, rfl⟩, rfl⟩
  · rintro ⟨content, target, h, htarget, rfl⟩
    obtain ⟨rest, hcontent, rfl⟩ := repositoryTarget?_eq_some.1 htarget
    exact .byFile h hcontent

/-- The search finds the repository of the nearest directory that has one. -/
theorem findRepository?_eq_some {d : Disk} {directories : List Text} {repository : Text} :
    findRepository? d directories = some repository ↔
      ∃ nearest, IsNearest d directories nearest ∧ PointsTo d nearest repository := by
  induction directories with
  | nil =>
    unfold findRepository?
    constructor
    · exact nofun
    · rintro ⟨_, h, _⟩
      cases h
  | cons directory above ih =>
    have hpath : Path.join directory ".git".toList = repositoryPath directory := rfl
    unfold findRepository?
    rw [hpath]
    simp only [isNearest_cons]
    cases hfind : d.find (repositoryPath directory) with
    | error e =>
      have hnot : ¬ HasRepository d directory := by
        rintro ⟨found, hfound, _⟩
        rw [hfind] at hfound
        cases hfound
      simp [hnot, ih]
    | ok found =>
      have hhas : HasRepository d directory := ⟨found, hfind, Disk.find_node hfind⟩
      have hnearest : (∃ nearest, ((HasRepository d directory ∧ directory = nearest) ∨
          (¬ HasRepository d directory ∧ IsNearest d above nearest)) ∧
            PointsTo d nearest repository) ↔ PointsTo d directory repository := by
        simp [hhas]
      rw [hnearest]
      obtain ⟨place, node⟩ := found
      cases node with
      | directory entries =>
        rw [pointsTo_iff_eq hfind rfl]
        exact Option.some_inj
      | _ =>
        rw [pointsTo_iff_exists_target hfind rfl]
        dsimp only
        cases d.readText (repositoryPath directory) with
        | ok content => simp
        | error e => simp

/-! ## Loose references -/

/-- The directory that holds the loose references of a kind. -/
def looseDirectory (repository : Text) (kind : ReferenceKind) : Text :=
  Path.join (Path.join repository "refs".toList) kind.directory.toList

/-- The name that the steps to a file stand for. -/
def nameOf (steps : List FileName) : Text :=
  (Text.joinWith ['/'] (steps.map FileName.shown)).map fun c => if c = '\\' then '/' else c

/-- What lies below the directory of the kind, at any depth, and is no directory has the name. -/
def IsLoose (d : Disk) (repository : Text) (r : Reference) : Prop :=
  ∃ found steps leaf, d.find (looseDirectory repository r.kind) = .ok found ∧
    found.node.isDirectory = true ∧ found.node.Leads steps leaf ∧ leaf.isDirectory = false ∧
    nameOf steps = r.name ∧ ¬ "HEAD".toList <:+ r.name

theorem ofLeaf?_eq_some {kind : ReferenceKind} {steps : List FileName} {r : Reference} :
    ofLeaf? kind steps = some r ↔
      r.kind = kind ∧ nameOf steps = r.name ∧ ¬ "HEAD".toList <:+ r.name := by
  obtain ⟨name, other⟩ := r
  have hunfold : ofLeaf? kind steps =
      if "HEAD".toList.isSuffixOf (nameOf steps) then none else some ⟨nameOf steps, kind⟩ := rfl
  rw [hunfold, ← List.isSuffixOf_iff_suffix]
  split
  · rename_i hhead
    constructor
    · exact nofun
    · rintro ⟨_, rfl, hnot⟩
      exact absurd hhead hnot
  · rename_i hhead
    rw [Option.some_inj, Reference.mk.injEq]
    constructor
    · rintro ⟨rfl, rfl⟩
      exact ⟨rfl, rfl, hhead⟩
    · rintro ⟨rfl, rfl, _⟩
      exact ⟨rfl, rfl⟩

theorem kind_of_mem_filterMap {kind : ReferenceKind} {leaves : List (List FileName × Node)} :
    ∀ r ∈ leaves.filterMap fun (steps, _) => ofLeaf? kind steps, r.kind = kind := by
  intro r hr
  obtain ⟨_, _, hleaf⟩ := List.mem_filterMap.1 hr
  exact (ofLeaf?_eq_some.1 hleaf).1

/-- Reading meets no failure but that there is nothing to read. -/
def MissesOnly {α : Type} (reading : Except DiskError α) : Prop :=
  ∀ e, reading = .error e → e = .notFound

instance {α : Type} : (reading : Except DiskError α) → Decidable (MissesOnly reading)
  | .ok _ => isTrue nofun
  | .error e =>
    decidable_of_iff (e = .notFound)
      ⟨fun h _ hsame => Except.error.inj hsame ▸ h, fun h => h e rfl⟩

/-- The loose references of a kind can be read, and they are what lies below its directory. -/
theorem exists_loose {d : Disk} {repository : Text} {kind : ReferenceKind}
    (h : MissesOnly (d.list (looseDirectory repository kind))) :
    ∃ rs, loose d repository kind = .ok rs ∧
      ∀ r, r ∈ rs ↔ r.kind = kind ∧ IsLoose d repository r := by
  have hpath : Path.join (Path.join repository "refs".toList) kind.directory.toList =
    looseDirectory repository kind := rfl
  unfold loose IsLoose
  dsimp only
  rw [hpath]
  unfold MissesOnly Disk.list at h
  cases hfind : d.find (looseDirectory repository kind) with
  | error e =>
    rw [hfind] at h
    cases h e rfl
    refine ⟨[], rfl, fun r => ⟨nofun, ?_⟩⟩
    rintro ⟨rfl, found, _, _, hfound, _⟩
    rw [hfind] at hfound
    cases hfound
  | ok found =>
    obtain ⟨place, node⟩ := found
    cases node with
    | directory entries =>
      refine ⟨_, rfl, fun r => ?_⟩
      rw [List.mem_filterMap]
      simp only [Prod.exists, ofLeaf?_eq_some]
      constructor
      · rintro ⟨steps, leaf, hleaf, rfl, hname, hhead⟩
        obtain ⟨hleads, hnot⟩ := (Node.mem_leaves (n := .directory entries)).1 hleaf
        exact ⟨rfl, _, steps, leaf, hfind, rfl, hleads, hnot, hname, hhead⟩
      · rintro ⟨rfl, found, steps, leaf, hfound, _, hleads, hnot, hname, hhead⟩
        rw [hfind] at hfound
        cases hfound
        have hleaf := (Node.mem_leaves (n := .directory entries)).2 ⟨hleads, hnot⟩
        exact ⟨steps, leaf, hleaf, rfl, hname, hhead⟩
    | _ =>
      rw [hfind] at h
      cases h .notDirectory rfl

/-! ## Packed references -/

/-- The line is for the reference: after the first blank it has the full name, up to blanks around
it. A line that starts with a mark is for none. -/
def IsLineFor (line : Text) (r : Reference) : Prop :=
  line.head? ≠ some '#' ∧ line.head? ≠ some '^' ∧
    ∃ hash fullName, line = hash ++ ' ' :: fullName ∧ ' ' ∉ hash ∧
      Text.trim fullName = "refs/".toList ++ r.kind.directory.toList ++ '/' :: r.name

/-- The first line that is for the name, of any kind, is for the reference. -/
def IsPacked (d : Disk) (repository : Text) (r : Reference) : Prop :=
  ∃ content, d.readText (Path.join repository "packed-refs".toList) = .ok content ∧
    ∃ before line behind, Text.lines content = before ++ line :: behind ∧ IsLineFor line r ∧
      ∀ earlier ∈ before, ∀ kind, ¬ IsLineFor earlier ⟨r.name, kind⟩

theorem ofPackedLine?_eq_some {line : Text} {r : Reference} :
    ofPackedLine? line = some r ↔ IsLineFor line r := by
  have hslash : ∀ kind : ReferenceKind, '/' ∉ kind.directory.toList := by
    intro kind
    cases kind <;> decide
  obtain ⟨name, kind⟩ := r
  unfold ofPackedLine? IsLineFor
  split
  · rename_i hmark
    constructor
    · exact nofun
    · rintro ⟨hhash, hcaret, _⟩
      simp [hhash, hcaret] at hmark
  · rename_i hmark
    simp only [Bool.or_eq_true, decide_eq_true_eq, not_or] at hmark
    simp only [Option.bind_eq_bind, Option.bind_eq_some_iff, Prod.exists, Option.some_inj,
      Text.splitOnce_eq_some_iff, Text.strip?_eq_some_iff, ReferenceKind.ofDirectory?_eq_some,
      Reference.mk.injEq]
    constructor
    · rintro ⟨hash, fullName, ⟨hline, hhash⟩, rest, hrest, _, _, ⟨rfl, _⟩, _, rfl, rfl, rfl⟩
      exact ⟨hmark.1, hmark.2, hash, fullName, hline, hhash, by simpa using hrest⟩
    · rintro ⟨_, _, hash, fullName, hline, hhash, hname⟩
      refine ⟨hash, fullName, ⟨hline, hhash⟩, kind.directory.toList ++ '/' :: name, ?_,
        kind.directory.toList, name, ⟨rfl, hslash kind⟩, kind, rfl, rfl, rfl⟩
      simpa using hname

theorem any_ofPackedLine? {line name : Text} :
    (ofPackedLine? line).any (·.name = name) = true ↔ ∃ kind, IsLineFor line ⟨name, kind⟩ := by
  rw [Option.any_eq_true]
  simp only [ofPackedLine?_eq_some, decide_eq_true_iff]
  constructor
  · rintro ⟨r, hline, rfl⟩
    exact ⟨r.kind, hline⟩
  · rintro ⟨kind, hline⟩
    exact ⟨_, hline, rfl⟩

/-- The packed references can be read, and the first one of a name is the one that counts. -/
theorem exists_packed {d : Disk} {repository : Text}
    (h : MissesOnly (d.readText (Path.join repository "packed-refs".toList))) :
    ∃ rs, packed d repository = .ok rs ∧
      ∀ r, rs.find? (·.name = r.name) = some r ↔ IsPacked d repository r := by
  unfold packed IsPacked
  cases hread : d.readText (Path.join repository "packed-refs".toList) with
  | error e =>
    cases h e hread
    exact ⟨[], rfl, fun r => ⟨nofun, nofun⟩⟩
  | ok content =>
    refine ⟨_, rfl, fun r => ?_⟩
    rw [List.find?_filterMap]
    simp only [Option.bind_eq_some_iff, List.find?_eq_some_iff_append, Bool.not_eq_true',
      ← Bool.not_eq_true, any_ofPackedLine?, ofPackedLine?_eq_some, not_exists, Except.ok.injEq]
    constructor
    · rintro ⟨line, ⟨_, before, behind, hlines, hbefore⟩, hline⟩
      exact ⟨content, rfl, before, line, behind, hlines, hline, hbefore⟩
    · rintro ⟨_, rfl, before, line, behind, hlines, hline, hbefore⟩
      exact ⟨line, ⟨⟨r.kind, hline⟩, before, behind, hlines, hbefore⟩, hline⟩

/-! ## All references of a repository -/

/-- A name is a branch, a tag or a remote branch, in this order, if it is a loose one; it is what the
packed references say if it is none of these. -/
inductive IsReference (d : Disk) (repository : Text) : Reference → Prop
  | branch {name : Text} (h : IsLoose d repository ⟨name, .branch⟩) :
      IsReference d repository ⟨name, .branch⟩
  | tag {name : Text} (hbranch : ¬ IsLoose d repository ⟨name, .branch⟩)
      (h : IsLoose d repository ⟨name, .tag⟩) : IsReference d repository ⟨name, .tag⟩
  | remote {name : Text} (hbranch : ¬ IsLoose d repository ⟨name, .branch⟩)
      (htag : ¬ IsLoose d repository ⟨name, .tag⟩) (h : IsLoose d repository ⟨name, .remote⟩) :
      IsReference d repository ⟨name, .remote⟩
  | packed {r : Reference} (hloose : ∀ kind, ¬ IsLoose d repository ⟨r.name, kind⟩)
      (h : IsPacked d repository r) : IsReference d repository r

/-- A name of a loose reference has one kind. -/
theorem IsReference.eq_of_isLoose {d : Disk} {repository name : Text} {kind other : ReferenceKind}
    (h : IsReference d repository ⟨name, kind⟩) (hloose : IsLoose d repository ⟨name, kind⟩)
    (hother : IsReference d repository ⟨name, other⟩) : kind = other := by
  cases h with
  | packed hnot => exact absurd hloose (hnot kind)
  | branch => cases hother <;> grind
  | tag => cases hother <;> grind
  | remote => cases hother <;> grind

/-- Nothing fails in the repository but that there is nothing to read. -/
structure IsReadable (d : Disk) (repository : Text) : Prop where
  loose : ∀ kind, MissesOnly (d.list (looseDirectory repository kind))
  packed : MissesOnly (d.readText (Path.join repository "packed-refs".toList))

/-- Where all can be read, the references are collected, the loose ones first. -/
theorem ofRepository_eq_collect {d : Disk} {repository : Text}
    {branches tags remotes rest : List Reference} (hbranches : loose d repository .branch = .ok branches)
    (htags : loose d repository .tag = .ok tags) (hremotes : loose d repository .remote = .ok remotes)
    (hrest : packed d repository = .ok rest) :
    ofRepository d repository = .ok (collect (branches ++ tags ++ remotes ++ rest)) := by
  unfold ofRepository
  rw [hbranches, htags, hremotes, hrest]
  rfl

theorem exists_ofRepository {d : Disk} {repository : Text} (h : IsReadable d repository) :
    ∃ refs, ofRepository d repository = .ok refs ∧ InNameOrder refs ∧
      ∀ r, r ∈ refs ↔ IsReference d repository r := by
  obtain ⟨branches, hbranches, hbranch⟩ := exists_loose (h.loose .branch)
  obtain ⟨tags, htags, htag⟩ := exists_loose (h.loose .tag)
  obtain ⟨remotes, hremotes, hremote⟩ := exists_loose (h.loose .remote)
  obtain ⟨rest, hrest, hpacked⟩ := exists_packed h.packed
  have hread := ofRepository_eq_collect hbranches htags hremotes hrest
  refine ⟨_, hread, inNameOrder_collect _, fun r => ?_⟩
  obtain ⟨name, kind⟩ := r
  have hisBranch : ⟨name, .branch⟩ ∈ branches ↔ IsLoose d repository ⟨name, .branch⟩ := by
    rw [hbranch, and_iff_right rfl]
  have hisTag : ⟨name, .tag⟩ ∈ tags ↔ IsLoose d repository ⟨name, .tag⟩ := by
    rw [htag, and_iff_right rfl]
  have hisRemote : ⟨name, .remote⟩ ∈ remotes ↔ IsLoose d repository ⟨name, .remote⟩ := by
    rw [hremote, and_iff_right rfl]
  rw [mem_collect, List.find?_append, List.find?_append, List.find?_append,
    find?_of_kind fun r hr => ((hbranch r).1 hr).1, find?_of_kind fun r hr => ((htag r).1 hr).1,
    find?_of_kind fun r hr => ((hremote r).1 hr).1]
  have hdecides : ∀ first, IsLoose d repository ⟨name, first⟩ →
      IsReference d repository ⟨name, first⟩ →
      (some ⟨name, first⟩ = some (⟨name, kind⟩ : Reference) ↔
        IsReference d repository ⟨name, kind⟩) := by
    intro first hloose hfirst
    constructor
    · intro hsame
      cases hsame
      exact hfirst
    · intro h
      rw [hfirst.eq_of_isLoose hloose h]
  -- The first of the four that knows the name decides.
  by_cases hb : IsLoose d repository ⟨name, .branch⟩
  · rw [if_pos (hisBranch.2 hb), Option.some_or, Option.some_or, Option.some_or]
    exact hdecides .branch hb (.branch hb)
  rw [if_neg (hisBranch.not.2 hb), Option.none_or]
  by_cases ht : IsLoose d repository ⟨name, .tag⟩
  · rw [if_pos (hisTag.2 ht), Option.some_or, Option.some_or]
    exact hdecides .tag ht (.tag hb ht)
  rw [if_neg (hisTag.not.2 ht), Option.none_or]
  by_cases hm : IsLoose d repository ⟨name, .remote⟩
  · rw [if_pos (hisRemote.2 hm), Option.some_or]
    exact hdecides .remote hm (.remote hb ht hm)
  rw [if_neg (hisRemote.not.2 hm), Option.none_or, hpacked ⟨name, kind⟩]
  have hnone : ∀ kind, ¬ IsLoose d repository ⟨name, kind⟩ := by
    intro kind
    cases kind with
    | branch => exact hb
    | tag => exact ht
    | remote => exact hm
  constructor
  · exact .packed hnone
  · intro h
    cases h with
    | packed _ h => exact h
    | branch h => exact absurd h hb
    | tag _ h => exact absurd h ht
    | remote _ _ h => exact absurd h hm

/-! ## Other listings -/

section Relisted

variable {d d' : Disk}

theorem findRepository?_relisted (h : d.Relisted d') (directories : List Text) :
    findRepository? d' directories = findRepository? d directories := by
  induction directories with
  | nil => rfl
  | cons directory above ih =>
    unfold findRepository?
    dsimp only
    rw [h.readText, ih]
    have hfind := h.find (Path.join directory ".git".toList) true
    generalize d.find (Path.join directory ".git".toList) = r,
      d'.find (Path.join directory ".git".toList) = r' at hfind ⊢
    cases hfind with
    | failed e => rfl
    | @found place n m h =>
      cases n with
      | directory entries =>
        obtain ⟨entries', rfl, _⟩ := h.exists_directory
        rfl
      | _ =>
        cases h.eq_of_not_directory rfl
        rfl

/-- Of each name the same loose reference is found, or reading fails alike. -/
theorem loose_relisted (h : d.Relisted d') (repository : Text) (kind : ReferenceKind) :
    (∃ e, loose d repository kind = .error e ∧ loose d' repository kind = .error e) ∨
      ∃ rs rs', loose d repository kind = .ok rs ∧ loose d' repository kind = .ok rs' ∧
        ∀ name, rs.find? (·.name = name) = rs'.find? (·.name = name) := by
  have hfind := h.find (looseDirectory repository kind) true
  unfold looseDirectory at hfind
  unfold loose
  dsimp only
  generalize d.find (Path.join (Path.join repository "refs".toList) kind.directory.toList) = r,
    d'.find (Path.join (Path.join repository "refs".toList) kind.directory.toList) = r'
    at hfind ⊢
  cases hfind with
  | failed e =>
    cases e with
    | notFound => exact Or.inr ⟨[], [], rfl, rfl, fun _ => rfl⟩
    | _ => exact Or.inl ⟨_, rfl, rfl⟩
  | @found place n m h =>
    cases n with
    | directory entries =>
      obtain ⟨entries', rfl, _⟩ := h.exists_directory
      refine Or.inr ⟨_, _, rfl, rfl, fun name => ?_⟩
      have hperm : (entries.leaves.filterMap fun (steps, _) => ofLeaf? kind steps).Perm
          (entries'.leaves.filterMap fun (steps, _) => ofLeaf? kind steps) :=
        h.leaves_perm.filterMap _
      rw [find?_of_kind kind_of_mem_filterMap, find?_of_kind kind_of_mem_filterMap]
      simp only [hperm.mem_iff]
    | _ =>
      cases h.eq_of_not_directory rfl
      exact Or.inl ⟨_, rfl, rfl⟩

theorem packed_relisted (h : d.Relisted d') (repository : Text) :
    packed d' repository = packed d repository := by
  unfold packed
  rw [h.readText]

theorem ofRepository_relisted (h : d.Relisted d') (repository : Text) :
    ofRepository d' repository = ofRepository d repository := by
  unfold ofRepository
  rw [packed_relisted h]
  rcases loose_relisted h repository .branch with
    ⟨e, hb, hb'⟩ | ⟨branches, branches', hb, hb', hbranch⟩
  · rw [hb, hb']
    rfl
  rcases loose_relisted h repository .tag with
    ⟨e, ht, ht'⟩ | ⟨tags, tags', ht, ht', htag⟩
  · rw [hb, hb', ht, ht']
    rfl
  rcases loose_relisted h repository .remote with
    ⟨e, hm, hm'⟩ | ⟨remotes, remotes', hm, hm', hremote⟩
  · rw [hb, hb', ht, ht', hm, hm']
    rfl
  rw [hb, hb', ht, ht', hm, hm']
  cases packed d repository with
  | error e => rfl
  | ok rest =>
    have hcollect : collect (branches' ++ tags' ++ remotes' ++ rest) =
        collect (branches ++ tags ++ remotes ++ rest) := by
      apply collect_eq
      intro name
      simp only [List.find?_append, hbranch, htag, hremote]
    exact congrArg Except.ok hcollect

theorem list_relisted (h : d.Relisted d') (directory : Text) :
    list d' directory = list d directory := by
  unfold list
  rw [findRepository?_relisted h]
  split
  · exact ofRepository_relisted h _
  · rfl

end Relisted

/-- If nothing fails in the repository that a directory lies in but that there is nothing to read: the
references listed are those of this repository, each name once and in order, and none if there is no
such repository. They do not depend on the order in which directories are listed. -/
theorem the_references_are_those_of_the_nearest_repository {d : Disk} {directory : Text}
    (hreadable : ∀ repository, IsRepository d directory repository → IsReadable d repository) :
    ∃ refs, list d directory = .ok refs ∧ InNameOrder refs ∧
      (∀ r, r ∈ refs ↔ ∃ repository, IsRepository d directory repository ∧
        IsReference d repository r) ∧
      ∀ d', d.Relisted d' → list d' directory = .ok refs := by
  have hlist : ∃ refs, list d directory = .ok refs ∧ InNameOrder refs ∧
      ∀ r, r ∈ refs ↔ ∃ repository, IsRepository d directory repository ∧
        IsReference d repository r := by
    unfold list
    cases hfound : findRepository? d (Path.ancestors directory) with
    | none =>
      have hnone : ∀ repository, ¬ IsRepository d directory repository := by
        intro repository h
        rw [findRepository?_eq_some.2 h] at hfound
        cases hfound
      refine ⟨[], rfl, List.Pairwise.nil, fun r => ⟨nofun, ?_⟩⟩
      rintro ⟨repository, h, _⟩
      exact absurd h (hnone repository)
    | some repository =>
      have hrepository := findRepository?_eq_some.1 hfound
      obtain ⟨refs, hread, horder, hrefs⟩ := exists_ofRepository (hreadable repository hrepository)
      refine ⟨refs, hread, horder, fun r => ?_⟩
      rw [hrefs]
      constructor
      · exact fun h => ⟨repository, hrepository, h⟩
      · rintro ⟨other, hother, h⟩
        rw [findRepository?_eq_some.2 hother] at hfound
        cases hfound
        exact h
  obtain ⟨refs, hread, horder, hrefs⟩ := hlist
  exact ⟨refs, hread, horder, hrefs, fun d' h => (list_relisted h directory).trans hread⟩

/-- A directory of entries with the given names. -/
def folder (entries : List (String × Node)) : Node :=
  .directory (.ofList (entries.map fun (name, node) => (.text name.toList, node)))

/-- A disk with a repository that a file names, which has two branches, two tags and packed references.
One name is a branch and a tag, and there are no remote branches. -/
def garden : Disk where
  current := []
  root :=
    let head : Node := .file (.text "c0ffee".toList) 0o644
    let packed : Node := .file
      (.text "# sorted\nc0ffee refs/tags/main\n^c0ffee\nc0ffee refs/tags/old\nc0ffee refs/heads/old".toList)
      0o644
    folder
      [("store", folder
        [("refs", folder
          [("heads", folder [("main", head), ("pick", folder [("figs", head), ("HEAD", head)])]),
            ("tags", folder [("v1", head), ("main", head)])]),
          ("packed-refs", packed)]),
        ("plot", folder
          [(".git", .file (.text "gitdir: ../store\n".toList) 0o644), ("bed", folder [])])]

/-- In a directory of the garden, the branch is listed and not the tag of its name, and the first
packed reference of a name. -/
theorem the_branch_hides_the_tag_of_its_name :
    let directory := "/plot/bed".toList
    list garden directory = .ok
        [⟨"main".toList, .branch⟩, ⟨"old".toList, .tag⟩, ⟨"pick/figs".toList, .branch⟩,
          ⟨"v1".toList, .tag⟩] ∧
      ∃ refs, list garden directory = .ok refs ∧ InNameOrder refs ∧
        (∀ r, r ∈ refs ↔ ∃ repository, IsRepository garden directory repository ∧
          IsReference garden repository r) ∧
        ∀ d', garden.Relisted d' → list d' directory = .ok refs := by
  intro directory
  have hlist : list garden directory = .ok
      [⟨"main".toList, .branch⟩, ⟨"old".toList, .tag⟩, ⟨"pick/figs".toList, .branch⟩,
        ⟨"v1".toList, .tag⟩] := by decide +kernel
  have hreadable : ∀ repository, IsRepository garden directory repository →
      IsReadable garden repository := by
    intro repository h
    have hstore : findRepository? garden (Path.ancestors directory) =
        some "/plot/../store".toList := by decide +kernel
    cases hstore.symm.trans (findRepository?_eq_some.2 h)
    constructor
    · intro kind
      cases kind <;> decide +kernel
    · decide +kernel
  exact ⟨hlist, the_references_are_those_of_the_nearest_repository hreadable⟩

end Reference

end Typeahead
