import Mathlib.Data.List.Perm.Basic
import Mathlib.Data.List.Nodup
import Typeahead.Disk.Access

/-!
What lies below a node, and what a path leads to: a directory or a file, and in a tree whose
directories are listed in another order the same one.
-/
namespace Typeahead

/-! ## Entries -/

namespace Entries

theorem get?_ofList (l : List (FileName × Node)) (name : FileName) :
    (ofList l).get? name = (l.find? (·.1 = name)).map Prod.snd := by
  induction l with
  | nil => rfl
  | cons e rest ih =>
    obtain ⟨n, node⟩ := e
    unfold ofList get?
    by_cases h : n = name
    · simp [h]
    · simp [h, ih]

/-- Where no name stands twice, the entry found is the one that is there. -/
theorem get?_ofList_eq_some {l : List (FileName × Node)} {name : FileName} {node : Node}
    (h : (l.map Prod.fst).Nodup) : (ofList l).get? name = some node ↔ (name, node) ∈ l := by
  induction l with
  | nil => simp [ofList, get?]
  | cons e rest ih =>
    obtain ⟨n, other⟩ := e
    obtain ⟨hn, hrest⟩ := List.nodup_cons.1 h
    unfold ofList get?
    by_cases hname : n = name
    · subst hname
      have hnot : (n, node) ∉ rest := fun hmem => hn (List.mem_map.2 ⟨_, hmem, rfl⟩)
      simp [hnot, eq_comm]
    · simp [hname, ih hrest, Ne.symm hname]

theorem leaves_eq (entries : Entries) :
    entries.leaves = entries.toList.flatMap fun (name, node) =>
      node.leaves.map fun (names, leaf) => (name :: names, leaf) := by
  match entries with
  | nil => rfl
  | cons name node rest =>
    unfold leaves toList
    rw [leaves_eq rest]
    rfl

theorem mem_leaves {entries : Entries} {names : List FileName} {leaf : Node} :
    (names, leaf) ∈ entries.leaves ↔
      ∃ name child rest, (name, child) ∈ entries.toList ∧ (rest, leaf) ∈ child.leaves ∧
        names = name :: rest := by
  rw [leaves_eq]
  simp only [List.mem_flatMap, List.mem_map, Prod.exists, Prod.mk.injEq]
  constructor
  · rintro ⟨name, child, hchild, rest, _, hleaf, rfl, rfl⟩
    exact ⟨name, child, rest, hchild, hleaf, rfl⟩
  · rintro ⟨name, child, rest, hchild, hleaf, rfl⟩
    exact ⟨name, child, hchild, rest, leaf, hleaf, rfl, rfl⟩

end Entries

/-! ## Below a node -/

namespace Node

/-- The names lead from a node to another one, directory by directory. -/
inductive Leads : Node → List FileName → Node → Prop
  | here {n : Node} : Leads n [] n
  | step {entries : Entries} {name : FileName} {child leaf : Node} {names : List FileName}
      (hchild : (name, child) ∈ entries.toList) (h : Leads child names leaf) :
      Leads (.directory entries) (name :: names) leaf

theorem leads_of_mem_leaves {n leaf : Node} {names : List FileName} (h : (names, leaf) ∈ n.leaves) :
    n.Leads names leaf ∧ leaf.isDirectory = false := by
  induction names generalizing n with
  | nil =>
    cases n with
    | directory entries =>
      obtain ⟨_, _, _, _, _, hnames⟩ := Entries.mem_leaves.1 h
      cases hnames
    | _ =>
      unfold leaves at h
      cases List.mem_singleton.1 h
      exact ⟨.here, rfl⟩
  | cons name names ih =>
    cases n with
    | directory entries =>
      obtain ⟨_, child, _, hchild, hleaf, hnames⟩ := Entries.mem_leaves.1 h
      cases hnames
      obtain ⟨hleads, hnot⟩ := ih hleaf
      exact ⟨.step hchild hleads, hnot⟩
    | _ =>
      unfold leaves at h
      cases List.mem_singleton.1 h

theorem Leads.mem_leaves {n leaf : Node} {names : List FileName} (h : n.Leads names leaf)
    (hleaf : leaf.isDirectory = false) : (names, leaf) ∈ n.leaves := by
  induction h with
  | @here n =>
    cases n with
    | directory entries => cases hleaf
    | _ => exact List.mem_singleton_self _
  | step hchild _ ih => exact Entries.mem_leaves.2 ⟨_, _, _, hchild, ih hleaf, rfl⟩

/-- The leaves are what is below a node and is no directory. -/
theorem mem_leaves {n leaf : Node} {names : List FileName} :
    (names, leaf) ∈ n.leaves ↔ n.Leads names leaf ∧ leaf.isDirectory = false :=
  ⟨leads_of_mem_leaves, fun ⟨h, hleaf⟩ => h.mem_leaves hleaf⟩

/-! ## Places -/

@[simp] theorem get?_nil (n : Node) : n.get? [] = some n := by
  unfold get?
  rfl

theorem get?_cons (entries : Entries) (name : FileName) (names : List FileName) :
    (directory entries).get? (name :: names) = (entries.get? name).bind fun n => n.get? names := by
  rw [get?]
  cases entries.get? name <;> rfl

theorem get?_append (n : Node) (a b : List FileName) :
    n.get? (a ++ b) = (n.get? a).bind fun n => n.get? b := by
  induction a generalizing n with
  | nil => simp
  | cons name names ih =>
    cases n with
    | directory entries =>
      rw [List.cons_append, get?_cons, get?_cons]
      cases entries.get? name with
      | none => rfl
      | some child => exact ih child
    | _ => rfl

theorem get?_concat {n : Node} {place : List FileName} {entries : Entries}
    (h : n.get? place = some (.directory entries)) (name : FileName) :
    n.get? (place ++ [name]) = entries.get? name := by
  rw [get?_append, h, Option.bind_some, get?_cons]
  simp

/-- No link stands at the place. -/
def NoLinkAt (n : Node) (place : List FileName) : Prop :=
  ∀ target, n.get? place ≠ some (.link target)

/-- Above a directory there are no links. -/
theorem noLinkAt_of_directory {n : Node} {place above : List FileName} {entries : Entries}
    (h : n.get? place = some (.directory entries)) (habove : above <+: place) :
    n.NoLinkAt above := by
  obtain ⟨rest, rfl⟩ := habove
  intro target hlink
  rw [get?_append, hlink, Option.bind_some] at h
  cases rest with
  | nil => cases h
  | cons name names => cases h

/-- The names in a directory, as they are listed. -/
def names : Node → List FileName
  | directory entries => entries.toList.map Prod.fst
  | _ => []

theorem names_directory (es : List (FileName × Node)) :
    (directory (.ofList es)).names = es.map Prod.fst := by
  rw [names, Entries.toList_ofList]

/-! ## Other listings -/

/-- The trees differ at most in the order in which directories are listed. -/
inductive Relisted : Node → Node → Prop
  | refl (n : Node) : Relisted n n
  | trans {l m n : Node} (h : Relisted l m) (h' : Relisted m n) : Relisted l n
  /-- No name stands twice in the directory that is listed in another order. -/
  | order {es es' : List (FileName × Node)} (hnames : (es.map Prod.fst).Nodup) (h : es.Perm es') :
      Relisted (.directory (.ofList es)) (.directory (.ofList es'))
  | inside (before : List (FileName × Node)) (name : FileName) {child child' : Node}
      (h : Relisted child child') (behind : List (FileName × Node)) :
      Relisted (.directory (.ofList (before ++ (name, child) :: behind)))
        (.directory (.ofList (before ++ (name, child') :: behind)))

namespace Relisted

variable {n m : Node}

theorem rel_refl (o : Option Node) : Option.Rel Relisted o o := by
  cases o with
  | none => exact .none
  | some n => exact .some (.refl n)

theorem rel_trans {a b c : Option Node} (h : Option.Rel Relisted a b)
    (h' : Option.Rel Relisted b c) : Option.Rel Relisted a c := by
  cases h with
  | none => exact h'
  | some h =>
    cases h' with
    | some h' => exact .some (h.trans h')

/-- The same places are there. -/
theorem get? (h : n.Relisted m) (place : List FileName) :
    Option.Rel Relisted (n.get? place) (m.get? place) := by
  induction h generalizing place with
  | refl n => exact rel_refl _
  | trans _ _ ih ih' => exact rel_trans (ih place) (ih' place)
  | @order es es' hnames h =>
    cases place with
    | nil => exact .some (.order hnames h)
    | cons name names =>
      have hnames' : (es'.map Prod.fst).Nodup := (h.map Prod.fst).nodup_iff.1 hnames
      have hsame : (Entries.ofList es).get? name = (Entries.ofList es').get? name := by
        apply Option.ext
        intro child
        rw [Entries.get?_ofList_eq_some hnames, Entries.get?_ofList_eq_some hnames', h.mem_iff]
      rw [get?_cons, get?_cons, hsame]
      exact rel_refl _
  | @inside before name child child' h behind ih =>
    cases place with
    | nil => exact .some (.inside before name h behind)
    | cons other names =>
      rw [get?_cons, get?_cons, Entries.get?_ofList, Entries.get?_ofList, List.find?_append,
        List.find?_append, List.find?_cons, List.find?_cons]
      cases before.find? (·.1 = other) with
      | some e => exact rel_refl _
      | none =>
        by_cases hname : name = other
        · simpa [hname] using ih names
        · simpa [hname] using rel_refl _

/-- What is no directory is the same. -/
theorem eq_of_not_directory (h : n.Relisted m) (hnot : n.isDirectory = false) : n = m := by
  induction h with
  | refl n => rfl
  | trans _ _ ih ih' =>
    cases ih hnot
    exact ih' hnot
  | order => cases hnot
  | inside => cases hnot

theorem symm (h : n.Relisted m) : m.Relisted n := by
  induction h with
  | refl n => exact .refl n
  | trans _ _ ih ih' => exact ih'.trans ih
  | order hnames h => exact .order ((h.map Prod.fst).nodup_iff.1 hnames) h.symm
  | inside before name _ behind ih => exact .inside before name ih behind

/-- A directory has the same entries. -/
theorem exists_directory {entries : Entries} (h : (directory entries).Relisted m) :
    ∃ entries', m = .directory entries' ∧
      ∀ name, Option.Rel Relisted (entries.get? name) (entries'.get? name) := by
  cases m with
  | directory entries' =>
    refine ⟨entries', rfl, fun name => ?_⟩
    have hname := h.get? [name]
    rw [get?_cons, get?_cons] at hname
    simpa using hname
  | _ => cases h.symm.eq_of_not_directory rfl

theorem leaves_perm (h : n.Relisted m) : n.leaves.Perm m.leaves := by
  induction h with
  | refl n => exact .refl _
  | trans _ _ ih ih' => exact ih.trans ih'
  | order _ h =>
    unfold leaves
    rw [Entries.leaves_eq, Entries.leaves_eq, Entries.toList_ofList, Entries.toList_ofList]
    exact h.flatMap_right _
  | inside before name _ behind ih =>
    unfold leaves
    rw [Entries.leaves_eq, Entries.leaves_eq, Entries.toList_ofList, Entries.toList_ofList,
      List.flatMap_append, List.flatMap_append, List.flatMap_cons, List.flatMap_cons]
    exact ((ih.map _).append_right _).append_left _

theorem names_perm (h : n.Relisted m) : n.names.Perm m.names := by
  induction h with
  | refl n => exact .refl _
  | trans _ _ ih ih' => exact ih.trans ih'
  | order _ h =>
    rw [names_directory, names_directory]
    exact h.map _
  | inside before name _ behind => simp [names_directory]

end Relisted

end Node

/-! ## Where paths lead -/

/-- A piece that is not empty holds a character that does not separate. -/
theorem Text.eq_of_splitOn_empty {separator : Char} {t : Text}
    (h : ∀ piece ∈ splitOn separator t, piece = []) : ∀ c ∈ t, c = separator := by
  induction t with
  | nil => exact nofun
  | cons c cs ih =>
    unfold splitOn at h
    split at h
    · rename_i hnil
      exact absurd hnil (splitOn_ne_nil separator cs)
    · rename_i piece pieces hpieces
      split at h
      · rename_i hc
        have hrest : ∀ piece ∈ splitOn separator cs, piece = [] := by
          rw [hpieces]
          exact fun p hp => h p (List.mem_cons_of_mem _ hp)
        exact List.forall_mem_cons.2 ⟨hc, ih hrest⟩
      · cases h _ List.mem_cons_self

theorem Path.steps_ne_nil {p : Text} (h : p ≠ []) : steps p ≠ [] := by
  intro hnil
  unfold steps at hnil
  obtain ⟨hpieces, hslash⟩ := List.append_eq_nil_iff.1 hnil
  have hempty : ∀ piece ∈ Text.splitOn '/' p, piece = [] := by
    intro piece hpiece
    have hnone := List.filterMap_eq_nil_iff.1 hpieces piece hpiece
    unfold stepOf? at hnone
    split at hnone
    · rename_i hisEmpty
      exact List.isEmpty_iff.1 hisEmpty
    · split at hnone
      · cases hnone
      · split at hnone <;> cases hnone
  have hlast : p.getLast? = some '/' := by
    rw [List.getLast?_eq_some_getLast h, Text.eq_of_splitOn_empty hempty _ (List.getLast_mem h)]
  rw [if_pos hlast] at hslash
  cases hslash

namespace Disk

theorem walkWith_noLink {root : Node}
    {follow : List FileName → List Path.Step → Except DiskError Found}
    (hfollow : ∀ place steps found, (steps = [] → root.NoLinkAt place) →
      follow place steps = .ok found → ∀ target, found.node ≠ .link target)
    {place : List FileName} {steps : List Path.Step} (hstart : steps = [] → root.NoLinkAt place)
    {found : Found} (h : walkWith root true follow place steps = .ok found) :
    ∀ target, found.node ≠ .link target := by
  induction steps generalizing place with
  | nil =>
    unfold walkWith at h
    split at h
    · rename_i node hnode
      cases h
      intro target hlink
      exact hstart rfl target (hlink ▸ hnode)
    · cases h
  | cons step rest ih =>
    unfold walkWith at h
    split at h
    · rename_i entries hplace
      cases step with
      | here => exact ih (fun _ => Node.noLinkAt_of_directory hplace ⟨[], by simp⟩) h
      | up =>
        have habove := List.dropLast_prefix place
        exact ih (fun _ => Node.noLinkAt_of_directory hplace habove) h
      | child name =>
        dsimp only at h
        split at h
        · cases h
        · split at h
          · cases h
          · rename_i target _
            rw [if_neg (by simp)] at h
            refine hfollow _ _ found (fun _ => ?_) h
            split
            · exact Node.noLinkAt_of_directory hplace ⟨place, rfl⟩
            · exact Node.noLinkAt_of_directory hplace ⟨[], by simp⟩
          · rename_i child hnot hchild
            refine ih (fun _ target hlink => ?_) h
            rw [Node.get?_concat hplace, hchild, Option.some_inj] at hlink
            exact hnot target hlink
    · cases h
    · cases h

theorem walk_noLink {root : Node} {links : Nat} {place : List FileName} {steps : List Path.Step}
    (hstart : steps = [] → root.NoLinkAt place) {found : Found}
    (h : walk root true links place steps = .ok found) : ∀ target, found.node ≠ .link target := by
  induction links generalizing place steps found with
  | zero => cases h
  | succ links ih => exact walkWith_noLink (fun _ _ _ hstart h => ih hstart h) hstart h

/-- What a path leads to is a directory or a file; links are followed. -/
theorem find_node {d : Disk} {p : Text} {found : Found} (h : d.find p = .ok found) :
    found.node.isDirectory = true ∨ found.node.isFile = true := by
  unfold find at h
  cases hcheck : checkPath p with
  | error e =>
    rw [hcheck] at h
    cases h
  | ok =>
    rw [hcheck] at h
    have hsteps : Path.steps p ≠ [] := by
      apply Path.steps_ne_nil
      rintro rfl
      cases hcheck
    have hlink := walk_noLink (fun hnil => absurd hnil hsteps) h
    cases hnode : found.node with
    | directory entries => exact Or.inl rfl
    | file content mode => exact Or.inr rfl
    | link target => exact absurd hnode (hlink target)

/-! ## Relisted disks -/

/-- The disks differ at most in the order in which directories are listed. -/
structure Relisted (d d' : Disk) : Prop where
  root : d.root.Relisted d'.root
  current : d.current = d'.current

/-- Both look-ups fail for the same reason, or both find the same place. -/
inductive Alike : Except DiskError Found → Except DiskError Found → Prop
  | found {place : List FileName} {n m : Node} (h : n.Relisted m) :
      Alike (.ok ⟨place, n⟩) (.ok ⟨place, m⟩)
  | failed (e : DiskError) : Alike (.error e) (.error e)

theorem walkWith_alike {root root' : Node} (hroot : root.Relisted root') {last : Bool}
    {follow follow' : List FileName → List Path.Step → Except DiskError Found}
    (hfollow : ∀ place steps, Alike (follow place steps) (follow' place steps))
    (place : List FileName) (steps : List Path.Step) :
    Alike (walkWith root last follow place steps) (walkWith root' last follow' place steps) := by
  have hplace := hroot.get? place
  induction steps generalizing place with
  | nil =>
    unfold walkWith
    generalize root.get? place = here, root'.get? place = here' at hplace ⊢
    cases hplace with
    | none => exact .failed _
    | some h => exact .found h
  | cons step rest ih =>
    have hnext := fun next => ih next (hroot.get? next)
    unfold walkWith
    generalize root.get? place = here, root'.get? place = here' at hplace ⊢
    cases hplace with
    | none => exact .failed _
    | @some n n' h =>
      cases n with
      | directory entries =>
        obtain ⟨entries', rfl, hentries⟩ := h.exists_directory
        cases step with
        | here => exact hnext place
        | up => exact hnext place.dropLast
        | child name =>
          dsimp only
          split
          · exact .failed _
          · have hname := hentries name
            generalize entries.get? name = child, entries'.get? name = child' at hname ⊢
            cases hname with
            | none => exact .failed _
            | @some child child' hchild =>
              cases child with
              | link target =>
                cases hchild.eq_of_not_directory rfl
                dsimp only
                split
                · exact .found (.refl _)
                · exact hfollow _ _
              | file content mode =>
                cases hchild.eq_of_not_directory rfl
                exact hnext (place ++ [name])
              | directory below =>
                obtain ⟨below', rfl, _⟩ := hchild.exists_directory
                exact hnext (place ++ [name])
      | _ =>
        cases h.eq_of_not_directory rfl
        exact .failed _

theorem walk_alike {root root' : Node} (hroot : root.Relisted root') {last : Bool} (links : Nat)
    (place : List FileName) (steps : List Path.Step) :
    Alike (walk root last links place steps) (walk root' last links place steps) := by
  induction links generalizing place steps with
  | zero => exact .failed _
  | succ links ih => exact walkWith_alike hroot ih place steps

variable {d d' : Disk}

/-- A path leads to the same place. -/
theorem Relisted.find (h : d.Relisted d') (p : Text) (last : Bool) :
    Alike (d.find p last) (d'.find p last) := by
  unfold Disk.find
  cases checkPath p with
  | error e => exact .failed e
  | ok =>
    rw [h.current]
    exact walk_alike h.root _ _ _

theorem Relisted.symm (h : d.Relisted d') : d'.Relisted d := ⟨h.root.symm, h.current.symm⟩

/-- A name that is listed at a path is listed there in the other disk. -/
theorem Relisted.exists_list {p : Text} {name : FileName} (h : d.Relisted d')
    (hlist : ∃ entries, d.list p = .ok entries ∧ name ∈ entries.map Prod.fst) :
    ∃ entries, d'.list p = .ok entries ∧ name ∈ entries.map Prod.fst := by
  unfold Disk.list at *
  have hfind := h.find p true
  generalize d.find p = r, d'.find p = r' at hfind hlist ⊢
  obtain ⟨entries, hlist, hname⟩ := hlist
  cases hfind with
  | failed e => cases hlist
  | @found place n m h =>
    cases n with
    | directory es =>
      cases hlist
      obtain ⟨es', rfl, _⟩ := h.exists_directory
      exact ⟨es'.toList, rfl, h.names_perm.mem_iff.1 hname⟩
    | _ => cases hlist

theorem Relisted.readText (h : d.Relisted d') (p : Text) : d'.readText p = d.readText p := by
  unfold Disk.readText
  have hfind := h.find p true
  generalize d.find p = r, d'.find p = r' at hfind ⊢
  cases hfind with
  | failed e => rfl
  | @found place n m h =>
    cases n with
    | directory entries =>
      obtain ⟨entries', rfl, _⟩ := h.exists_directory
      rfl
    | _ =>
      cases h.eq_of_not_directory rfl
      rfl

end Disk

end Typeahead
