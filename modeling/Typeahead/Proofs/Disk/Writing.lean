import Typeahead.Proofs.Disk.Lookup

/-!
What is read after something was written. A file that is put into a tree stands at its place, and all
other places hold what they held, so the path that led to the place when it was opened leads there
again.
-/
namespace Typeahead

namespace Node

variable {n new : Node} {entries : Entries} {name : FileName} {place other rest : List FileName}

/-! ## Places after a change -/

theorem put_nil (n new : Node) : n.put new [] = new := by
  unfold put
  rfl

theorem put_single (entries : Entries) (name : FileName) (new : Node) :
    (directory entries).put new [name] = directory (entries.set name new) := by
  simp [put]

theorem put_cons {child : Node} (h : entries.get? name = some child) :
    (directory entries).put new (name :: rest) =
      directory (entries.set name (child.put new rest)) := by
  cases rest with
  | nil => rw [put_single, put_nil]
  | cons => simp [put, h]

/-- What stands at a place is what stood there, but for the entries of a directory. -/
inductive Stays : Option Node → Option Node → Prop
  | same (o : Option Node) : Stays o o
  | directory (entries entries' : Entries) :
      Stays (some (.directory entries)) (some (.directory entries'))

theorem Stays.eq_link {target : Text} {o : Option Node} (h : Stays (some (.link target)) o) :
    o = some (.link target) := by
  cases h
  rfl

/-- What is no link becomes none. -/
theorem Stays.exists_of_not_link {child : Node} {o : Option Node} (h : Stays (some child) o)
    (hnot : ∀ target, child ≠ .link target) :
    ∃ child', o = some child' ∧ ∀ target, child' ≠ .link target := by
  cases h with
  | same => exact ⟨child, rfl, hnot⟩
  | directory _ entries' => exact ⟨.directory entries', rfl, nofun⟩

/-- Only what is at the place or below it changes. -/
theorem stays_get?_put (h : ¬ place <+: other) :
    Stays (n.get? other) ((n.put new place).get? other) := by
  induction place generalizing n other with
  | nil => exact absurd (List.nil_prefix) h
  | cons name rest ih =>
    cases n with
    | directory entries =>
      cases other with
      | nil =>
        unfold put
        dsimp only
        split
        · exact .directory _ _
        · exact .directory _ _
        · exact .same _
      | cons name' rest' =>
        by_cases hname : name' = name
        · subst hname
          have hrest : ¬ rest <+: rest' := fun hpre => h (List.prefix_cons_inj _ |>.2 hpre)
          cases hchild : entries.get? name' with
          | some child =>
            rw [put_cons hchild, get?_cons, get?_cons, hchild, Entries.get?_set]
            exact ih hrest
          | none =>
            cases rest with
            | nil => exact absurd List.nil_prefix hrest
            | cons => simpa [put, hchild] using Stays.same _
        · have hother : ∀ child, (directory (entries.set name child)).get? (name' :: rest') =
              (directory entries).get? (name' :: rest') := by
            intro child
            rw [get?_cons, get?_cons, Entries.get?_set_of_ne _ _ hname]
          unfold put
          dsimp only
          split
          · rw [hother]
            exact .same _
          · rw [hother]
            exact .same _
          · exact .same _
    | _ => exact .same _

/-- A file can be written at the place: one is there, or nothing is and the directory above is. -/
inductive IsOpen (n : Node) (place : List FileName) : Prop
  | file {content : Content} {mode : Nat} (h : n.get? place = some (.file content mode))
  | free {above : List FileName} {name : FileName} {entries : Entries}
      (hplace : place = above ++ [name]) (habove : n.get? above = some (.directory entries))
      (h : entries.get? name = none)

theorem get?_put_of_get? {old : Node} (h : n.get? place = some old) :
    (n.put new place).get? place = some new := by
  induction place generalizing n with
  | nil => simp [put_nil]
  | cons name rest ih =>
    cases n with
    | directory entries =>
      rw [get?_cons] at h
      obtain ⟨child, hchild, hold⟩ := Option.bind_eq_some_iff.1 h
      rw [put_cons hchild, get?_cons, Entries.get?_set]
      exact ih hold
    | _ => simp [get?] at h

theorem get?_put_concat {above : List FileName} (h : n.get? above = some (.directory entries))
    (name : FileName) : (n.put new (above ++ [name])).get? (above ++ [name]) = some new := by
  induction above generalizing n with
  | nil =>
    obtain rfl : n = .directory entries := by simpa using h
    simp [put_single, get?_cons, Entries.get?_set]
  | cons name' rest ih =>
    cases n with
    | directory entries' =>
      rw [get?_cons] at h
      obtain ⟨child, hchild, hbelow⟩ := Option.bind_eq_some_iff.1 h
      rw [List.cons_append, put_cons hchild, get?_cons, Entries.get?_set]
      exact ih hbelow
    | _ => simp [get?] at h

/-- What was put stands at its place. -/
theorem IsOpen.get?_put (h : n.IsOpen place) : (n.put new place).get? place = some new := by
  cases h with
  | file h => exact get?_put_of_get? h
  | free hplace habove _ =>
    subst hplace
    exact get?_put_concat habove _

/-- Nothing but a file stands at the place. -/
theorem IsOpen.get?_cases (h : n.IsOpen place) :
    n.get? place = none ∨ ∃ content mode, n.get? place = some (.file content mode) := by
  cases h with
  | file h => exact Or.inr ⟨_, _, h⟩
  | free hplace habove h =>
    left
    rw [hplace, get?_concat habove, h]

theorem IsOpen.ne_link (h : n.IsOpen place) (target : Text) :
    n.get? place ≠ some (.link target) := by
  rcases h.get?_cases with hnone | ⟨_, _, hfile⟩ <;> simp_all

/-- No directory is at the place or below it. -/
theorem IsOpen.not_prefix (h : n.IsOpen place) (hother : n.get? other = some (.directory entries)) :
    ¬ place <+: other := by
  rintro ⟨rest, rfl⟩
  rw [get?_append] at hother
  rcases h.get?_cases with hnone | ⟨content, mode, hfile⟩
  · simp [hnone] at hother
  · cases rest with
    | nil => simp [hfile] at hother
    | cons => simp [hfile, get?] at hother

/-- A directory is still there, and each of its entries stays but for the one that was put. -/
theorem IsOpen.exists_directory (h : n.IsOpen place) (new : Node)
    (hother : n.get? other = some (.directory entries)) :
    ∃ entries', (n.put new place).get? other = some (.directory entries') ∧
      ∀ name, other ++ [name] ≠ place → Stays (entries.get? name) (entries'.get? name) := by
  have hnot := h.not_prefix hother
  have hstays : Stays (n.get? other) ((n.put new place).get? other) := stays_get?_put hnot
  rw [hother] at hstays
  have hentries : ∃ entries', (n.put new place).get? other = some (.directory entries') := by
    generalize (n.put new place).get? other = after at hstays
    cases hstays with
    | same => exact ⟨entries, rfl⟩
    | directory _ entries' => exact ⟨entries', rfl⟩
  obtain ⟨entries', hentries⟩ := hentries
  refine ⟨entries', hentries, fun name hne => ?_⟩
  rw [← get?_concat hother, ← get?_concat hentries]
  apply stays_get?_put
  intro hpre
  rcases List.prefix_concat_iff.1 hpre with heq | hpre
  · exact hne heq.symm
  · exact hnot hpre

end Node

/-! ## Paths after a change -/

namespace Disk

variable {root : Node} {content : Content} {mode : Nat} {place p : List FileName}
  {steps : List Path.Step} {old : Option Nat}

/-- Walking to a file that is to be written leads to one that is there or can be made. -/
theorem isOpen_of_openWith
    {follow : List FileName → List Path.Step → Except DiskError (List FileName × Option Nat)}
    (hfollow : ∀ place steps, follow place steps = .ok (p, old) → root.IsOpen p)
    (h : openWith root follow place steps = .ok (p, old)) : root.IsOpen p := by
  induction steps generalizing place with
  | nil =>
    unfold openWith at h
    split at h
    · rename_i hfile
      cases h
      exact .file hfile
    · cases h
    · cases h
  | cons step rest ih =>
    unfold openWith at h
    split at h
    · rename_i entries hplace
      cases step with
      | here => exact ih h
      | up => exact ih h
      | child name =>
        dsimp only at h
        split at h
        · cases h
        · split at h
          · rename_i hnone
            split at h
            · cases h
              exact .free rfl hplace hnone
            · cases h
          · exact hfollow _ _ h
          · exact ih h
    · cases h
    · cases h

/-- The way to a file that was opened leads, after it was put there, to what was put. -/
theorem walkWith_put
    {follow : List FileName → List Path.Step → Except DiskError (List FileName × Option Nat)}
    {follow' : List FileName → List Path.Step → Except DiskError Found}
    (hopen : root.IsOpen p)
    (hfollow : ∀ place steps, follow place steps = .ok (p, old) →
      follow' place steps = .ok ⟨p, .file content mode⟩)
    (h : openWith root follow place steps = .ok (p, old)) :
    walkWith (root.put (.file content mode) p) true follow' place steps =
      .ok ⟨p, .file content mode⟩ := by
  have hput : (root.put (.file content mode) p).get? p = some (.file content mode) := hopen.get?_put
  induction steps generalizing place with
  | nil =>
    unfold openWith at h
    split at h
    · cases h
      unfold walkWith
      rw [hput]
    · cases h
    · cases h
  | cons step rest ih =>
    unfold openWith at h
    split at h
    · rename_i entries hplace
      obtain ⟨entries', hplace', hstays⟩ := hopen.exists_directory (.file content mode) hplace
      unfold walkWith
      rw [hplace']
      cases step with
      | here => exact ih h
      | up => exact ih h
      | child name =>
        dsimp only at h ⊢
        split at h
        · cases h
        · rename_i hsize
          rw [if_neg hsize]
          by_cases hhere : place ++ [name] = p
          · -- The step leads to the file that was put.
            have hchild : entries'.get? name = some (.file content mode) := by
              rw [← Node.get?_concat hplace', hhere, hput]
            rw [hchild]
            split at h
            · split at h
              · rename_i hlast
                obtain rfl := List.isEmpty_iff.1 hlast
                unfold walkWith
                rw [hhere, hput]
              · cases h
            · rename_i target hlink
              rw [← Node.get?_concat hplace, hhere] at hlink
              exact absurd hlink (hopen.ne_link target)
            · exact ih h
          · have hstays := hstays name hhere
            split at h
            · split at h
              · cases h
                exact absurd rfl hhere
              · cases h
            · rename_i target hlink
              rw [hlink] at hstays
              rw [hstays.eq_link]
              simpa using hfollow _ _ h
            · rename_i child hnot hchild
              rw [hchild] at hstays
              obtain ⟨child', hchild', hnot'⟩ := hstays.exists_of_not_link hnot
              rw [hchild']
              cases child' with
              | link target => exact absurd rfl (hnot' target)
              | file _ _ => exact ih h
              | directory _ => exact ih h
    · cases h
    · cases h

theorem isOpen_of_openForWriting {links : Nat}
    (h : openForWriting root links place steps = .ok (p, old)) : root.IsOpen p := by
  induction links generalizing place steps with
  | zero => cases h
  | succ links ih =>
    unfold openForWriting at h
    split at h
    · exact isOpen_of_openWith (fun _ _ => ih) h
    · cases h

theorem walk_put {links : Nat} (h : openForWriting root links place steps = .ok (p, old)) :
    walk (root.put (.file content mode) p) true links place steps =
      .ok ⟨p, .file content mode⟩ := by
  have hopen := isOpen_of_openForWriting h
  induction links generalizing place steps with
  | zero => cases h
  | succ links ih =>
    unfold openForWriting at h
    split at h
    · exact walkWith_put hopen (fun _ _ => ih) h
    · cases h

variable {d d' : Disk} {path t : Text}

theorem find_of_write (h : d.write path content mode = .ok d') :
    ∃ place mode', d'.find path = .ok ⟨place, .file content mode'⟩ := by
  unfold write at h
  cases hcheck : checkPath path with
  | error e =>
    rw [hcheck] at h
    cases h
  | ok =>
    rw [hcheck] at h
    dsimp only [bind, Except.bind] at h
    split at h
    · cases h
    · rename_i opened hopened
      obtain ⟨place, old⟩ := opened
      cases h
      refine ⟨place, old.getD mode, ?_⟩
      unfold find
      rw [hcheck]
      exact walk_put hopened

/-- What was written is read. -/
theorem readText_of_write (h : d.write path (.text t) mode = .ok d') :
    d'.readText path = .ok t := by
  obtain ⟨place, mode', hfind⟩ := find_of_write h
  unfold readText
  rw [hfind]
  rfl

theorem pathExists_of_write (h : d.write path content mode = .ok d') :
    d'.pathExists path = true := by
  obtain ⟨place, mode', hfind⟩ := find_of_write h
  unfold pathExists
  rw [hfind]
  rfl

end Disk

end Typeahead
