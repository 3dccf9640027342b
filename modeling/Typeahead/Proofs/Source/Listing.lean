import Typeahead.Proofs.Candidate.Matching
import Typeahead.Proofs.Source.Offers

/-!
Files offered for a path: one candidate for each entry of the directory that matches and is not hidden, the
best ones first, and as many as the limit allows. The order in which the directory is listed does not
matter.
-/
namespace Typeahead

/-! ## Offers of entries -/

/-- An entry matches what was typed of its name, and is not hidden unless a dot was typed. -/
def IsOffered (typed : Text) (e : FileName × Node) : Prop :=
  0 < matchScore e.1.shown typed ∧ (e.1.shown.head? = some '.' → typed.head? = some '.')

instance (typed : Text) (e : FileName × Node) : Decidable (IsOffered typed e) :=
  inferInstanceAs (Decidable (_ ∧ _))

/-- The candidate for an entry: behind the directory part its name, for a directory with a slash behind
and five points more. -/
def entryCandidate (part typed : Text) (e : FileName × Node) : Candidate :=
  let shown := if e.2.isDirectory then e.1.shown ++ ['/'] else e.1.shown
  { value := part ++ shown
    group := .file
    score := Float.ofNat (matchScore e.1.shown typed + if e.2.isDirectory then 5 else 0)
    source := "file".toList
    display := some shown
    description := some (if e.2.isDirectory then "directory" else "file").toList }

/-- The order of files: by score, the higher one first, then by value. -/
def InFileOrder (a b : Candidate) : Prop :=
  b.score < a.score ∨ a.score = b.score ∧ Text.le a.value b.value = true

/-- What counts of an entry: its name, and whether it is a directory. -/
def entryKind (e : FileName × Node) : FileName × Bool := (e.1, e.2.isDirectory)

namespace FileOffer

variable {part typed : Text}

/-- The offer of an entry that is offered. -/
def ofEntry (part typed : Text) (e : FileName × Node) : FileOffer :=
  if e.2.isDirectory then
    ⟨matchScore e.1.shown typed + 5, part ++ e.1.shown ++ ['/'], e.1.shown ++ ['/'], true⟩
  else ⟨matchScore e.1.shown typed, part ++ e.1.shown, e.1.shown, false⟩

theorem ofEntry?_eq (part typed : Text) (e : FileName × Node) :
    ofEntry? part typed e.1.shown e.2.isDirectory =
      if IsOffered typed e then some (ofEntry part typed e) else none := by
  have hvisible : (e.1.shown.head? = some '.' && typed.head? ≠ some '.') = false ↔
      (e.1.shown.head? = some '.' → typed.head? = some '.') := by simp
  unfold ofEntry?
  split
  · rename_i hhidden
    rw [if_neg fun h : IsOffered typed e => ?_]
    exact Bool.false_ne_true ((hvisible.2 h.2).symm.trans hhidden)
  · rename_i hhidden
    have hshown := hvisible.1 (Bool.eq_false_iff.2 hhidden)
    split
    · rename_i hscore
      rw [if_neg fun h : IsOffered typed e => ?_]
      exact h.1.ne' hscore
    · rename_i hscore
      have hoffered : IsOffered typed e := ⟨Nat.pos_of_ne_zero hscore, hshown⟩
      rw [if_pos hoffered]
      unfold ofEntry
      cases e.2.isDirectory <;> rfl

theorem candidate_ofEntry (part typed : Text) (e : FileName × Node) :
    (ofEntry part typed e).candidate = entryCandidate part typed e := by
  unfold ofEntry entryCandidate candidate
  cases e.2.isDirectory <;> simp

theorem score_bounds {e : FileName × Node} (h : IsOffered typed e) :
    50 ≤ (ofEntry part typed e).score ∧ (ofEntry part typed e).score ≤ 105 := by
  have hscore := matchScore_bounds h.1
  unfold ofEntry
  split
  · dsimp only
    omega
  · dsimp only
    omega

/-! ## The order of offers -/

theorem le_total (a b : FileOffer) : (le a b || le b a) = true := by
  unfold le
  by_cases h : a.score = b.score
  · simpa [h] using Text.le_total a.value b.value
  · simp only [h, Ne.symm h, if_false, Bool.or_eq_true, decide_eq_true_eq]
    omega

theorem le_trans (a b c : FileOffer) (hab : le a b = true) (hbc : le b c = true) : le a c = true := by
  unfold le at *
  by_cases hscore : a.score = b.score <;> by_cases hscore' : b.score = c.score
  · simp only [hscore, hscore', if_true] at *
    exact Text.le_trans hab hbc
  · simp_all
  · simp_all
  · simp only [hscore, hscore', if_false, decide_eq_true_eq] at hab hbc
    rw [if_neg (by omega), decide_eq_true_iff]
    omega

/-- Offers that come before each other have one score and one value. -/
theorem eq_of_le (a b : FileOffer) (hab : le a b = true) (hba : le b a = true) :
    a.score = b.score ∧ a.value = b.value := by
  unfold le at *
  by_cases hscore : a.score = b.score
  · simp only [hscore, if_true] at hab hba
    exact ⟨hscore, Text.le_antisymm hab hba⟩
  · simp only [hscore, Ne.symm hscore, if_false, decide_eq_true_eq] at hab hba
    omega

theorem inFileOrder_of_le {a b : FileName × Node} (ha : IsOffered typed a) (hb : IsOffered typed b)
    (h : le (ofEntry part typed a) (ofEntry part typed b) = true) :
    InFileOrder (entryCandidate part typed a) (entryCandidate part typed b) := by
  rw [← candidate_ofEntry, ← candidate_ofEntry]
  unfold le at h
  unfold InFileOrder candidate
  split at h
  · rename_i hscore
    exact Or.inr ⟨congrArg Float.ofNat hscore, h⟩
  · exact Or.inl (Score.ofNat_lt (score_bounds hb).1 (of_decide_eq_true h) (score_bounds ha).2)

/-- Offers of one score and one value are the same: a file whose name ends in a slash would match no
better than the directory without it. -/
theorem ofEntry_eq {a b : FileName × Node} (htyped : '/' ∉ typed) (ha : IsOffered typed a)
    (hb : IsOffered typed b) (hscore : (ofEntry part typed a).score = (ofEntry part typed b).score)
    (hvalue : (ofEntry part typed a).value = (ofEntry part typed b).value) :
    ofEntry part typed a = ofEntry part typed b := by
  have hslash : ∀ name, 0 < matchScore name typed →
      matchScore (name ++ ['/']) typed ≠ matchScore name typed + 5 := by
    intro name h
    have hle := matchScore_concat_le htyped h
    omega
  unfold ofEntry at *
  by_cases hda : a.2.isDirectory <;> by_cases hdb : b.2.isDirectory
  · simp only [hda, hdb, if_true, List.append_assoc, List.append_cancel_left_eq,
      List.append_cancel_right_eq] at hvalue ⊢
    rw [hvalue]
  · simp only [hda, hdb, if_true, if_false, Bool.false_eq_true, List.append_assoc,
      List.append_cancel_left_eq] at hvalue hscore
    exact absurd (hvalue ▸ hscore.symm) (hslash a.1.shown ha.1)
  · simp only [hda, hdb, if_true, if_false, Bool.false_eq_true, List.append_assoc,
      List.append_cancel_left_eq] at hvalue hscore
    exact absurd (hvalue ▸ hscore) (hslash b.1.shown hb.1)
  · simp only [hda, hdb, if_false, Bool.false_eq_true, List.append_cancel_left_eq] at hvalue ⊢
    rw [hvalue]

end FileOffer

/-! ## The files of a directory -/

section Directory

open FileOffer

variable {part typed : Text} {limit : Nat} {entries : List (FileName × Node)}

/-- The offers of a directory. -/
def offersOf (part typed : Text) (entries : List (FileName × Node)) : List FileOffer :=
  entries.filterMap fun (name, node) => ofEntry? part typed name.shown node.isDirectory

theorem offersOf_eq (part typed : Text) (entries : List (FileName × Node)) :
    offersOf part typed entries =
      (entries.filter fun e => decide (IsOffered typed e)).map (ofEntry part typed) := by
  unfold offersOf
  induction entries with
  | nil => rfl
  | cons e rest ih =>
    have he := ofEntry?_eq part typed e
    by_cases hoffered : IsOffered typed e
    · rw [if_pos hoffered] at he
      simp [he, hoffered, ih]
    · rw [if_neg hoffered] at he
      simp [he, hoffered, ih]

/-- Only the names and the kinds of the entries count. -/
theorem offersOf_eq_kinds (part typed : Text) (entries : List (FileName × Node)) :
    offersOf part typed entries =
      (entries.map entryKind).filterMap fun (name, isDirectory) =>
        ofEntry? part typed name.shown isDirectory := by
  unfold offersOf
  rw [List.filterMap_map]
  rfl

theorem exists_fileCandidates (part typed : Text) (limit : Nat) (entries : List (FileName × Node)) :
    ∃ es : List (FileName × Node), es.Perm (entries.filter fun e => decide (IsOffered typed e)) ∧
      (es.map (entryCandidate part typed)).Pairwise InFileOrder ∧
      fileCandidates part typed limit entries = (es.map (entryCandidate part typed)).take limit := by
  let before (a b : FileName × Node) : Bool := le (ofEntry part typed a) (ofEntry part typed b)
  refine ⟨(entries.filter fun e => decide (IsOffered typed e)).mergeSort before,
    List.mergeSort_perm _ _, ?_, ?_⟩
  · rw [List.pairwise_map]
    have htrans : ∀ a b c, before a b = true → before b c = true → before a c = true :=
      fun _ _ _ => le_trans _ _ _
    have hsorted := List.pairwise_mergeSort htrans (fun _ _ => le_total _ _)
      (entries.filter fun e => decide (IsOffered typed e))
    have hoffered : ∀ e ∈ (entries.filter fun e => decide (IsOffered typed e)).mergeSort before,
        IsOffered typed e := fun e he =>
      of_decide_eq_true (List.mem_filter.1 (List.mem_mergeSort.1 he)).2
    exact hsorted.imp_of_mem fun ha hb => inFileOrder_of_le (hoffered _ ha) (hoffered _ hb)
  · have hmap := List.map_mergeSort (r := before) (s := le) (f := ofEntry part typed)
      (l := entries.filter fun e => decide (IsOffered typed e)) fun a _ b _ => rfl
    have hcandidate : candidate ∘ ofEntry part typed = entryCandidate part typed :=
      funext (candidate_ofEntry part typed)
    calc fileCandidates part typed limit entries
        = (((offersOf part typed entries).mergeSort le).take limit).map candidate := rfl
      _ = _ := by rw [offersOf_eq, ← hmap, List.map_take, List.map_map, hcandidate]

theorem fileCandidates_congr {entries' : List (FileName × Node)} (htyped : '/' ∉ typed)
    (h : (entries'.map entryKind).Perm (entries.map entryKind)) :
    fileCandidates part typed limit entries' = fileCandidates part typed limit entries := by
  have hperm : (offersOf part typed entries').Perm (offersOf part typed entries) := by
    rw [offersOf_eq_kinds, offersOf_eq_kinds]
    exact h.filterMap _
  have hsorted : ∀ offers : List FileOffer, (offers.mergeSort le).Pairwise fun a b => le a b = true :=
    List.pairwise_mergeSort le_trans le_total
  have hsame : (offersOf part typed entries').mergeSort le = (offersOf part typed entries).mergeSort le := by
    have hsort := (List.mergeSort_perm (offersOf part typed entries') le).trans
      (hperm.trans (List.mergeSort_perm _ le).symm)
    refine hsort.eq_of_pairwise ?_ (hsorted _) (hsorted _)
    intro a b ha hb hab hba
    obtain ⟨hscore, hvalue⟩ := eq_of_le a b hab hba
    rw [List.mem_mergeSort, offersOf_eq] at ha hb
    obtain ⟨x, hx, rfl⟩ := List.mem_map.1 ha
    obtain ⟨y, hy, rfl⟩ := List.mem_map.1 hb
    exact ofEntry_eq htyped (of_decide_eq_true (List.mem_filter.1 hx).2)
      (of_decide_eq_true (List.mem_filter.1 hy).2) hscore hvalue
  exact congrArg (fun offers => (offers.take limit).map candidate) hsame

end Directory

/-- The files offered for a path, in a directory that can be read, are as many as the limit allows of the
entries that match what was typed behind the last slash and are not hidden, one candidate for each, the
best ones first. What is left out comes behind all that is kept, and only the names and kinds of the entries
count, not the order in which they are listed. -/
theorem the_files_offered_are_the_best_of_the_directory {d : Disk} {home : Text} {s : Snapshot}
    {part typed : Text} {entries : List (FileName × Node)} (hpath : s.trigger.typed = part ++ typed)
    (hpart : part = [] ∨ part.getLast? = some '/') (htyped : '/' ∉ typed)
    (hlist : d.list (typedDirectory home s.directory part) = .ok entries) (limit : Nat) :
    ∃ es : List (FileName × Node), es.Perm (entries.filter fun e => decide (IsOffered typed e)) ∧
      (es.map (entryCandidate part typed)).Pairwise InFileOrder ∧
      completeFiles d home limit s = .ok ((es.map (entryCandidate part typed)).take limit) ∧
      (∀ kept ∈ (es.map (entryCandidate part typed)).take limit,
        ∀ left ∈ (es.map (entryCandidate part typed)).drop limit, InFileOrder kept left) ∧
      ∀ d' entries', d'.list (typedDirectory home s.directory part) = .ok entries' →
        (entries'.map entryKind).Perm (entries.map entryKind) →
        completeFiles d' home limit s = completeFiles d home limit s := by
  have hcut : Text.splitAfterLast '/' s.trigger.typed = (part, typed) := by
    rw [hpath, Text.splitAfterLast_eq hpart htyped]
  have hfiles : ∀ d' entries', d'.list (typedDirectory home s.directory part) = .ok entries' →
      completeFiles d' home limit s = .ok (fileCandidates part typed limit entries') := by
    intro d' entries' hlist'
    unfold completeFiles
    rw [hcut]
    dsimp only
    rw [hlist']
  obtain ⟨es, hperm, hsorted, htake⟩ := exists_fileCandidates part typed limit entries
  refine ⟨es, hperm, hsorted, ?_, ?_, ?_⟩
  · rw [hfiles d entries hlist, htake]
  · have hcut := List.take_append_drop limit (es.map (entryCandidate part typed))
    rw [← hcut, List.pairwise_append] at hsorted
    exact hsorted.2.2
  · intro d' entries' hlist' hkinds
    rw [hfiles d' entries' hlist', hfiles d entries hlist, fileCandidates_congr htyped hkinds]

/-- A directory in which two names are no text, and one is hidden. -/
def bed : List (FileName × Node) :=
  let file : Node := .file (.text []) 0o644
  [(.text "mango".toList, file), (.text ".moss".toList, file), (.bytes [0x6D, 0xFF], file),
    (.text "Melon".toList, file), (.text "mint".toList, .emptyDirectory), (.bytes [0x6D, 0xFE], file),
    (.text "figs".toList, file)]

/-- A disk with a bed of the given entries. -/
def plot (entries : List (FileName × Node)) : Disk where
  current := []
  root := .directory (.ofList [(.text "bed".toList, .directory (.ofList entries))])

/-- Of the four files and the directory that match three are offered, and the same ones if the bed is listed
backwards. -/
theorem three_of_five_in_the_bed_are_offered :
    let s := Snapshot.ofLine "cat bed/m".toList 9 .shell ['/']
    let part := "bed/".toList
    let typed := "m".toList
    s.trigger.typed = part ++ typed ∧ part.getLast? = some '/' ∧ '/' ∉ typed ∧
      (plot bed).list (typedDirectory [] s.directory part) = .ok bed ∧
      ((bed.filter fun e => decide (IsOffered typed e)).map fun e => e.1.shown) =
        ["mango".toList, "m\uFFFD".toList, "Melon".toList, "mint".toList, "m\uFFFD".toList] ∧
      (∃ es : List (FileName × Node), es.Perm (bed.filter fun e => decide (IsOffered typed e)) ∧
        (es.map (entryCandidate part typed)).Pairwise InFileOrder ∧
        completeFiles (plot bed) [] 3 s = .ok ((es.map (entryCandidate part typed)).take 3)) ∧
      completeFiles (plot bed.reverse) [] 3 s = completeFiles (plot bed) [] 3 s := by
  intro s part typed
  have hpath : s.trigger.typed = part ++ typed := by decide
  have htyped : '/' ∉ typed := by decide
  have hlist : (plot bed).list (typedDirectory [] s.directory part) = .ok bed := rfl
  obtain ⟨es, hperm, hsorted, hfiles, _, hsame⟩ :=
    the_files_offered_are_the_best_of_the_directory hpath (.inr rfl) htyped hlist 3
  refine ⟨hpath, rfl, htyped, hlist, by decide +kernel, ⟨es, hperm, hsorted, hfiles⟩, ?_⟩
  exact hsame (plot bed.reverse) bed.reverse rfl ((List.reverse_perm bed).map entryKind)

end Typeahead
