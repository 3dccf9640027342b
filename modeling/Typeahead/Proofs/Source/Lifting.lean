import Mathlib.Data.List.Forall2
import Typeahead.Proofs.Candidate.Promotion
import Typeahead.World

/-!
What recent use does to the answer of a source. A failure passes through; of candidates nothing
changes but the scores of those that the recent entries use, and the group of the one among them that
has the first of the greatest bonuses.
-/
namespace Typeahead

variable {entries : List Entry} {now time : Instant} {c d : Candidate} {cs ds : List Candidate}

/-! ## The use of a candidate -/

namespace Candidate

/-- How often the entries use the candidate: a program counts once for each entry that it is the first
word of, anything else as often as it is among the words. -/
def timesUsed (entries : List Entry) (c : Candidate) : Nat :=
  if c.IsProgram then entries.countP fun e => (Text.words e.command).head? = some c.value
  else (entries.flatMap fun e => Text.words e.command).count c.value

/-- The candidate is used so many times, and for the last time at the instant. -/
structure HasUsage (entries : List Entry) (c : Candidate) (u : Usage) : Prop where
  count : u.count = c.timesUsed entries
  last : ∃ e ∈ entries, c.IsUsedBy e ∧ e.time = u.last
  latest : ∀ e ∈ entries, c.IsUsedBy e → e.time ≤ u.last

theorem HasUsage.isUsed {u : Usage} (h : c.HasUsage entries u) : c.IsUsed entries := by
  obtain ⟨e, he, huses, _⟩ := h.last
  exact ⟨e, he, huses⟩

theorem HasUsage.unique {u v : Usage} (hu : c.HasUsage entries u) (hv : c.HasUsage entries v) :
    u = v := by
  obtain ⟨d, hd, hdu, hdlast⟩ := hu.last
  obtain ⟨e, he, hev, helast⟩ := hv.last
  have hle := hv.latest d hd hdu
  have hge := hu.latest e he hev
  rw [Usage.mk.injEq, hu.count, hv.count]
  exact ⟨rfl, Int.le_antisymm (hdlast ▸ hle) (helast ▸ hge)⟩

/-- One more entry counts as often as the candidate is among the words that its group looks at. -/
theorem timesUsed_snoc (entries : List Entry) (e : Entry) (c : Candidate) :
    c.timesUsed (entries ++ [e]) = c.timesUsed entries + (c.group.uses e).count c.value := by
  unfold timesUsed
  rw [uses_eq]
  split
  · -- An entry has one first word or none, so it counts once or not at all.
    have hfirst : ∀ word? : Option Text,
        word?.toList.count c.value = if word? = some c.value then 1 else 0 := by
      intro word?
      cases word? <;> simp [List.count_singleton]
    rw [hfirst, List.countP_append, List.countP_singleton]
    simp only [decide_eq_true_eq]
  · rw [List.flatMap_append, List.count_append, List.flatMap_singleton]

theorem timesUsed_eq_zero (h : ¬ c.IsUsed entries) : c.timesUsed entries = 0 := by
  have hunused : ∀ e ∈ entries, ¬ c.IsUsedBy e := fun e he huses => h ⟨e, he, huses⟩
  unfold IsUsedBy at hunused
  unfold timesUsed
  by_cases hprogram : c.IsProgram
  · simp only [if_pos hprogram] at hunused ⊢
    rw [List.countP_eq_zero]
    intro e he
    rw [decide_eq_true_iff]
    exact hunused e he
  · simp only [if_neg hprogram] at hunused ⊢
    rw [List.count_eq_zero]
    intro hmem
    obtain ⟨e, he, hword⟩ := List.mem_flatMap.1 hmem
    exact hunused e he hword

variable {e : Entry} {u : Usage}

/-- An entry without a use changes nothing. -/
theorem HasUsage.snoc_of_not (h : c.HasUsage entries u) (hnot : ¬ c.IsUsedBy e) :
    c.HasUsage (entries ++ [e]) u := by
  obtain ⟨d, hd, hlast⟩ := h.last
  constructor
  · rw [timesUsed_snoc, List.count_eq_zero.2 (mt mem_uses_iff.1 hnot), h.count]
    rfl
  · exact ⟨d, List.mem_append_left _ hd, hlast⟩
  · exact List.forall_mem_append.2
      ⟨h.latest, List.forall_mem_singleton.2 fun huses => absurd huses hnot⟩

theorem hasUsage_of_first (h : ¬ c.IsUsed entries) (huses : c.IsUsedBy e) :
    c.HasUsage (entries ++ [e]) ⟨(c.group.uses e).count c.value, e.time⟩ := by
  constructor
  · rw [timesUsed_snoc, timesUsed_eq_zero h, Nat.zero_add]
  · exact ⟨e, List.mem_concat_self, huses, rfl⟩
  · exact List.forall_mem_append.2
      ⟨fun d hd hused => absurd ⟨d, hd, hused⟩ h, List.forall_mem_singleton.2 fun _ => Int.le_refl _⟩

theorem HasUsage.snoc (h : c.HasUsage entries u) (huses : c.IsUsedBy e) :
    c.HasUsage (entries ++ [e])
      ⟨u.count + (c.group.uses e).count c.value, max u.last e.time⟩ := by
  obtain ⟨d, hd, hdused, hlast⟩ := h.last
  constructor
  · rw [timesUsed_snoc, ← h.count]
  · -- The later one of the last use before and this one.
    rcases Int.le_total u.last e.time with hle | hle
    · exact ⟨e, List.mem_concat_self, huses, (Int.max_eq_right hle).symm⟩
    · exact ⟨d, List.mem_append_left _ hd, hdused, hlast.trans (Int.max_eq_left hle).symm⟩
  · have hbefore : ∀ d ∈ entries, c.IsUsedBy d → d.time ≤ max u.last e.time :=
      fun d hd hused => Int.le_trans (h.latest d hd hused) (Int.le_max_left _ _)
    exact List.forall_mem_append.2
      ⟨hbefore, List.forall_mem_singleton.2 fun _ => Int.le_max_right _ _⟩

end Candidate

theorem Usage.among_snoc (uses : Entry → List Text) (entries : List Entry) (e : Entry)
    (value : Text) :
    among uses (entries ++ [e]) value =
      record (among uses entries value) ((uses e).count value) e.time := by
  simp [among]

/-- What is found in the entries is the use of the candidate. -/
theorem Candidate.hasUsage_of_among {u : Usage}
    (h : Usage.among c.group.uses entries c.value = some u) : c.HasUsage entries u := by
  -- By induction on the entries, the last one recorded last.
  induction entries using List.reverseRecOn generalizing u with
  | nil => cases h
  | append_singleton entries e ih =>
    rw [Usage.among_snoc] at h
    unfold Usage.record at h
    split at h
    · rename_i hzero
      exact (ih h).snoc_of_not (mt Candidate.mem_uses_iff.2 (List.count_eq_zero.1 hzero))
    · rename_i hne
      have huses : c.IsUsedBy e :=
        Candidate.mem_uses_iff.1 (List.count_pos_iff.1 (Nat.pos_of_ne_zero hne))
      cases hbefore : Usage.among c.group.uses entries c.value with
      | some before =>
        rw [hbefore] at h
        cases h
        exact (ih hbefore).snoc huses
      | none =>
        rw [hbefore] at h
        cases h
        have hunused : ¬ c.IsUsed entries := by
          intro hused
          have hfound := isSome_among_iff.2 hused
          rw [hbefore] at hfound
          cases hfound
        exact hasUsage_of_first hunused huses

/-! ## Bonuses -/

/-- The frecency of the use of the candidate. -/
def Candidate.HasBonus (entries : List Entry) (now : Instant) (c : Candidate) (bonus : Float) :
    Prop :=
  ∃ u, c.HasUsage entries u ∧ bonus = u.frecency now

theorem recencyBonus_eq_some_iff {bonus : Float} :
    recencyBonus entries now c = some bonus ↔ c.HasBonus entries now bonus := by
  unfold recencyBonus
  constructor
  · intro h
    obtain ⟨u, hu, rfl⟩ := Option.map_eq_some_iff.1 h
    exact ⟨u, Candidate.hasUsage_of_among hu, rfl⟩
  · rintro ⟨u, hu, rfl⟩
    obtain ⟨v, hv⟩ := Option.isSome_iff_exists.1 (isSome_among_iff.2 hu.isUsed)
    rw [hv, (Candidate.hasUsage_of_among hv).unique hu]
    rfl

/-- The number is the first of the greatest bonuses: none of them is greater, and those before it
are not even as great. -/
structure IsFirstGreatest (bonuses : List (Option Float)) (i : Nat) (top : Float) : Prop where
  here : bonuses[i]? = some (some top)
  greatest : ∀ bonus, some bonus ∈ bonuses → ¬ top < bonus
  first : ∀ j < i, ∀ bonus, bonuses[j]? = some (some bonus) → ¬ top ≤ bonus

namespace IsFirstGreatest

variable {bonuses : List (Option Float)} {i : Nat} {top bonus : Float}

theorem lt_length (h : IsFirstGreatest bonuses i top) : i < bonuses.length := by
  obtain ⟨hlt, _⟩ := List.getElem?_eq_some_iff.1 h.here
  exact hlt

/-- What comes later and is not greater changes nothing. -/
theorem snoc (h : IsFirstGreatest bonuses i top) {last : Option Float}
    (hlast : ∀ bonus, last = some bonus → ¬ top < bonus) :
    IsFirstGreatest (bonuses ++ [last]) i top := by
  have hlt := h.lt_length
  constructor
  · rw [List.getElem?_append_left hlt]
    exact h.here
  · intro bonus hmem
    rcases List.mem_append.1 hmem with hmem | hmem
    · exact h.greatest bonus hmem
    · exact hlast bonus (List.mem_singleton.1 hmem).symm
  · intro j hj bonus hbonus
    rw [List.getElem?_append_left (hj.trans hlt)] at hbonus
    exact h.first j hj bonus hbonus

/-- A greater one takes the place. -/
theorem snoc_of_lt (h : IsFirstGreatest bonuses i top) (hlt : top < bonus) :
    IsFirstGreatest (bonuses ++ [some bonus]) bonuses.length bonus := by
  have hbelow : ∀ x, some x ∈ bonuses → ¬ bonus ≤ x :=
    fun x hx hle => h.greatest x hx (Score.lt_of_lt_of_le hlt hle)
  constructor
  · exact List.getElem?_concat_length ..
  · intro x hx hgreater
    rcases List.mem_append.1 hx with hx | hx
    · exact hbelow x hx (Score.le_of_lt hgreater)
    · cases List.mem_singleton.1 hx
      exact Score.not_lt_self bonus hgreater
  · intro j hj x hx
    rw [List.getElem?_append_left hj] at hx
    exact hbelow x (List.mem_of_getElem? hx)

/-- The first bonus at all is the greatest one. -/
theorem of_none (h : ∀ x, some x ∉ bonuses) :
    IsFirstGreatest (bonuses ++ [some bonus]) bonuses.length bonus := by
  constructor
  · exact List.getElem?_concat_length ..
  · intro x hx
    rcases List.mem_append.1 hx with hx | hx
    · exact absurd hx (h x)
    · cases List.mem_singleton.1 hx
      exact Score.not_lt_self bonus
  · intro j hj x hx
    rw [List.getElem?_append_left hj] at hx
    exact absurd (List.mem_of_getElem? hx) (h x)

end IsFirstGreatest

/-- What is remembered while bonuses are looked at: the first of the greatest ones so far, if there
was any. -/
def Remembers (seen : List (Option Float)) : Option (Nat × Float) → Prop
  | some (i, top) => IsFirstGreatest seen i top
  | none => ∀ bonus, some bonus ∉ seen

theorem isFirstGreatest_of_greatestFrom {seen bonuses : List (Option Float)}
    {best : Option (Nat × Float)} {i : Nat} (hbest : Remembers seen best)
    (h : greatestFrom best seen.length bonuses = some i) :
    ∃ top, IsFirstGreatest (seen ++ bonuses) i top := by
  -- By induction on the bonuses to come; each one moves to those seen.
  induction bonuses generalizing seen best with
  | nil =>
    obtain ⟨⟨j, top⟩, rfl, rfl⟩ := Option.map_eq_some_iff.1 h
    rw [List.append_nil]
    exact ⟨top, hbest⟩
  | cons bonus rest ih =>
    rw [← List.singleton_append, ← List.append_assoc]
    have hlength : (seen ++ [bonus]).length = seen.length + 1 := List.length_append
    cases bonus with
    | none =>
      have hsame : Remembers (seen ++ [none]) best := by
        cases best with
        | none => simpa [Remembers] using hbest
        | some p => exact IsFirstGreatest.snoc hbest nofun
      exact ih hsame (hlength ▸ h)
    | some bonus =>
      unfold greatestFrom at h
      refine ih ?_ (hlength ▸ h)
      cases best with
      | none => exact IsFirstGreatest.of_none hbest
      | some p =>
        dsimp only
        split
        · rename_i hlt
          exact IsFirstGreatest.snoc_of_lt hbest hlt
        · rename_i hnot
          apply IsFirstGreatest.snoc hbest
          intro x hx
          cases hx
          exact hnot

/-! ## Lifted candidates -/

/-- What the entries make of a candidate, its group apart: its score is raised by the frecency of its
use, if they use it, and all else stays. -/
structure Candidate.IsLifted (entries : List Entry) (now : Instant) (c d : Candidate) : Prop where
  value : d.value = c.value
  display : d.display = c.display
  description : d.description = c.description
  source : d.source = c.source
  icon : d.icon = c.icon
  raised : c.IsUsed entries →
    ∃ u, c.HasUsage entries u ∧ d.score = c.score + u.frecency now
  unused : ¬ c.IsUsed entries → d.score = c.score

/-- The candidate at the index has the first of the greatest bonuses. -/
def IsFavorite (entries : List Entry) (now : Instant) (cs : List Candidate) (i : Nat) : Prop :=
  ∃ c bonus, cs[i]? = some c ∧ c.HasBonus entries now bonus ∧
    (∀ d ∈ cs, ∀ other, d.HasBonus entries now other → ¬ bonus < other) ∧
    ∀ j < i, ∀ d other, cs[j]? = some d → d.HasBonus entries now other → ¬ bonus ≤ other

/-- The candidates are lifted one by one, and the favorite among them is promoted to the top group; if
none is used, nothing changes. -/
structure Lifts (entries : List Entry) (now : Instant) (cs ds : List Candidate) : Prop where
  each : List.Forall₂ (Candidate.IsLifted entries now) cs ds
  promoted : (∃ c ∈ cs, c.IsUsed entries) → ∃ i, IsFavorite entries now cs i ∧
    ds.map Candidate.group = (cs.map Candidate.group).set i .topSuggestion
  unused : (∀ c ∈ cs, ¬ c.IsUsed entries) → ds = cs

/-- The candidate with its bonus. -/
def Candidate.lift (entries : List Entry) (now : Instant) (c : Candidate) : Candidate :=
  match recencyBonus entries now c with
  | some bonus => { c with score := c.score + bonus }
  | none => c

theorem lifted_eq_map (entries : List Entry) (now : Instant) (cs : List Candidate) :
    lifted entries now cs = cs.map (Candidate.lift entries now) := by
  unfold lifted
  rw [List.zip_map_right, List.map_map]
  induction cs with
  | nil => rfl
  | cons c cs ih => exact congrArg (_ :: ·) ih

theorem Candidate.lift_of_not_isUsed (h : ¬ c.IsUsed entries) : c.lift entries now = c := by
  unfold lift
  split
  · rename_i bonus hbonus
    exact absurd (isSome_recencyBonus.1 (Option.isSome_of_eq_some hbonus)) h
  · rfl

theorem Candidate.isLifted_lift (entries : List Entry) (now : Instant) (c : Candidate) :
    c.IsLifted entries now (c.lift entries now) := by
  by_cases h : c.IsUsed entries
  · obtain ⟨bonus, hbonus⟩ := Option.isSome_iff_exists.1 (isSome_recencyBonus.2 h)
    obtain ⟨u, hu, rfl⟩ := recencyBonus_eq_some_iff.1 hbonus
    have hlift : c.lift entries now = { c with score := c.score + u.frecency now } := by
      unfold lift
      rw [hbonus]
    rw [hlift]
    exact ⟨rfl, rfl, rfl, rfl, rfl, fun _ => ⟨u, hu, rfl⟩, fun hnot => absurd h hnot⟩
  · rw [lift_of_not_isUsed h]
    exact ⟨rfl, rfl, rfl, rfl, rfl, fun hused => absurd hused h, fun _ => rfl⟩

theorem Candidate.IsLifted.promote (h : c.IsLifted entries now d) (group : Group) :
    c.IsLifted entries now { d with group } :=
  ⟨h.value, h.display, h.description, h.source, h.icon, h.raised, h.unused⟩

theorem forall₂_modify {α β : Type} {R : α → β → Prop} {f : β → β} (hf : ∀ a b, R a b → R a (f b))
    {as : List α} {bs : List β} (h : List.Forall₂ R as bs) (i : Nat) :
    List.Forall₂ R as (bs.modify i f) := by
  induction h generalizing i with
  | nil => simp
  | cons hab hrest ih =>
    cases i with
    | zero => exact .cons (hf _ _ hab) hrest
    | succ i => exact .cons hab (ih i)

theorem map_modify_const {α β : Type} {f : α → β} {g : α → α} {b : β} (h : ∀ a, f (g a) = b)
    (l : List α) (i : Nat) : (l.modify i g).map f = (l.map f).set i b := by
  induction l generalizing i with
  | nil => simp
  | cons a l ih => cases i <;> simp [h, ih]

theorem isFavorite_of_greatestFrom {i : Nat}
    (h : greatestFrom none 0 (cs.map (recencyBonus entries now)) = some i) :
    IsFavorite entries now cs i := by
  have hnothing : Remembers [] none := fun _ => List.not_mem_nil
  obtain ⟨top, hhere, hgreatest, hfirst⟩ := isFirstGreatest_of_greatestFrom hnothing h
  rw [List.nil_append] at hhere hgreatest hfirst
  rw [List.getElem?_map] at hhere
  obtain ⟨c, hc, hbonus⟩ := Option.map_eq_some_iff.1 hhere
  refine ⟨c, top, hc, recencyBonus_eq_some_iff.1 hbonus, ?_, ?_⟩
  · intro d hd other hother
    apply hgreatest
    rw [← recencyBonus_eq_some_iff.2 hother]
    exact List.mem_map_of_mem hd
  · intro j hj d other hd hother
    apply hfirst j hj
    rw [List.getElem?_map, hd, Option.map_some, recencyBonus_eq_some_iff.2 hother]

theorem lifts_boost (entries : List Entry) (now : Instant) (cs : List Candidate) :
    Lifts entries now cs (boost entries now cs) := by
  have heach : List.Forall₂ (Candidate.IsLifted entries now) cs (lifted entries now cs) := by
    rw [lifted_eq_map, List.forall₂_map_right_iff, List.forall₂_same]
    exact fun c _ => c.isLifted_lift entries now
  have hgroup : (lifted entries now cs).map Candidate.group = cs.map Candidate.group :=
    map_lifted (fun _ _ => rfl) entries now cs
  have hany := @isSome_greatestFrom_map entries cs now
  rw [boost_eq]
  cases hfavorite : greatestFrom none 0 (cs.map (recencyBonus entries now)) with
  | some i =>
    have hused := hany.1 (Option.isSome_of_eq_some hfavorite)
    constructor
    · exact forall₂_modify (fun _ _ h => h.promote _) heach i
    · intro _
      refine ⟨i, isFavorite_of_greatestFrom hfavorite, ?_⟩
      rw [← hgroup]
      apply map_modify_const
      intro c
      rfl
    · intro hnone
      obtain ⟨c, hc, huses⟩ := hused
      exact absurd huses (hnone c hc)
  | none =>
    have hnone : ¬ ∃ c ∈ cs, c.IsUsed entries := by
      rw [← hany, hfavorite]
      simp
    refine ⟨heach, fun hused => absurd hused hnone, fun hunused => ?_⟩
    dsimp only
    rw [lifted_eq_map]
    have hsame : ∀ c ∈ cs, c.lift entries now = c :=
      fun c hc => Candidate.lift_of_not_isUsed (hunused c hc)
    exact (List.map_congr_left hsame).trans (List.map_id' cs)

/-- A source lifted by recent use fails as the source does. Of candidates it gives the same ones in
the same order, lifted by the last entries within the limits, as many as the window is long. -/
theorem recent_use_lifts_and_promotes {ε : Type} (window : Nat) (inner : Source (World ε))
    (s : Snapshot) (w : World ε) :
    match inner.answer s w with
    | (.candidates cs, v) =>
      let kept := History.retained v.history.limits v.now v.history.entries
      ∃ ds, (Source.boosted window inner).answer s w = (.candidates ds, v.pruneHistory) ∧
        Lifts (kept.reverse.take window) v.now cs ds
    | (failure, v) => (Source.boosted window inner).answer s w = (failure, v) := by
  unfold Source.boosted
  dsimp only
  cases hanswer : inner.answer s w with
  | mk answer v =>
    cases answer with
    | candidates cs =>
      dsimp only
      change ∃ ds, _ ∧ Lifts (v.pruneHistory.history.latest window) v.now cs ds
      split
      · rename_i hnone
        have hlifts := lifts_boost [] v.now cs
        rw [boost_nil] at hlifts
        rw [hnone]
        exact ⟨cs, rfl, hlifts⟩
      · exact ⟨_, rfl, lifts_boost _ _ cs⟩
    | failed e => rfl
    | panicked => rfl

end Typeahead
