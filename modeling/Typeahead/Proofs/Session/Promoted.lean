import Typeahead.Proofs.Session.Supply
import Typeahead.Proofs.Source.Readings

/-!
The top suggestion. Two of the standard sources promote what was used recently, but never both for one
snapshot: so the menu has at most one such candidate, the first one, and it is selected.
-/
namespace Typeahead

/-! ## What a source has a part in -/

section Sources

variable {σ : Type} {W : σ → Prop} {s : Snapshot} {source : Source σ} {world : σ}

/-- What the source produces for the snapshot in a world; nothing if it is not asked. -/
def Source.produced (source : Source σ) (s : Snapshot) (world : σ) : List Candidate :=
  if source.relevant s then (source.answer s world).1.toList else []

theorem Source.produced_of_relevant (h : source.relevant s = true) :
    source.produced s world = (source.answer s world).1.toList := if_pos h

theorem Source.produced_of_not_relevant (h : ¬ source.relevant s = true) :
    source.produced s world = [] := if_neg h

/-- The candidates of all answers are what the sources produced, each in a world of its own. -/
theorem exists_produced {sources : List (Source σ)} {answers : List Answer} (hworld : ∃ w, W w)
    (h : AnsweredIn W s (sources.filter (·.relevant s)) answers) :
    ∃ parts, List.Forall₂ (fun source part => ∃ w, W w ∧ source.produced s w = part) sources parts ∧
      answers.flatMap Answer.toList = parts.flatten := by
  induction sources generalizing answers with
  | nil =>
    cases h
    exact ⟨[], .nil, rfl⟩
  | cons source sources ih =>
    by_cases hrelevant : source.relevant s = true
    · rw [List.filter_cons, if_pos hrelevant] at h
      obtain ⟨answer, rest, ⟨w, hw, rfl⟩, hrest, rfl⟩ := List.forall₂_cons_left_iff.1 h
      obtain ⟨parts, hparts, hflat⟩ := ih hrest
      refine ⟨_ :: parts, .cons ⟨w, hw, Source.produced_of_relevant hrelevant⟩ hparts, ?_⟩
      rw [List.flatMap_cons, List.flatten_cons, hflat]
    · rw [List.filter_cons, if_neg hrelevant] at h
      obtain ⟨parts, hparts, hflat⟩ := ih h
      obtain ⟨w, hw⟩ := hworld
      exact ⟨[] :: parts, .cons ⟨w, hw, Source.produced_of_not_relevant hrelevant⟩ hparts, hflat⟩

theorem countP_answer (h : source.Offers s fun c => c.isTop = false) (world : σ) :
    (source.answer s world).1.toList.countP Candidate.isTop = 0 := by
  rw [List.countP_eq_zero]
  intro c hc
  rw [h _ ⟨world, rfl⟩ c hc]
  exact Bool.false_ne_true

theorem countP_produced (h : source.Offers s fun c => c.isTop = false) (world : σ) :
    (source.produced s world).countP Candidate.isTop = 0 := by
  unfold Source.produced
  split
  · exact countP_answer h world
  · rfl

end Sources

variable {ε : Type} {W : World ε → Prop} {w v : World ε} {s : Snapshot} {a : Assistant ε} {n : Nat}

/-! ## What the two sources promote -/

theorem produced_boosted_of_not_relevant {inner : Source (World ε)}
    (h : ¬ inner.relevant s = true) (window : Nat) :
    (Source.boosted window inner).produced s w = [] := if_neg h

/-- In a world that was only read, a source lifted by recent use promotes a candidate that is used,
and one at most. -/
theorem promotes_boosted {inner : Source (World ε)} {Q : Candidate → Entry → Prop}
    (hreads : w.Reads v) (hstays : inner.StaysIn w.Reads s)
    (hsame : (inner.answer s v).1 = (inner.answer s w).1)
    (hoffers : inner.Offers s fun c => c.isTop = false ∧ ∀ e, c.IsUsedBy e ↔ Q c e)
    (window : Nat) :
    Promotes ((Source.boosted window inner).produced s v)
      (∃ c ∈ inner.produced s w, ∃ e ∈ w.latest window, Q c e) := by
  by_cases hrelevant : inner.relevant s = true
  · have hboosted : (Source.boosted window inner).relevant s = true := hrelevant
    have hlatest := (hstays.answer v hreads).latest window
    rw [Source.produced_of_relevant hrelevant, Source.produced_of_relevant hboosted,
      Source.toList_boosted, hsame, ← hlatest]
    refine (promotes_boost (countP_answer (hoffers.imp fun _ h => h.1) w)).congr ?_
    refine exists_congr fun c => and_congr_right fun hc => exists_congr fun e => ?_
    rw [(hoffers _ ⟨w, rfl⟩ c hc).2 e]
    rfl
  · rw [Source.produced_of_not_relevant hrelevant, produced_boosted_of_not_relevant hrelevant]
    exact promotes_of_none rfl (by simp)

/-- A program that is offered is the first word of a recent command. -/
def World.UsesProgram (w : World ε) (s : Snapshot) : Prop :=
  ∃ c ∈ Source.commands.produced s w, ∃ e ∈ w.latest Source.recentWindow, e.program? = some c.value

/-- A reference that is offered is a word of a recent command. -/
def World.UsesReference (w : World ε) (s : Snapshot) : Prop :=
  ∃ c ∈ Source.references.produced s w, ∃ e ∈ w.latest Source.recentWindow,
    c.value ∈ Text.words e.command

theorem answer_commands_eq (hreads : w.Reads v) :
    (Source.commands.answer s v).1 = (Source.commands.answer s w).1 := by
  have hfound := hreads.foundPrograms
  unfold World.foundPrograms at hfound
  unfold Source.commands
  dsimp only
  split
  · rfl
  · rw [hfound]

theorem promotes_commands (s : Snapshot) (hreads : w.Reads v) :
    Promotes ((Source.boosted Source.recentWindow Source.commands).produced s v)
      (w.UsesProgram s) := by
  refine promotes_boosted hreads (Source.staysIn_commands fun _ h => h.programs)
    (answer_commands_eq hreads) ?_ _
  refine (Source.offers_commands s).imp fun c ⟨_, hgroup, _⟩ => ⟨?_, fun e => ?_⟩
  · unfold Candidate.isTop
    rw [decide_eq_false_iff_not]
    intro htop
    rw [htop] at hgroup
    cases hgroup
  · unfold Candidate.IsUsedBy
    rw [if_pos (Candidate.isCommand_group_iff.1 hgroup)]
    rfl

theorem promotes_references (s : Snapshot) (hreads : w.Reads v) :
    Promotes ((Source.boosted Source.recentWindow Source.references).produced s v)
      (w.UsesReference s) := by
  have hsame : (Source.references.answer s v).1 = (Source.references.answer s w).1 := by
    unfold Source.references Source.deferred Source.immediate
    dsimp only
    rw [hreads.disk]
  refine promotes_boosted hreads (Source.staysIn_deferred _ _ _) hsame ?_ _
  refine (Source.offers_references s).imp fun c ⟨_, hgroup, _⟩ => ⟨?_, fun e => ?_⟩
  · unfold Candidate.isTop
    rw [hgroup]
    rfl
  · have hother : ¬ c.IsProgram := by
      rw [← Candidate.isCommand_group_iff, hgroup]
      decide
    unfold Candidate.IsUsedBy
    rw [if_neg hother]

/-! ## What all sources promote -/

theorem countP_produced_of_group {source : Source (World ε)} {group : Group}
    (h : source.Offers s fun c => c.group = group) (hgroup : group ≠ .topSuggestion) :
    (source.produced s w).countP Candidate.isTop = 0 := by
  refine countP_produced (h.imp fun c hc => ?_) w
  unfold Candidate.isTop
  rw [hc]
  exact decide_eq_false hgroup

/-- Programs are offered for the command word and references for arguments. -/
theorem not_relevant_references (h : (Source.commands : Source (World ε)).relevant s = true) :
    ¬ (Source.references : Source (World ε)).relevant s = true := by
  unfold Source.commands at h
  unfold Source.references Source.deferred Source.immediate
  simp only [Bool.and_eq_true, decide_eq_true_eq] at h ⊢
  rintro ⟨⟨⟨_, hkind⟩, _⟩, _⟩
  rw [h.2] at hkind
  cases hkind

theorem not_usesProgram (h : ¬ (Source.commands : Source (World ε)).relevant s = true) :
    ¬ w.UsesProgram s := by
  rintro ⟨c, hc, _⟩
  rw [Source.produced_of_not_relevant h] at hc
  cases hc

theorem not_usesReference (h : ¬ (Source.references : Source (World ε)).relevant s = true) :
    ¬ w.UsesReference s := by
  rintro ⟨c, hc, _⟩
  rw [Source.produced_of_not_relevant h] at hc
  cases hc

/-- Of the standard sources only the two that are lifted by recent use answer with top suggestions. -/
theorem exists_countP_standard {answers : List Answer} (hworld : ∃ w, W w)
    (h : AnsweredIn W s ((Registry.ofList Source.standard).relevant s) answers) :
    ∃ v v', W v ∧ W v' ∧ (answers.flatMap Answer.toList).countP Candidate.isTop =
      ((Source.boosted Source.recentWindow Source.commands).produced s v).countP Candidate.isTop +
        ((Source.boosted Source.recentWindow Source.references).produced s v').countP
          Candidate.isTop := by
  have hstandard : AnsweredIn W s (Source.standard.filter (·.relevant s)) answers := h
  obtain ⟨parts, hparts, hflat⟩ := exists_produced hworld hstandard
  unfold Source.standard at hparts
  rcases hparts with _ | ⟨⟨v, hv, rfl⟩, _ | ⟨⟨_, _, rfl⟩, _ | ⟨⟨v', hv', rfl⟩, _ | ⟨⟨_, _, rfl⟩,
    _ | ⟨⟨_, _, rfl⟩, ⟨⟩⟩⟩⟩⟩⟩
  -- Slash commands, files and things to mention are in groups of their own.
  have hslash := (Source.offers_slash (ε := ε) s).imp fun _ h => h.2.1
  have hfiles := (Source.offers_files (ε := ε) s fileLimit).imp fun _ h => h.2.1
  have hmentions := (Source.offers_mentions (ε := ε) s).imp fun _ h => h.2.1
  refine ⟨v, v', hv, hv', ?_⟩
  rw [hflat]
  simp [countP_produced_of_group hslash, countP_produced_of_group hfiles,
    countP_produced_of_group hmentions]

/-- The answers of the standard sources together promote a candidate that was used, and one at
most. -/
theorem exists_promotes_standard {answers : List Answer} (hworld : ∃ w, W w)
    (h : AnsweredIn (World.ReadFrom W) s ((Registry.ofList Source.standard).relevant s) answers) :
    ∃ w, W w ∧ Promotes (answers.flatMap Answer.toList) (w.UsesProgram s ∨ w.UsesReference s) := by
  obtain ⟨v, v', ⟨w, hw, hv⟩, ⟨w', hw', hv'⟩, hcount⟩ :=
    exists_countP_standard (hworld.imp fun _ => World.ReadFrom.same) h
  -- At most one of the two sources is asked, and it decides.
  by_cases hrelevant : (Source.commands : Source (World ε)).relevant s = true
  · have hother := not_relevant_references hrelevant
    rw [produced_boosted_of_not_relevant hother] at hcount
    refine ⟨w, hw, ((promotes_commands s hv).of_countP hcount).congr ?_⟩
    rw [or_iff_left (not_usesReference hother)]
  · rw [produced_boosted_of_not_relevant hrelevant, List.countP_nil, Nat.zero_add] at hcount
    refine ⟨w', hw', ((promotes_references s hv').of_countP hcount).congr ?_⟩
    rw [or_iff_right (not_usesProgram hrelevant)]

/-! ## The law -/

theorem Assistant.UpdatesIn.exists_world {r : Registry (World ε)} {next : UpdateOutcome ⊕ Update ε}
    (h : UpdatesIn W r s a next) : ∃ w, W w := by
  cases h with
  | alone _ _ hworld => exact ⟨_, hworld⟩
  | start _ _ hworld => exact ⟨_, hworld⟩
  | goOn _ hworld => exact ⟨_, hworld⟩

/-- Of the candidates found only the first one may be promoted, and a limit does not drop it. -/
theorem Promotes.exists_first {P : Prop} {answers : List Answer} {limit : Option Nat}
    (h : Promotes (answers.flatMap Answer.toList) P) (hne : merge limit answers ≠ []) :
    ∃ c cs, merge limit answers = c :: cs ∧ (∀ d ∈ cs, d.isTop = false) ∧ (c.isTop = true ↔ P) := by
  have hprefix : merge limit answers <+: merge none answers := by
    cases limit with
    | none => exact List.prefix_rfl
    | some n => exact List.take_prefix n _
  obtain ⟨behind, hbehind⟩ := hprefix
  rcases hfound : merge limit answers with _ | ⟨c, cs⟩
  · exact absurd hfound hne
  · rw [hfound, List.cons_append] at hbehind
    have hall := h.of_countP ((merge_none_perm answers).countP_eq Candidate.isTop)
    have hranked : (merge none answers).Pairwise fun a b => a.group.rank ≤ b.group.rank :=
      pairwise_ranked _
    rw [← hbehind] at hall hranked
    obtain ⟨hnone, hfirst⟩ := hall.of_cons hranked
    exact ⟨c, cs, rfl, fun d hd => hnone d (List.mem_append_left _ hd), hfirst⟩

/-- After an update that filled the menu, in whatever worlds its steps were made, at most one candidate
is a top suggestion; it is the first one, and it is selected. There is one if and only if, in the
world of some step, a program or a reference that is offered was used in a recent command. -/
theorem the_only_top_suggestion_is_selected
    (h : Assistant.UpdatesIn W (.ofList Source.standard) s a (.inl (.applied n))) :
    a.session.menu.candidates.countP Candidate.isTop ≤ 1 ∧
      (∀ (i : Nat) (c : Candidate), a.session.menu.candidates[i]? = some c →
        c.group = .topSuggestion → i = 0 ∧ a.session.menu.selected? = some c) ∧
      ∃ w, W w ∧ ((∃ c ∈ a.session.menu.candidates, c.group = .topSuggestion) ↔
        w.UsesProgram s ∨ w.UsesReference s) := by
  have hstays : (Registry.ofList Source.standard).StaysIn (World.ReadFrom W) s :=
    ⟨fun _ => .history, staysIn_standard W s⟩
  have hfilled := (h.mono fun _ => World.ReadFrom.same).yields hstays
  obtain ⟨answers, limit, hanswers, hmenu⟩ := hfilled.answered
  obtain ⟨w, hw, hpromotes⟩ := exists_promotes_standard h.exists_world hanswers
  obtain ⟨top, rest, hfound, hrest, htop⟩ := hpromotes.exists_first (hmenu ▸ hfilled.nonempty)
  have hisTop : ∀ c : Candidate, c.isTop = true ↔ c.group = .topSuggestion :=
    fun c => decide_eq_true_iff
  unfold Menu.selected?
  rw [hfilled.selected, hmenu, hfound]
  refine ⟨?_, ?_, w, hw, ?_⟩
  · have hnone : rest.countP Candidate.isTop = 0 :=
      List.countP_eq_zero.2 fun d hd => Bool.eq_false_iff.1 (hrest d hd)
    rw [List.countP_cons, hnone]
    split
    · exact Nat.le_refl 1
    · exact Nat.zero_le 1
  · intro i c hc hgroup
    cases i with
    | zero => exact ⟨rfl, hc⟩
    | succ i =>
      have hfalse := hrest c (List.mem_of_getElem? hc)
      rw [(hisTop c).2 hgroup] at hfalse
      cases hfalse
  · rw [← htop]
    constructor
    · rintro ⟨c, hc, hgroup⟩
      rcases List.mem_cons.1 hc with rfl | hlater
      · exact (hisTop c).2 hgroup
      · rw [← hisTop, hrest c hlater] at hgroup
        cases hgroup
    · intro hfirst
      exact ⟨top, List.mem_cons_self, (hisTop top).1 hfirst⟩

/-- An assistant that remembers three commands, two of them of one program. -/
def cook : Assistant Unit where
  registry := .ofList Source.standard
  directory := ['/']
  world :=
    { disk := ⟨.directory .nil, []⟩
      home := [], searchPath := [], now := 0, programs := ⟨0, none⟩
      history := { entries :=
        [⟨"cargo test".toList, 0⟩, ⟨"cat a.txt".toList, 0⟩, ⟨"cat b.txt".toList, 0⟩] }
      more := () }

/-- Two of the programs that start with what was typed were used, and only the one used more often is
promoted. -/
theorem the_program_used_more_often_is_promoted :
    let line := "ca".toList
    let s := Snapshot.ofLine line 2 .shell ['/']
      ["cat b.txt".toList, "cat a.txt".toList, "cargo test".toList]
    let a := (cook.update line 2 .shell).1
    Assistant.UpdatesIn (· = cook.world) (.ofList Source.standard) s a (.inl (.applied 2)) ∧
      a.session.menu.selected?.map Candidate.value = some "cat".toList ∧
      a.session.menu.candidates.countP Candidate.isTop ≤ 1 ∧
      (∀ (i : Nat) (c : Candidate), a.session.menu.candidates[i]? = some c →
        c.group = .topSuggestion → i = 0 ∧ a.session.menu.selected? = some c) ∧
      ∃ w, w = cook.world ∧ ((∃ c ∈ a.session.menu.candidates, c.group = .topSuggestion) ↔
        w.UsesProgram s ∨ w.UsesReference s) := by
  intro line s a
  obtain ⟨happlied, hselected⟩ : (cook.update line 2 .shell).2.1 = .applied 2 ∧
      a.session.menu.selected?.map Candidate.value = some "cat".toList := by decide +kernel
  have h : Assistant.UpdatesIn (· = cook.world) (.ofList Source.standard) s a (.inl (.applied 2)) :=
    happlied ▸ .alone rfl rfl rfl
  exact ⟨h, hselected, the_only_top_suggestion_is_selected h⟩

end Typeahead
