import Typeahead.Proofs.Candidate.Promotion
import Typeahead.Proofs.Source.Slash
import Typeahead.Proofs.Source.Waiting
import Typeahead.World

/-!
What each of the standard sources offers: candidates under its own name and in groups of its own that
match what was typed, whatever the world. Recent use changes neither their source nor their value.
-/
namespace Typeahead

/-! ## A text cut after its last separator -/

theorem Text.splitAfterLast_fst (separator : Char) (t : Text) :
    (splitAfterLast separator t).1 = (t.reverse.dropWhile (· ≠ separator)).reverse := by
  have hcut :
      (t.reverse.dropWhile (· ≠ separator)).reverse ++ (splitAfterLast separator t).2 = t := by
    unfold splitAfterLast
    rw [← List.reverse_append, List.takeWhile_append_dropWhile, List.reverse_reverse]
  exact List.append_cancel_right ((splitAfterLast_append separator t).trans hcut.symm)

/-- The first part is empty or ends in the separator. -/
theorem Text.splitAfterLast_fst_eq (separator : Char) (t : Text) :
    (splitAfterLast separator t).1 = [] ∨
      (splitAfterLast separator t).1.getLast? = some separator := by
  rw [splitAfterLast_fst, List.getLast?_reverse]
  rcases hrest : t.reverse.dropWhile (· ≠ separator) with _ | ⟨c, rest⟩
  · exact Or.inl rfl
  · have hhead := List.head?_dropWhile_not (· ≠ separator) t.reverse
    rw [hrest] at hhead
    right
    simpa using hhead

theorem Text.not_mem_splitAfterLast_snd (separator : Char) (t : Text) :
    separator ∉ (splitAfterLast separator t).2 := by
  intro h
  unfold splitAfterLast at h
  have hne := List.mem_takeWhile_imp (List.mem_reverse.1 h)
  simp at hne

/-- The cut after the last separator is the only one. -/
theorem Text.splitAfterLast_eq {separator : Char} {part rest : Text}
    (hpart : part = [] ∨ part.getLast? = some separator) (hrest : separator ∉ rest) :
    splitAfterLast separator (part ++ rest) = (part, rest) := by
  have hkept : ∀ c ∈ rest.reverse, decide (c ≠ separator) = true := by
    intro c hc
    apply decide_eq_true
    rintro rfl
    exact hrest (List.mem_reverse.1 hc)
  have hcut : part.reverse.takeWhile (· ≠ separator) = [] := by
    rcases hpart with rfl | hlast
    · rfl
    · rw [← List.head?_reverse] at hlast
      obtain ⟨front, hfront⟩ := List.head?_eq_some_iff.1 hlast
      simp [hfront]
  have htail : ((part ++ rest).reverse.takeWhile (· ≠ separator)).reverse = rest := by
    rw [List.reverse_append, List.takeWhile_append_of_pos hkept, hcut, List.append_nil,
      List.reverse_reverse]
  unfold splitAfterLast
  rw [htail]
  simp

/-! ## Offers -/

/-- What was typed is a directory part up to the last slash and the rest, and the value is that part
and a name that matches the rest, for a directory with a slash behind. -/
def CompletesPath (typed value : Text) : Prop :=
  ∃ directory rest name, typed = directory ++ rest ∧
    (directory = [] ∨ directory.getLast? = some '/') ∧ '/' ∉ rest ∧
    (value = directory ++ name ∨ value = directory ++ name ++ ['/']) ∧ 0 < matchScore name rest

/-- Each candidate of an answer to the snapshot has the property. -/
def Source.Offers {σ : Type} (source : Source σ) (s : Snapshot) (P : Candidate → Prop) : Prop :=
  ∀ answer, source.Gives s answer → ∀ c ∈ answer.toList, P c

theorem Source.Offers.imp {σ : Type} {source : Source σ} {s : Snapshot} {P Q : Candidate → Prop}
    (h : source.Offers s P) (hPQ : ∀ c, P c → Q c) : source.Offers s Q :=
  fun answer hgives c hc => hPQ c (h answer hgives c hc)

namespace Source

variable {ε : Type} {s : Snapshot} {P : Candidate → Prop}

/-- A source lifted by recent use answers with what the source answers, lifted. -/
theorem toList_boosted (window : Nat) (inner : Source (World ε)) (s : Snapshot) (w : World ε) :
    ((boosted window inner).answer s w).1.toList =
      boost ((inner.answer s w).2.pruneHistory.history.latest window) (inner.answer s w).2.now
        (inner.answer s w).1.toList := by
  unfold Source.boosted
  dsimp only
  rcases inner.answer s w with ⟨cs | e | _, w⟩
  · dsimp only
    split
    · -- Without entries there is nothing to lift.
      rename_i hnone
      rw [hnone]
      exact (boost_nil _ cs).symm
    · rfl
  · rfl
  · rfl

/-- Recent use keeps what is true of a candidate with any score and in any group. -/
theorem Offers.boosted {inner : Source (World ε)} (h : inner.Offers s P)
    (hscore : ∀ c score, P { c with score } = P c) (hgroup : ∀ c group, P { c with group } = P c)
    (window : Nat) : (boosted window inner).Offers s P := by
  rintro _ ⟨world, rfl⟩ c hc
  rw [toList_boosted] at hc
  -- The properties of all candidates are the same before and after.
  have hmem := List.mem_map_of_mem (f := P) hc
  rw [map_boost hscore hgroup] at hmem
  obtain ⟨d, hd, hsame⟩ := List.mem_map.1 hmem
  rw [← hsame]
  exact h _ ⟨world, rfl⟩ d hd

theorem mem_ofExcept {x : Except Failure (List Candidate)} {c : Candidate}
    (h : c ∈ (Answer.ofExcept x).toList) : ∃ cs, x = .ok cs ∧ c ∈ cs := by
  cases x with
  | ok cs => exact ⟨cs, rfl, h⟩
  | error e => cases h

/-! ## Programs -/

theorem offers_programCandidates {group : Group} {typed : Text}
    {programs : List (Text × Option Text)} {c : Candidate}
    (h : c ∈ programCandidates group typed programs) :
    c.source = "command".toList ∧ c.group = group ∧ 0 < matchScore c.value typed := by
  obtain ⟨⟨program, description⟩, _, hc⟩ := List.mem_filterMap.1 h
  dsimp only at hc
  split at hc
  · rename_i hscore
    cases hc
    exact ⟨rfl, rfl, hscore⟩
  · cases hc

theorem offers_commandCandidates {found : List Text} {typed : Text} {c : Candidate}
    (h : c ∈ commandCandidates found typed) :
    c.source = "command".toList ∧ c.group.isCommand = true ∧ 0 < matchScore c.value typed := by
  unfold commandCandidates knownPrograms at h
  rw [List.mem_append, List.mem_append] at h
  obtain ⟨group, programs, hgroup, hc⟩ : ∃ group programs, Group.isCommand group = true ∧
      c ∈ programCandidates group typed programs := by
    rcases h with (h | h) | h
    · exact ⟨_, _, rfl, h⟩
    · exact ⟨_, _, rfl, h⟩
    · exact ⟨_, _, rfl, h⟩
  obtain ⟨hsource, hsame, hscore⟩ := offers_programCandidates hc
  exact ⟨hsource, hsame ▸ hgroup, hscore⟩

theorem offers_commands (s : Snapshot) :
    (commands : Source (World ε)).Offers s fun c =>
      c.source = "command".toList ∧ c.group.isCommand = true ∧
        0 < matchScore c.value s.trigger.typed := by
  rintro _ ⟨world, rfl⟩ c hc
  unfold commands at hc
  dsimp only at hc
  split at hc
  · rename_i hempty
    rw [List.isEmpty_iff.1 hempty]
    exact offers_commandCandidates (List.mem_append_left _ hc : c ∈ commandCandidates [] [])
  · exact offers_commandCandidates hc

/-! ## Slash commands -/

theorem offers_slash (s : Snapshot) :
    (slash SlashCommand.builtin : Source (World ε)).Offers s fun c =>
      c.source = "slash".toList ∧ c.group = .internalCommand ∧
        SlashCommand.isElsewhere s = false ∧ 0 < matchScore c.value (SlashCommand.typedName s) := by
  rintro _ ⟨world, rfl⟩ c hc
  obtain ⟨hhere, hname, hgroup, _, _, _, hscore⟩ := SlashCommand.mem_candidates hc
  exact ⟨hname, hgroup, hhere, hscore⟩

/-! ## References -/

theorem offers_references (s : Snapshot) :
    (references : Source (World ε)).Offers s fun c =>
      c.source = "git_ref".toList ∧ c.group = .gitRef ∧
        0 < matchScore c.value s.trigger.typed := by
  rintro _ ⟨world, rfl⟩ c hc
  obtain ⟨cs, hcs, hmem⟩ := mem_ofExcept hc
  rcases hlist : Reference.list world.disk s.directory with e | refs
  · rw [hlist] at hcs
    cases hcs
  · rw [hlist] at hcs
    cases hcs
    obtain ⟨r, _, hr⟩ := List.mem_filterMap.1 hmem
    unfold Reference.candidate? at hr
    dsimp only at hr
    split at hr
    · rename_i hscore
      cases hr
      exact ⟨rfl, rfl, hscore⟩
    · cases hr

/-! ## Files -/

theorem value_of_ofEntry? {part typed name : Text} {isDirectory : Bool} {o : FileOffer}
    (h : FileOffer.ofEntry? part typed name isDirectory = some o) :
    (o.value = part ++ name ∨ o.value = part ++ name ++ ['/']) ∧ 0 < matchScore name typed := by
  unfold FileOffer.ofEntry? at h
  split at h
  · cases h
  · split at h
    · cases h
    · rename_i hscore
      have hpos : 0 < matchScore name typed := Nat.pos_of_ne_zero hscore
      split at h
      · cases h
        exact ⟨Or.inr rfl, hpos⟩
      · cases h
        exact ⟨Or.inl rfl, hpos⟩

theorem offers_files (s : Snapshot) (limit : Nat) :
    (files limit : Source (World ε)).Offers s fun c =>
      c.source = "file".toList ∧ c.group = .file ∧ CompletesPath s.trigger.typed c.value := by
  rintro _ ⟨world, rfl⟩ c hc
  obtain ⟨cs, hcs, hmem⟩ := mem_ofExcept hc
  unfold completeFiles at hcs
  dsimp only at hcs
  split at hcs
  -- Sorting and cutting the list adds nothing, so each candidate stems from an entry.
  · cases hcs
    unfold fileCandidates at hmem
    obtain ⟨o, ho, rfl⟩ := List.mem_map.1 hmem
    obtain ⟨⟨name, node⟩, _, hentry⟩ :=
      List.mem_filterMap.1 (List.mem_mergeSort.1 (List.mem_of_mem_take ho))
    obtain ⟨hvalue, hscore⟩ := value_of_ofEntry? hentry
    exact ⟨rfl, rfl, _, _, _, (Text.splitAfterLast_append '/' s.trigger.typed).symm,
      Text.splitAfterLast_fst_eq '/' s.trigger.typed,
      Text.not_mem_splitAfterLast_snd '/' s.trigger.typed, hvalue, hscore⟩
  · cases hcs
    cases hmem
  · cases hcs
    cases hmem
  · cases hcs

/-! ## Mentions -/

theorem offers_mentions (s : Snapshot) :
    (mentions : Source (World ε)).Offers s fun c =>
      c.source = "entity".toList ∧ c.group = .entity ∧
        0 < matchScore c.value s.trigger.typed := by
  rintro _ ⟨world, rfl⟩ c hc
  obtain ⟨m, _, hm⟩ := List.mem_filterMap.1 hc
  dsimp only at hm
  split at hm
  · rename_i hscore
    cases hm
    exact ⟨rfl, rfl, hscore⟩
  · cases hm

end Source

/-! ## The standard sources -/

theorem Registry.mem_of_mem_register {σ : Type} {r : Registry σ} {source new : Source σ}
    (h : source ∈ (r.register new).1.sources) : source ∈ r.sources ∨ source = new := by
  unfold register at h
  split at h
  · exact Or.inl h
  · exact (List.mem_append.1 h).imp_right List.mem_singleton.1

theorem Registry.mem_of_mem_ofList {σ : Type} {source : Source σ} {sources : List (Source σ)}
    (h : source ∈ (ofList sources).sources) : source ∈ sources := by
  -- The registry that the rest of the list is added to grows, so this is about any registry.
  have hall : ∀ (l : List (Source σ)) (r : Registry σ),
      source ∈ (l.foldl (fun r s => (r.register s).1) r).sources →
        source ∈ r.sources ∨ source ∈ l := by
    intro l
    induction l with
    | nil => exact fun r hr => Or.inl hr
    | cons new rest ih =>
      intro r hr
      rcases ih _ hr with hr | hrest
      · rcases mem_of_mem_register hr with hold | rfl
        · exact Or.inl hold
        · exact Or.inr List.mem_cons_self
      · exact Or.inr (List.mem_cons_of_mem _ hrest)
  exact (hall sources {} h).resolve_left List.not_mem_nil

/-- What holds of each standard source holds of all that are asked. -/
theorem Source.forall_standard {ε : Type} {s : Snapshot} {Q : Source (World ε) → Prop}
    (hcommands : s.mode = .shell → s.trigger.kind = .command → Q (boosted recentWindow commands))
    (hslash : SlashCommand.isMeant s = true → Q (slash SlashCommand.builtin))
    (hreferences : s.mode = .shell → s.trigger.kind = .entity → s.isMention = false →
      Q (boosted recentWindow references))
    (hfiles : s.trigger.kind = .entity → Q (files fileLimit))
    (hmentions : s.isMention = true → Q mentions) :
    ∀ source ∈ (Registry.ofList standard).relevant s, Q source := by
  intro source hsource
  obtain ⟨hmem, hrelevant⟩ := List.mem_filter.1 hsource
  have hstandard := Registry.mem_of_mem_ofList hmem
  unfold standard at hstandard
  simp only [List.mem_cons, List.not_mem_nil, or_false] at hstandard
  rcases hstandard with rfl | rfl | rfl | rfl | rfl
  · unfold boosted commands at hrelevant
    simp only [Bool.and_eq_true, decide_eq_true_eq] at hrelevant
    exact hcommands hrelevant.1 hrelevant.2
  · exact hslash hrelevant
  · unfold boosted references deferred immediate at hrelevant
    simp only [Bool.and_eq_true, decide_eq_true_eq, Bool.not_eq_true'] at hrelevant
    exact hreferences hrelevant.1.1.1 hrelevant.1.1.2 hrelevant.1.2
  · exact hfiles (of_decide_eq_true hrelevant)
  · exact hmentions hrelevant

end Typeahead
