import Typeahead.Proofs.Session.Supply
import Typeahead.Proofs.Source.Offers

/-!
What the menu offers, for the standard sources and whatever the world. Each candidate comes from a
source that the trigger asks for, and it matches the text that it would replace.
-/
namespace Typeahead

variable {ε : Type} {a : Assistant ε} {s : Snapshot} {n : Nat}

/-! ## Updates with the standard sources -/

theorem Assistant.Updates.isMade {r : Registry (World ε)} {next : UpdateOutcome ⊕ Update ε}
    (h : Updates r s a next) : s.IsMade := by
  induction h with
  | alone _ hs => exact ⟨_, _, _, _, _, hs.symm⟩
  | start _ hs => exact ⟨_, _, _, _, _, hs.symm⟩
  | goOn _ ih => exact ih

theorem Assistant.Updates.forall_offered {r : Registry (World ε)} {P : Candidate → Prop}
    (h : Updates r s a (.inl (.applied n)))
    (hoffers : ∀ source ∈ r.relevant s, source.Offers s P) :
    ∀ c ∈ a.session.menu.candidates, P c := by
  intro c hc
  obtain ⟨source, hsource, answer, hgives, hc⟩ := h.exists_source hc
  exact hoffers source hsource answer hgives c hc

/-- Slash commands are offered under a slash trigger only. -/
theorem Source.offers_slash_of_active (h : s.IsMade) (hactive : s.trigger.isActive = true)
    (hmeant : SlashCommand.isMeant s = true) :
    (slash SlashCommand.builtin : Source (World ε)).Offers s fun c =>
      s.trigger.kind = .slashCommand ∧ c.source = "slash".toList ∧
        0 < matchScore c.value s.trigger.typed := by
  intro answer hgives c hc
  obtain ⟨hname, _, hhere, hscore⟩ := offers_slash s answer hgives c hc
  by_cases hkind : s.trigger.kind = .slashCommand
  · exact ⟨hkind, hname, SlashCommand.matchScore_typed_pos h hkind hhere hscore⟩
  -- The source is asked, but under another trigger it has nothing to offer.
  · obtain ⟨world, rfl⟩ := hgives
    change c ∈ SlashCommand.candidates SlashCommand.builtin s at hc
    rw [SlashCommand.candidates_of_kind_ne h hactive hkind hmeant] at hc
    cases hc

/-! ## What each source may offer -/

/-- The names of the sources that a trigger asks for. -/
inductive Snapshot.AsksFor (s : Snapshot) : (name : Text) → Prop
  | command : s.trigger.kind = .command → AsksFor s "command".toList
  | slash : s.trigger.kind = .slashCommand → AsksFor s "slash".toList
  | file : s.trigger.kind = .entity → AsksFor s "file".toList
  | reference : s.trigger.kind = .entity → s.mode = .shell → s.isMention = false →
      AsksFor s "git_ref".toList
  | mention : s.trigger.kind = .entity → s.isMention = true → AsksFor s "entity".toList

theorem Snapshot.kind_of_isMention (h : s.isMention = true) : s.trigger.kind = .entity := by
  unfold isMention at h
  rw [Bool.and_eq_true, decide_eq_true_iff] at h
  exact h.1

/-- The candidate matches the typed text: a file as a path, and any other one as it is. -/
def Fits (source value typed : Text) : Prop :=
  if source = "file".toList then CompletesPath typed value else 0 < matchScore value typed

theorem Fits.of_completesPath {value typed : Text} (h : CompletesPath typed value) :
    Fits "file".toList value typed := by
  unfold Fits
  rwa [if_pos rfl]

theorem Fits.of_ne {source value typed : Text} (hne : source ≠ "file".toList)
    (h : 0 < matchScore value typed) : Fits source value typed := by
  unfold Fits
  rwa [if_neg hne]

/-- Each relevant source offers candidates under a name that is asked for, and they fit. -/
theorem offers_standard (h : s.IsMade) (hactive : s.trigger.isActive = true) :
    ∀ source ∈ (Registry.ofList (Source.standard : List (Source (World ε)))).relevant s,
      source.Offers s fun c => s.AsksFor c.source ∧ Fits c.source c.value s.trigger.typed := by
  refine Source.forall_standard ?_ ?_ ?_ ?_ ?_
  · intro _ hkind
    refine Source.Offers.boosted ?_ (fun _ _ => rfl) (fun _ _ => rfl) _
    refine (Source.offers_commands s).imp fun c ⟨hname, _, hscore⟩ => ?_
    rw [hname]
    exact ⟨.command hkind, .of_ne (by decide) hscore⟩
  · intro hmeant
    refine (Source.offers_slash_of_active h hactive hmeant).imp fun c ⟨hkind, hname, hscore⟩ => ?_
    rw [hname]
    exact ⟨.slash hkind, .of_ne (by decide) hscore⟩
  · intro hmode hkind hmention
    refine Source.Offers.boosted ?_ (fun _ _ => rfl) (fun _ _ => rfl) _
    refine (Source.offers_references s).imp fun c ⟨hname, _, hscore⟩ => ?_
    rw [hname]
    exact ⟨.reference hkind hmode hmention, .of_ne (by decide) hscore⟩
  · intro hkind
    refine (Source.offers_files s fileLimit).imp fun c ⟨hname, _, hpath⟩ => ?_
    rw [hname]
    exact ⟨.file hkind, .of_completesPath hpath⟩
  · intro hmention
    refine (Source.offers_mentions s).imp fun c ⟨hname, _, hscore⟩ => ?_
    rw [hname]
    exact ⟨.mention (Snapshot.kind_of_isMention hmention) hmention, .of_ne (by decide) hscore⟩

/-! ## The source asked for -/

/-- After an update that filled the menu, every candidate comes from a source that the trigger asks
for. Where slash commands may be meant but another trigger fires, so that their source is asked all
the same, it answers with nothing. -/
theorem each_candidate_comes_from_a_source_asked_for
    (h : Assistant.Updates (.ofList Source.standard) s a (.inl (.applied n))) :
    a.session.origin = some s ∧ (∀ c ∈ a.session.menu.candidates, s.AsksFor c.source) ∧
      ∀ t : Snapshot, t.IsMade → t.trigger.isActive = true → t.trigger.kind ≠ .slashCommand →
        SlashCommand.isMeant t = true →
          SlashCommand.candidates SlashCommand.builtin t = [] := by
  obtain ⟨horigin, hactive, _⟩ := h.yields
  have hoffers := h.forall_offered (offers_standard h.isMade hactive)
  refine ⟨horigin, fun c hc => (hoffers c hc).1, ?_⟩
  intro t
  exact SlashCommand.candidates_of_kind_ne

/-- An assistant that knows of one thing to mention, and of one file in a directory. -/
def scholar : Assistant Unit where
  registry := .ofList Source.standard
  directory := ['/']
  world :=
    { disk := ⟨.directory (.cons (.text "src".toList)
        (.directory (.cons (.text "main".toList) (.file (.text []) 0) .nil)) .nil), []⟩
      home := [], searchPath := [], now := 0, programs := ⟨0, none⟩
      mentions := [⟨"ada".toList, none, none⟩], more := () }

/-- In a line that starts with a slash, an at sign asks for things to mention. -/
theorem a_mention_in_a_slash_line_asks_for_entities :
    let line := "/run @a".toList
    let s := Snapshot.ofLine line 7 .nl ['/']
    let a := (scholar.update line 7 .nl).1
    Assistant.Updates (.ofList Source.standard) s a (.inl (.applied 1)) ∧
      a.session.menu.candidates.map Candidate.source = ["entity".toList] ∧
      a.session.origin = some s ∧ (∀ c ∈ a.session.menu.candidates, s.AsksFor c.source) ∧
      SlashCommand.isMeant s = true ∧ SlashCommand.candidates SlashCommand.builtin s = [] := by
  intro line s a
  have happlied : (scholar.update line 7 .nl).2.1 = .applied 1 := by decide +kernel
  have h : Assistant.Updates (.ofList Source.standard) s a (.inl (.applied 1)) :=
    happlied ▸ .alone rfl rfl
  have hmeant : SlashCommand.isMeant s = true := by decide +kernel
  obtain ⟨horigin, hasks, hsilent⟩ := each_candidate_comes_from_a_source_asked_for h
  refine ⟨h, by decide +kernel, horigin, hasks, hmeant, ?_⟩
  exact hsilent s h.isMade (by decide +kernel) (by decide +kernel) hmeant

/-! ## The text replaced -/

/-- The positions to replace are those of the typed text. -/
theorem Snapshot.IsMade.exists_replaced (h : s.IsMade) (hactive : s.trigger.isActive = true) :
    ∃ start stop, s.replaced? = some (start, stop) ∧ s.line.slice start stop = s.trigger.typed := by
  obtain ⟨range, hrange⟩ := Option.isSome_iff_exists.1 (replaced?_isSome hactive)
  obtain ⟨pre, hline, rfl⟩ := exists_of_replaced? h.cursor_le h.typed_suffix hrange
  refine ⟨_, _, hrange, ?_⟩
  unfold Text.slice
  rw [hline, ← List.length_append, List.take_left, List.drop_left]

/-- After an update that filled the menu, every candidate matches the text at the positions that it
would replace. -/
theorem each_candidate_matches_what_it_replaces
    (h : Assistant.Updates (.ofList Source.standard) s a (.inl (.applied n))) :
    ∃ start stop, s.replaced? = some (start, stop) ∧ a.session.origin = some s ∧
      ∀ c ∈ a.session.menu.candidates, Fits c.source c.value (s.line.slice start stop) := by
  obtain ⟨horigin, hactive, _⟩ := h.yields
  obtain ⟨start, stop, hreplaced, htyped⟩ := h.isMade.exists_replaced hactive
  refine ⟨start, stop, hreplaced, horigin, ?_⟩
  intro c hc
  rw [htyped]
  exact (h.forall_offered (offers_standard h.isMade hactive) c hc).2

/-- The name of the file completes the last word of the line, its directory included. -/
theorem the_file_completes_its_path :
    let line := "cat src/m".toList
    let s := Snapshot.ofLine line 9 .shell ['/']
    let a := (scholar.update line 9 .shell).1
    Assistant.Updates (.ofList Source.standard) s a (.inl (.applied 1)) ∧
      a.session.menu.candidates.map Candidate.value = ["src/main".toList] ∧
      s.replaced? = some (4, 9) ∧
      ∃ start stop, s.replaced? = some (start, stop) ∧ a.session.origin = some s ∧
        ∀ c ∈ a.session.menu.candidates, Fits c.source c.value (s.line.slice start stop) := by
  intro line s a
  have happlied : (scholar.update line 9 .shell).2.1 = .applied 1 := by decide +kernel
  have h : Assistant.Updates (.ofList Source.standard) s a (.inl (.applied 1)) :=
    happlied ▸ .alone rfl rfl
  exact ⟨h, by decide +kernel, by decide +kernel, each_candidate_matches_what_it_replaces h⟩

end Typeahead
