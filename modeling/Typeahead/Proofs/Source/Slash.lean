import Typeahead.Proofs.Candidate.Matching
import Typeahead.Proofs.Line.Current
import Typeahead.Proofs.Line.Rule
import Typeahead.World

/-!
Slash commands under each trigger. The source looks at tokens and the trigger at raw characters.
Slash commands are offered for a slash trigger only, and match what it says was typed. The source is
silent, though, where the cursor is at the end of the command token and more of the line follows.
-/
namespace Typeahead

variable {s : Snapshot} {i : Nat} {c : Char}

namespace SlashCommand

/-! ## What the source takes as typed -/

/-- On the command token, what was typed starts at or before every character that is no blank. -/
theorem exists_typed_eq (h : s.IsMade) (hi : s.line[i]? = some c) (hc : Text.isBlank c = false)
    (hhere : isElsewhere s = false) :
    ∃ start ≤ i, s.typed = s.line.slice start s.cursor := by
  obtain ⟨current, _, hcurrent, htyped, _⟩ :=
    h.exists_current? (List.getElem?_eq_some_iff.1 hi).1
  obtain ⟨command, _, hcommand, hle⟩ := h.exists_command? hi hc
  unfold isElsewhere at hhere
  rw [hcurrent, hcommand] at hhere
  have hsame : current.start = command.start := by
    simp only [ne_eq, Prod.mk.injEq, decide_eq_false_iff_not, not_not] at hhere
    exact hhere.1
  exact ⟨current.start, hsame ▸ hle, htyped⟩

/-- What was typed of the name of a slash command. -/
def typedName (s : Snapshot) : Text := (Text.strip? ['/'] s.typed).getD s.typed

theorem mem_typedName (hc : c ≠ '/') (h : c ∈ s.typed) : c ∈ typedName s := by
  unfold typedName
  rcases hstrip : Text.strip? ['/'] s.typed with _ | rest
  · exact h
  · rw [Text.strip?_eq_some_iff.1 hstrip] at h
    exact (List.mem_cons.1 h).resolve_left hc

theorem candidates_of_isElsewhere (catalogue : List SlashCommand) (h : isElsewhere s = true) :
    candidates catalogue s = [] := by
  unfold candidates
  rw [if_pos h]

/-- The commands offered match the name that was typed. -/
theorem mem_candidates {catalogue : List SlashCommand} {d : Candidate}
    (h : d ∈ candidates catalogue s) :
    isElsewhere s = false ∧ d.source = "slash".toList ∧ d.group = .internalCommand ∧
      ∃ command ∈ catalogue, d.value = command.name ∧ 0 < matchScore d.value (typedName s) := by
  unfold candidates at h
  split at h
  · cases h
  · rename_i hhere
    obtain ⟨command, hcommand, hd⟩ := List.mem_filterMap.1 h
    dsimp only at hd
    split at hd
    · rename_i hscore
      cases hd
      exact ⟨Bool.eq_false_iff.2 hhere, rfl, rfl, command, hcommand, rfl, hscore⟩
    · cases hd

/-! ## Silence -/

/-- The names of the commands hold small letters of the alphabet only. -/
theorem letter_of_builtin {command : SlashCommand} (h : command ∈ builtin) {c : Char}
    (hc : c ∈ command.name) : 0x61 ≤ c.toNat ∧ c.toNat ≤ 0x7A := by
  have hall : builtin.all (fun command =>
      command.name.all fun c => 0x61 ≤ c.toNat && c.toNat ≤ 0x7A) = true := by decide
  have hletter := List.all_eq_true.1 (List.all_eq_true.1 hall command h) c hc
  simpa using hletter

/-- Nothing is offered after an at sign or a blank. -/
theorem candidates_eq_nil (h : c ∈ s.typed) (hc : c = '@' ∨ Text.isBlank c = true) :
    candidates builtin s = [] := by
  have hsmall : Text.IsSmall c := by
    rcases hc with rfl | hblank
    · exact Text.isSmall_of_le (by decide)
    · exact Text.isSmall_of_isBlank hblank
  have hslash : c ≠ '/' := by
    rintro rfl
    revert hc
    decide
  refine List.eq_nil_iff_forall_not_mem.2 fun d hd => ?_
  obtain ⟨_, _, _, command, hcommand, hvalue, hscore⟩ := mem_candidates hd
  have hmissing : c ∉ command.name := by
    intro hmem
    obtain ⟨hle, hle'⟩ := letter_of_builtin hcommand hmem
    rcases hc with rfl | hblank
    · revert hle
      decide
    · unfold Text.isBlank Text.inRanges at hblank
      simp only [List.any_cons, List.any_nil, Bool.or_false, Bool.or_eq_true, Bool.and_eq_true,
        decide_eq_true_eq] at hblank
      omega
  have hlower : Text.lower command.name = command.name := by
    refine Text.lower_eq_self fun d hd => Text.isSmall_of_le ?_
    have hletter := letter_of_builtin hcommand hd
    simpa [Text.inRanges] using Or.inr hletter
  have hmissing' : c ∉ Text.lower command.name := by
    rw [hlower]
    exact hmissing
  rw [hvalue, matchScore_eq_zero hsmall (mem_typedName hslash h) hmissing hmissing'] at hscore
  exact Nat.lt_irrefl 0 hscore

/-- Where slash commands may be meant but another trigger fires, none is offered. -/
theorem candidates_of_kind_ne (h : s.IsMade) (hactive : s.trigger.isActive = true)
    (hkind : s.trigger.kind ≠ .slashCommand) (hmeant : isMeant s = true) :
    candidates builtin s = [] := by
  by_cases helse : isElsewhere s = true
  · exact candidates_of_isElsewhere builtin helse
  rw [Bool.not_eq_true] at helse
  -- In a shell the line must start with a slash.
  have hstarts : s.mode = .shell → s.line[0]? = some '/' := by
    intro hmode
    unfold isMeant at hmeant
    rw [hmode] at hmeant
    simpa [Snapshot.isSlashCommand, List.head?_eq_getElem?] using hmeant
  have hfires := h.fires
  generalize s.trigger = t at hfires hactive hkind
  cases hfires with
  | mention hasks =>
    cases hasks with
    | @mark pos hmention =>
      obtain ⟨start, hle, htyped⟩ := exists_typed_eq h hmention.mark (by decide) helse
      have hmem : '@' ∈ s.typed := by
        rw [htyped]
        exact Text.mem_slice_iff.2 ⟨pos, hle, hmention.before, hmention.mark⟩
      exact candidates_eq_nil hmem (Or.inl rfl)
  | slash _ hasks =>
    cases hasks
    exact absurd rfl hkind
  | command _ _ hmode hasks =>
    have hslash := hstarts hmode
    obtain hblank | ⟨hword, _, _, hother⟩ := hasks
    · exact absurd (hblank '/' (List.mem_of_getElem? hslash)) (by decide)
    · -- The slash is the first character that is no blank.
      have hzero := hword.starts.le_of_holds (Nat.le_refl 0) (Text.holdsAt_of_getElem? hslash)
      rw [Nat.le_zero.1 hzero] at hother
      exact absurd hslash hother
  | argument _ _ hmode _ hasks =>
    cases hasks with
    | @run first stop _ hword hpast hfree _ =>
      have hslash := hstarts hmode
      obtain ⟨start, hle, htyped⟩ := exists_typed_eq h hslash (by decide) helse
      -- The blank behind the first word stands before the cursor.
      obtain ⟨c, hc, hblank⟩ := Text.exists_of_holdsAt (hword.blank_behind hpast hfree)
      have hmem : c ∈ s.typed := by
        rw [htyped]
        exact Text.mem_slice_iff.2 ⟨stop, by omega, hpast, hc⟩
      exact candidates_eq_nil hmem (Or.inr hblank)
  | nothing => cases hactive

/-! ## The slash trigger -/

/-- Under a slash trigger the command token, where the source answers, holds what the trigger says
was typed, behind its slash. -/
theorem typedName_eq (h : s.IsMade) (hkind : s.trigger.kind = .slashCommand)
    (hhere : isElsewhere s = false) : typedName s = s.trigger.typed := by
  have hasks := Rule.asksSlash_of_fires h.fires hkind
  have hslash := hasks.starts
  obtain ⟨start, hle, htyped⟩ := exists_typed_eq h hslash (by decide) hhere
  rw [Nat.le_zero.1 hle] at htyped
  unfold typedName
  rw [htyped, hasks.typed_eq]
  rcases Nat.eq_zero_or_pos s.cursor with hzero | hpos
  · rw [hzero]
    rfl
  · rw [Text.slice_cons hpos hslash]
    rfl

/-- Under a slash trigger a command matches what the trigger says was typed. -/
theorem matchScore_typed_pos (h : s.IsMade) (hkind : s.trigger.kind = .slashCommand)
    (hhere : isElsewhere s = false) {name : Text} (hname : 0 < matchScore name (typedName s)) :
    0 < matchScore name s.trigger.typed := by
  rwa [typedName_eq h hkind hhere] at hname

/-- The command token of a line that starts with a slash ends at the first bare delimiter. -/
theorem exists_command_of_slash (h : s.IsMade) (hslash : s.line[0]? = some '/') :
    ∃ command ∈ Token.scan s.line, s.command? = some command ∧ command.start = 0 ∧
      s.line.IsFirst (s.line.bareAt isDelimiter) 0 command.stop := by
  obtain ⟨command, hmem, hcommand, hstart⟩ := h.exists_command? hslash (by decide)
  rw [Nat.le_zero] at hstart
  refine ⟨command, hmem, hcommand, hstart, ?_⟩
  obtain ⟨before, after, hsplit⟩ := List.append_of_mem hmem
  obtain ⟨form, hform, _⟩ := (lexes_scan s.line).forms before command after hsplit
  obtain ⟨c, lexeme, hc, hopens, hstops⟩ := hform.stopsAt
  rw [hstart] at hc hstops
  rw [hslash] at hc
  cases hc
  rw [hopens.eq_opening] at hstops
  exact hstops

/-- The source answers as long as the cursor is before the end of the command token, and at the end
of a line that holds nothing else. -/
theorem isElsewhere_eq_false_iff (h : s.IsMade) (hslash : s.line[0]? = some '/') {stop : Nat}
    (hstop : s.line.IsFirst (s.line.bareAt isDelimiter) 0 stop) :
    isElsewhere s = false ↔ s.cursor < stop ∨ stop = s.line.length := by
  obtain ⟨command, hmem, hcommand, hstart, hends⟩ := exists_command_of_slash h hslash
  obtain rfl := hstop.unique hends
  obtain ⟨current, hmem', hcurrent, _, hbefore, hbehind⟩ :=
    h.exists_current? (List.getElem?_eq_some_iff.1 hslash).1
  have htiles := Token.tiles_scan s.line
  have hend := (htiles.mem hmem).2.2.1
  have hsame : isElsewhere s = false ↔
      (current.start, current.stop) = (command.start, command.stop) := by
    unfold isElsewhere
    rw [hcurrent, hcommand]
    simp
  rw [hsame]
  -- Tokens that cover one position are the same, and the cursor or the start of the last token is
  -- such a position.
  constructor
  · intro heq
    rw [Prod.mk.injEq] at heq
    omega
  · rintro (hinside | hall)
    · rw [htiles.eq_of_covers hmem' hmem hbefore (by omega) (by omega) hinside]
    · obtain ⟨_, hlt, hle, _⟩ := htiles.mem hmem'
      rw [htiles.eq_of_covers hmem' hmem (Nat.le_refl current.start) hlt (by omega) (by omega)]

/-! ## What is offered -/

/-- The commands that match what was typed, in the order of the catalogue and with their scores. -/
def matching (catalogue : List SlashCommand) (typed : Text) : List Candidate :=
  (catalogue.filter fun command => 0 < matchScore command.name typed).map fun command =>
    command.candidate (matchScore command.name typed)

theorem candidates_eq_matching (catalogue : List SlashCommand) (h : isElsewhere s = false) :
    candidates catalogue s = matching catalogue (typedName s) := by
  unfold candidates matching
  rw [h, if_neg Bool.false_ne_true, ← List.filterMap_eq_map, List.filterMap_filter]
  refine congrArg (List.filterMap · catalogue) (funext fun command => ?_)
  simp only [decide_eq_true_eq]
  rfl

end SlashCommand

/-- Under a slash trigger the commands are offered that match what the trigger says was typed, in
the order of the catalogue and with their scores, as long as the cursor is before the first bare
delimiter. At that delimiter none is offered. In a line without one the cursor may be at the end. -/
theorem slash_commands_are_offered_inside_their_word {ε : Type} {line directory : Text}
    {cursor : Nat} {mode : Mode} {recent : List Text}
    (hkind : (Snapshot.ofLine line cursor mode directory recent).trigger.kind = .slashCommand)
    (catalogue : List SlashCommand) (w : World ε) :
    let s := Snapshot.ofLine line cursor mode directory recent
    ∃ stop, line.IsFirst (line.bareAt isDelimiter) 0 stop ∧
      (Source.slash catalogue).answer s w =
        (.candidates
          (if s.cursor < stop ∨ stop = line.length then
            SlashCommand.matching catalogue s.trigger.typed
          else []), w) := by
  intro s
  have hmade : s.IsMade := ⟨line, cursor, mode, directory, recent, rfl⟩
  have hslash := (Rule.asksSlash_of_fires hmade.fires hkind).starts
  obtain ⟨command, _, _, _, hends⟩ := SlashCommand.exists_command_of_slash hmade hslash
  refine ⟨command.stop, hends, ?_⟩
  have hoffered : SlashCommand.candidates catalogue s =
      if s.cursor < command.stop ∨ command.stop = line.length then
        SlashCommand.matching catalogue s.trigger.typed
      else [] := by
    split
    · rename_i hinside
      have hhere := (SlashCommand.isElsewhere_eq_false_iff hmade hslash hends).2 hinside
      rw [SlashCommand.candidates_eq_matching catalogue hhere,
        SlashCommand.typedName_eq hmade hkind hhere]
    · rename_i hbehind
      have helse := mt (SlashCommand.isElsewhere_eq_false_iff hmade hslash hends).1 hbehind
      rw [Bool.not_eq_false] at helse
      exact SlashCommand.candidates_of_isElsewhere catalogue helse
  rw [← hoffered]
  rfl

/-- The names that begin with the typed letters are offered in the order of the catalogue. -/
theorem the_modes_are_offered_inside_the_word :
    let s := Snapshot.ofLine "/modest me".toList 4 .nl
    let w : World Unit :=
      { disk := ⟨.directory .nil, []⟩, home := [], searchPath := [], now := 0,
        programs := ⟨0, none⟩, more := () }
    s.trigger.kind = .slashCommand ∧
      ∃ cs, (Source.slash SlashCommand.builtin).answer s w = (.candidates cs, w) ∧
        cs.map Candidate.value = ["mode".toList, "model".toList] := by
  intro s w
  have hkind : s.trigger.kind = .slashCommand := by decide
  obtain ⟨stop, hends, hanswer⟩ :=
    slash_commands_are_offered_inside_their_word hkind SlashCommand.builtin w
  -- No bare delimiter stands at or before the cursor.
  have hinside : s.cursor < stop := by
    rw [← Nat.not_le]
    intro hle
    have hhere := hends.here (Nat.lt_of_le_of_lt hle (by decide))
    have hnone : ∀ i ≤ s.cursor, s.line.bareAt isDelimiter i = false := by decide
    exact Bool.false_ne_true ((hnone stop hle).symm.trans hhere)
  rw [if_pos (Or.inl hinside)] at hanswer
  exact ⟨hkind, _, hanswer, rfl⟩

/-- At the end of its word, with a blank behind, no command is offered, though the trigger says what
was typed of one. -/
theorem no_command_is_offered_before_the_blank :
    let s := Snapshot.ofLine "/he me".toList 3 .nl
    s.trigger = ⟨.slashCommand, some 0, "he".toList⟩ ∧
      SlashCommand.candidates SlashCommand.builtin s = [] ∧
      (SlashCommand.matching SlashCommand.builtin s.trigger.typed).map Candidate.value =
        ["help".toList] :=
  ⟨by decide, rfl, rfl⟩

end Typeahead
