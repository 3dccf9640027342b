import Typeahead.Proofs.Line.Current
import Typeahead.Proofs.Line.Retyping

/-!
When a snapshot counts as a mention. It looks at the character where its trigger stands. So besides
a live at sign it takes one that is not live for a mention, where an argument of a shell line starts
with it.
-/
namespace Typeahead

variable {text : Text} {cursor pos : Nat} {t : Trigger}

/-! ## Dead marks -/

/-- An at sign that starts the run before the cursor and is not live: it is quoted, or another one
stands between it and the cursor. -/
structure IsDeadMark (text : Text) (cursor pos : Nat) : Prop where
  mark : text[pos]? = some '@'
  before : pos < cursor
  run : EndsRun text pos cursor
  dead : (quoteAt text pos).isOpen = true ∨ ∃ i, pos < i ∧ i < cursor ∧ text[i]? = some '@'

/-- The cursor is past the first word, and no character of a word follows it. -/
def EndsArgument (text : Text) (cursor : Nat) : Prop :=
  ∃ first stop, FirstWord text first stop ∧ stop < cursor ∧
    (cursor = text.length ∨ text.holdsAt Text.isBlank cursor = true)

/-- No other at sign of the run is live. -/
theorem IsDeadMark.not_asksMention (h : IsDeadMark text cursor pos) :
    ¬ AsksMention text cursor t := by
  rintro ⟨hmention⟩
  obtain rfl := hmention.endsRun.unique h.run
  rcases h.dead with hopen | ⟨i, hafter, hbefore, hmark⟩
  · rw [hmention.unquoted] at hopen
    cases hopen
  · exact hmention.last i hafter hbefore hmark

/-- An at sign at the start of a run is dead if the run holds no live one. -/
theorem EndsRun.isDeadMark (h : EndsRun text pos cursor) (hmark : text[pos]? = some '@')
    (hbefore : pos < cursor) (hnone : ∀ u, ¬ AsksMention text cursor u) :
    IsDeadMark text cursor pos := by
  refine ⟨hmark, hbefore, h, ?_⟩
  by_contra hlive
  rw [not_or, Bool.not_eq_true, not_exists] at hlive
  refine hnone _ (.mark ⟨hmark, hbefore, ?_, h.unbroken, h.begins, hlive.1⟩)
  exact fun i hi hlt hat => hlive.2 i ⟨hi, hlt, hat⟩

/-! ## The trigger at a mark -/

theorem fires_of_isMention {mode : Mode} (h : IsMention text cursor pos) :
    Fires text cursor mode ⟨.entity, some pos, text.slice (pos + 1) cursor⟩ :=
  .mention (.mark h)

/-- In a shell the argument that a dead mark starts is completed, with the mark as a part of it. -/
theorem fires_of_isDeadMark (h : IsDeadMark text cursor pos) (hends : EndsArgument text cursor) :
    Fires text cursor .shell ⟨.entity, some pos, text.slice pos cursor⟩ := by
  obtain ⟨first, stop, hword, hpast, hfree⟩ := hends
  exact .argument (fun _ => h.not_asksMention)
    (fun _ => not_asksSlash hpast (hword.blank_behind hpast hfree)) rfl
    (fun _ => not_asksCommand hword hpast) (.run hword hpast hfree h.run)

/-! ## Snapshots -/

namespace Snapshot

variable {s : Snapshot}

theorem isMention_iff : s.isMention = true ↔
    s.trigger.kind = .entity ∧ ∃ pos, s.trigger.position = some pos ∧ s.line[pos]? = some '@' := by
  unfold isMention
  rw [Bool.and_eq_true, decide_eq_true_iff, decide_eq_true_iff, Option.bind_eq_some_iff]

theorem IsMade.trigger_eq (h : s.IsMade) (hfires : Fires s.line s.cursor s.mode t) :
    s.trigger = t := by
  obtain ⟨line, cursor, mode, directory, recent, rfl⟩ := h
  have hfound : Fires line (min (min cursor line.length) line.length) mode t := by
    rw [Nat.min_assoc, Nat.min_self]
    exact hfires
  exact Trigger.detect_of_fires hfound

/-- A snapshot that counts as a mention has a live mark, or a dead one that starts an argument. -/
theorem IsMade.mark_of_isMention (h : s.IsMade) (hmention : s.isMention = true) :
    (∃ pos, IsMention s.line s.cursor pos) ∨
      s.mode = .shell ∧ EndsArgument s.line s.cursor ∧ ∃ pos, IsDeadMark s.line s.cursor pos := by
  obtain ⟨hkind, pos, hposition, hmark⟩ := isMention_iff.1 hmention
  have hfires := h.fires
  generalize s.trigger = t at hfires hkind hposition
  cases hfires with
  | mention hasks =>
    obtain ⟨hlive⟩ := hasks
    exact Or.inl ⟨_, hlive⟩
  | slash _ hasks =>
    cases hasks
    cases hkind
  | command _ _ _ hasks => cases hasks <;> cases hkind
  | argument hnone _ hmode _ hasks =>
    obtain ⟨hword, hpast, hfree, hrun⟩ := hasks
    cases hposition
    -- What stands at the cursor is no at sign, so the run is not empty.
    have hbefore : pos < s.cursor := by
      refine Nat.lt_of_le_of_ne hrun.start_le ?_
      rintro rfl
      rcases hfree with hend | hblank
      · rw [hend, List.getElem?_eq_none (Nat.le_refl _)] at hmark
        cases hmark
      · rw [Text.holdsAt_of_getElem? hmark] at hblank
        revert hblank
        decide
    exact Or.inr ⟨hmode, ⟨_, _, hword, hpast, hfree⟩, pos, hrun.isDeadMark hmark hbefore hnone⟩
  | nothing => cases hkind

end Snapshot

/-! ## The law -/

/-- A snapshot counts as a mention where an at sign is live, and what is typed stands behind the at
sign. In a shell it also counts as one where an argument starts with a dead at sign, and there what
is typed includes the at sign. -/
theorem the_mark_of_a_mention_is_live_or_starts_an_argument (line : Text) (cursor : Nat)
    (mode : Mode) (directory : Text) (recent : List Text) :
    let s := Snapshot.ofLine line cursor mode directory recent
    (s.isMention = true ↔ (∃ pos, IsMention line s.cursor pos) ∨
      mode = .shell ∧ EndsArgument line s.cursor ∧ ∃ pos, IsDeadMark line s.cursor pos) ∧
    (∀ pos, IsMention line s.cursor pos →
      s.trigger = ⟨.entity, some pos, line.slice (pos + 1) s.cursor⟩) ∧
    (mode = .shell → EndsArgument line s.cursor → ∀ pos, IsDeadMark line s.cursor pos →
      s.trigger = ⟨.entity, some pos, line.slice pos s.cursor⟩) := by
  intro s
  have hmade : s.IsMade := ⟨line, cursor, mode, directory, recent, rfl⟩
  have hlive : ∀ pos, IsMention line s.cursor pos →
      s.trigger = ⟨.entity, some pos, line.slice (pos + 1) s.cursor⟩ :=
    fun _ hmention => hmade.trigger_eq (fires_of_isMention hmention)
  have hdead : mode = .shell → EndsArgument line s.cursor → ∀ pos, IsDeadMark line s.cursor pos →
      s.trigger = ⟨.entity, some pos, line.slice pos s.cursor⟩ := by
    rintro rfl hends _ hmark
    exact hmade.trigger_eq (fires_of_isDeadMark hmark hends)
  refine ⟨⟨hmade.mark_of_isMention, ?_⟩, hlive, hdead⟩
  rw [Snapshot.isMention_iff]
  rintro (⟨pos, hmention⟩ | ⟨hmode, hends, pos, hmark⟩)
  · rw [hlive pos hmention]
    exact ⟨rfl, pos, rfl, hmention.mark⟩
  · rw [hdead hmode hends pos hmark]
    exact ⟨rfl, pos, rfl, hmark.mark⟩

/-- A quoted at sign that starts the last run of a shell line counts as a mention, though it is not
live and is part of what is typed. -/
theorem a_quoted_mark_counts_as_a_mention :
    let s := Snapshot.ofLine "say \"hi @bob".toList 12 .shell
    s.isMention = true ∧ s.trigger = ⟨.entity, some 8, "@bob".toList⟩ ∧
      quoteAt s.line 8 = .double ∧ ∀ pos, ¬ IsMention s.line s.cursor pos := by
  intro s
  refine ⟨by decide, by decide, by decide, ?_⟩
  intro pos hmention
  have hquoted : ∀ i < 12, s.line[i]? = some '@' → (quoteAt s.line i).isOpen = true := by decide
  have hopen := hquoted pos hmention.before hmention.mark
  rw [hmention.unquoted] at hopen
  cases hopen

end Typeahead
