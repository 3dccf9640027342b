import Mathlib.Data.List.TakeWhile
import Typeahead.Proofs.Line.Position
import Typeahead.Proofs.Line.Typed

/-!
Which trigger fires, said by positions: four rules, each with the trigger that it asks for, and the
first one that applies wins. The detector finds just this trigger.
-/
namespace Typeahead

/-! ## Words of a line -/

/-- The longest run without a blank that ends at a position. It may be empty. -/
structure EndsRun (text : Text) (start stop : Nat) : Prop where
  start_le : start ≤ stop
  unbroken : Text.Absent (text.holdsAt Text.isBlank) start stop
  begins : ∀ i, i + 1 = start → text.holdsAt Text.isBlank i = true

/-- The first word: it starts at the first character that is no blank, and stops at the next
blank. -/
structure FirstWord (text : Text) (start stop : Nat) : Prop where
  starts : text.IsFirst (text.holdsAt fun c => !Text.isBlank c) 0 start
  inside : start < text.length
  ends : text.IsFirst (text.holdsAt Text.isBlank) start stop

/-! ## The rules -/

/-- The last at sign before the cursor. No blank stands between them, the line or a blank stands
before it, and no quote is open there. -/
structure IsMention (text : Text) (cursor pos : Nat) : Prop where
  mark : text[pos]? = some '@'
  before : pos < cursor
  last : ∀ i, pos < i → i < cursor → text[i]? ≠ some '@'
  unbroken : Text.Absent (text.holdsAt Text.isBlank) pos cursor
  begins : ∀ i, i + 1 = pos → text.holdsAt Text.isBlank i = true
  unquoted : (quoteAt text pos).isOpen = false

inductive AsksMention (text : Text) (cursor : Nat) : Trigger → Prop
  | mark {pos : Nat} : IsMention text cursor pos →
      AsksMention text cursor ⟨.entity, some pos, text.slice (pos + 1) cursor⟩

/-- The line starts with a slash, and no blank stands before the cursor. -/
inductive AsksSlash (text : Text) (cursor : Nat) : Trigger → Prop
  | slash : text.head? = some '/' → Text.Absent (text.holdsAt Text.isBlank) 0 cursor →
      AsksSlash text cursor ⟨.slashCommand, some 0, text.slice 1 cursor⟩

/-- The line is blank, or the cursor is on its first word, the ends included. -/
inductive AsksCommand (text : Text) (cursor : Nat) : Trigger → Prop
  | blank : (∀ c ∈ text, Text.isBlank c = true) →
      AsksCommand text cursor ⟨.command, some cursor, []⟩
  | word {start stop : Nat} : FirstWord text start stop → start ≤ cursor → cursor ≤ stop →
      text[start]? ≠ some '/' →
      AsksCommand text cursor ⟨.command, some start, text.slice start cursor⟩

/-- The cursor is past the first word, and no character of a word follows it. -/
inductive AsksArgument (text : Text) (cursor : Nat) : Trigger → Prop
  | run {first stop start : Nat} : FirstWord text first stop → stop < cursor →
      cursor = text.length ∨ text.holdsAt Text.isBlank cursor = true → EndsRun text start cursor →
      AsksArgument text cursor ⟨.entity, some start, text.slice start cursor⟩

/-- The trigger of the first rule that applies. The last two apply in a shell only. -/
inductive Fires (text : Text) (cursor : Nat) (mode : Mode) : Trigger → Prop
  | mention {t : Trigger} : AsksMention text cursor t → Fires text cursor mode t
  | slash {t : Trigger} : (∀ u, ¬ AsksMention text cursor u) → AsksSlash text cursor t →
      Fires text cursor mode t
  | command {t : Trigger} : (∀ u, ¬ AsksMention text cursor u) → (∀ u, ¬ AsksSlash text cursor u) →
      mode = .shell → AsksCommand text cursor t → Fires text cursor mode t
  | argument {t : Trigger} : (∀ u, ¬ AsksMention text cursor u) →
      (∀ u, ¬ AsksSlash text cursor u) → mode = .shell → (∀ u, ¬ AsksCommand text cursor u) →
      AsksArgument text cursor t → Fires text cursor mode t
  | nothing : (∀ u, ¬ AsksMention text cursor u) → (∀ u, ¬ AsksSlash text cursor u) →
      (mode = .shell → ∀ u, ¬ AsksCommand text cursor u ∧ ¬ AsksArgument text cursor u) →
      Fires text cursor mode .inactive

variable {text word : Text} {start stop cursor : Nat} {mode : Mode} {t : Trigger}

/-! ## Runs and words -/

theorem EndsRun.unique {start' : Nat} (h : EndsRun text start stop)
    (h' : EndsRun text start' stop) : start = start' := by
  have hle : ∀ {a b}, EndsRun text a stop → EndsRun text b stop → b ≤ a := by
    intro a b ha hb
    by_contra hlt
    have hblank := hb.begins (b - 1) (by omega)
    have := hb.start_le
    rw [ha.unbroken (b - 1) (by omega) (by omega)] at hblank
    cases hblank
  exact Nat.le_antisymm (hle h' h) (hle h h')

theorem EndsRun.sub_length_slice (h : EndsRun text start stop) (hstop : stop ≤ text.length) :
    stop - (text.slice start stop).length = start := by
  rw [Text.length_slice hstop]
  exact Nat.sub_sub_self h.start_le

theorem FirstWord.unique {start' stop' : Nat} (h : FirstWord text start stop)
    (h' : FirstWord text start' stop') : start = start' ∧ stop = stop' := by
  obtain rfl := h.starts.unique h'.starts
  exact ⟨rfl, h.ends.unique h'.ends⟩

/-- Behind the first word stands a blank, where an argument ends past it. -/
theorem FirstWord.blank_behind (h : FirstWord text start stop) (hpast : stop < cursor)
    (hfree : cursor = text.length ∨ text.holdsAt Text.isBlank cursor = true) :
    text.holdsAt Text.isBlank stop = true := by
  refine h.ends.here ?_
  rcases hfree with rfl | hblank
  · exact hpast
  · exact Nat.lt_trans hpast (Text.lt_length_of_holdsAt hblank)

theorem IsMention.endsRun (h : IsMention text cursor start) : EndsRun text start cursor :=
  ⟨Nat.le_of_lt h.before, h.unbroken, h.begins⟩

theorem AsksSlash.starts (h : AsksSlash text cursor t) : text[0]? = some '/' := by
  obtain ⟨hhead, _⟩ := h
  rwa [List.head?_eq_getElem?] at hhead

theorem AsksSlash.typed_eq (h : AsksSlash text cursor t) : t.typed = text.slice 1 cursor := by
  obtain ⟨_, _⟩ := h
  rfl

/-- A first word is not empty. -/
theorem FirstWord.exists_head (h : FirstWord text start stop) :
    ∃ c, text[start]? = some c ∧ start < stop := by
  have hstart := h.starts.here h.inside
  obtain ⟨c, hc, hfull⟩ := Text.exists_of_holdsAt hstart
  refine ⟨c, hc, h.ends.lt h.inside ?_⟩
  rw [Text.holdsAt_of_getElem? hc]
  simpa using hfull

namespace Trigger

theorem lastRun_snoc (t : Text) (c : Char) :
    lastRun (t ++ [c]) = if Text.isBlank c then [] else lastRun t ++ [c] := by
  unfold lastRun
  rw [List.reverse_append, List.reverse_singleton, List.singleton_append, List.takeWhile_cons]
  cases Text.isBlank c <;> simp

theorem endsRun_lastRun (h : stop ≤ text.length) : ∃ start, EndsRun text start stop ∧
    lastRun (text.take stop) = text.slice start stop := by
  -- A further character makes the run longer, or breaks it if it is a blank.
  induction stop with
  | zero =>
    refine ⟨0, ⟨Nat.le_refl _, Text.Absent.self, ?_⟩, rfl⟩
    exact fun i hi => absurd hi (Nat.succ_ne_zero i)
  | succ stop ih =>
    have hc : text[stop]? = some text[stop] := List.getElem?_eq_getElem h
    obtain ⟨start, hrun, hslice⟩ := ih (Nat.le_of_succ_le h)
    have htake : text.take (stop + 1) = text.take stop ++ [text[stop]] := by
      rw [List.take_add_one, hc]
      rfl
    rw [htake, lastRun_snoc]
    by_cases hblank : Text.isBlank text[stop] = true
    · rw [if_pos hblank]
      refine ⟨stop + 1, ⟨Nat.le_refl _, Text.Absent.self, ?_⟩, Text.slice_self.symm⟩
      intro i hi
      obtain rfl : i = stop := by omega
      rw [Text.holdsAt_of_getElem? hc, hblank]
    · rw [if_neg hblank, hslice]
      refine ⟨start, ⟨Nat.le_succ_of_le hrun.start_le, ?_, hrun.begins⟩, ?_⟩
      · refine hrun.unbroken.snoc ?_
        rw [Text.holdsAt_of_getElem? hc]
        exact Bool.eq_false_iff.2 hblank
      · exact (Text.slice_snoc hrun.start_le hc).symm

theorem firstWord?_eq_none_iff :
    firstWord? text = none ↔ ∀ c ∈ text, Text.isBlank c = true := by
  unfold firstWord?
  rw [← List.dropWhile_eq_nil_iff]
  split
  · simp_all
  · simp_all

/-- The first word stands between its positions. -/
theorem firstWord_of_firstWord? (h : firstWord? text = some (start, word)) :
    FirstWord text start (start + word.length) ∧
      word = text.slice start (start + word.length) := by
  have hprefix := firstWord?_prefix h
  have hslice : word = text.slice start (start + word.length) := by
    rw [Text.slice, List.drop_take, Nat.add_sub_cancel_left]
    exact List.prefix_iff_eq_take.1 hprefix
  refine ⟨?_, hslice⟩
  unfold firstWord? at h
  split at h
  · cases h
  · rename_i hword
    cases h
    have hdrop := Text.drop_length_takeWhile text Text.isBlank
    have hstarts := text.isFirst_takeWhile (fun c => !Text.isBlank c) (Nat.zero_le _)
    simp only [List.drop_zero, Bool.not_not, Nat.zero_add] at hstarts
    have hinside : (text.takeWhile Text.isBlank).length < text.length := by
      by_contra hend
      rw [List.drop_of_length_le (by omega)] at hdrop
      exact hword hdrop.symm
    have hends := text.isFirst_takeWhile Text.isBlank hstarts.stop_le
    rw [hdrop] at hends
    exact ⟨hstarts, hinside, hends⟩

theorem firstWord?_of_firstWord (h : FirstWord text start stop) :
    firstWord? text = some (start, text.slice start stop) := by
  rcases hfound : firstWord? text with _ | ⟨start', word⟩
  · have hinside := h.inside
    have hblank := firstWord?_eq_none_iff.1 hfound text[start] (List.getElem_mem hinside)
    have hc : text[start]? = some text[start] := List.getElem?_eq_getElem hinside
    have hstart := h.starts.here hinside
    rw [Text.holdsAt_of_getElem? hc, hblank] at hstart
    cases hstart
  · obtain ⟨hword, hslice⟩ := firstWord_of_firstWord? hfound
    obtain ⟨rfl, rfl⟩ := h.unique hword
    rw [← hslice]

/-! ## Each rule of the detector -/

theorem mention?_eq_some_iff (hcursor : cursor ≤ text.length) :
    mention? text cursor = some t ↔ AsksMention text cursor t := by
  obtain ⟨start, hrun, hslice⟩ := endsRun_lastRun hcursor
  have hstart := hrun.sub_length_slice hcursor
  unfold mention?
  dsimp only
  rw [hslice, hstart]
  constructor
  · intro h
    split at h
    · rename_i typed htyped
      split at h
      · cases h
      · rename_i hrule
        cases h
        simp only [Bool.or_eq_true, decide_eq_true_eq, not_or, Bool.not_eq_true] at hrule
        -- The run holds the mark at least.
        have hlt : start < cursor := by
          rcases Nat.lt_or_eq_of_le hrun.start_le with hlt | rfl
          · exact hlt
          · rw [Text.slice_self] at htyped
            cases htyped
        have hc : text[start]? = some text[start] := List.getElem?_eq_getElem (by omega)
        rw [Text.slice_cons hlt hc, List.cons.injEq] at htyped
        obtain ⟨hmark, rfl⟩ := htyped
        rw [hmark] at hc
        refine .mark ⟨hc, hlt, ?_, hrun.unbroken, hrun.begins, hrule.2⟩
        intro i hi hlt hat
        exact hrule.1 (Text.mem_slice_iff.2 ⟨i, hi, hlt, hat⟩)
    · cases h
  · rintro ⟨hmention⟩
    rename_i pos
    -- The mark starts the run before the cursor, and there is only one such run.
    have hpos : EndsRun text pos cursor :=
      ⟨Nat.le_of_lt hmention.before, hmention.unbroken, hmention.begins⟩
    obtain rfl := hpos.unique hrun
    have htyped : '@' ∉ text.slice (pos + 1) cursor := by
      rw [Text.mem_slice_iff]
      rintro ⟨i, hi, hlt, hat⟩
      exact hmention.last i hi hlt hat
    rw [Text.slice_cons hmention.before hmention.mark]
    simp [htyped, hmention.unquoted]

theorem slash?_eq_some_iff : slash? text cursor = some t ↔ AsksSlash text cursor t := by
  have hrule : (decide (text.head? = some '/') &&
      (text.take cursor).all fun c => !Text.isBlank c) = true ↔
      text.head? = some '/' ∧ Text.Absent (text.holdsAt Text.isBlank) 0 cursor := by
    rw [Bool.and_eq_true, decide_eq_true_eq, List.all_eq_true, Text.absent_holdsAt_iff]
    simp [Text.slice]
  unfold slash?
  constructor
  · intro h
    split at h
    · rename_i hcondition
      obtain ⟨hhead, hunbroken⟩ := hrule.1 hcondition
      cases h
      exact .slash hhead hunbroken
    · cases h
  · rintro ⟨hhead, hunbroken⟩
    rw [if_pos (hrule.2 ⟨hhead, hunbroken⟩)]
    rfl

theorem not_blank_of_firstWord (h : FirstWord text start stop) :
    ¬ ∀ c ∈ text, Text.isBlank c = true := by
  intro hblank
  rw [← firstWord?_eq_none_iff, firstWord?_of_firstWord h] at hblank
  cases hblank

theorem command?_eq_some_iff : command? text cursor = some t ↔ AsksCommand text cursor t := by
  unfold command?
  rcases hword : firstWord? text with _ | ⟨start, word⟩
  · have hblank := firstWord?_eq_none_iff.1 hword
    constructor
    · rintro ⟨⟩
      exact .blank hblank
    · rintro (_ | ⟨hfirst, _, _, _⟩)
      · rfl
      · exact absurd hblank (not_blank_of_firstWord hfirst)
  · obtain ⟨hfirst, hslice⟩ := firstWord_of_firstWord? hword
    obtain ⟨c, hc, hlt⟩ := hfirst.exists_head
    have hhead : word.head? = text[start]? := by
      rw [hslice, Text.slice_cons hlt hc, hc]
      rfl
    have htyped : cursor ≤ start + word.length →
        word.take (cursor - start) = text.slice start cursor := by
      intro hle
      conv => lhs; rw [hslice]
      exact Text.take_slice hle
    have hrule : (decide (start ≤ cursor) && decide (cursor ≤ start + word.length) &&
        decide (word.head? ≠ some '/')) = true ↔
        (start ≤ cursor ∧ cursor ≤ start + word.length) ∧ text[start]? ≠ some '/' := by
      rw [hhead]
      simp
    dsimp only
    constructor
    · intro h
      split at h
      · rename_i hcondition
        obtain ⟨⟨hle, hle'⟩, hslash⟩ := hrule.1 hcondition
        cases h
        rw [htyped hle']
        exact .word hfirst hle hle' hslash
      · cases h
    · rintro (hblank | ⟨hfirst', hle, hle', hslash⟩)
      · exact absurd hblank (not_blank_of_firstWord hfirst)
      · obtain ⟨rfl, rfl⟩ := hfirst.unique hfirst'
        rw [if_pos (hrule.2 ⟨⟨hle, hle'⟩, hslash⟩), htyped hle']

theorem argument?_eq_some_iff (hcursor : cursor ≤ text.length) :
    argument? text cursor = some t ↔ AsksArgument text cursor t := by
  obtain ⟨start, hrun, hslice⟩ := endsRun_lastRun hcursor
  have hstart := hrun.sub_length_slice hcursor
  have hfree : ((text.drop cursor).head?.any fun c => !Text.isBlank c) = true ↔
      ¬ (cursor = text.length ∨ text.holdsAt Text.isBlank cursor = true) := by
    rw [List.head?_drop, Text.holdsAt]
    rcases Nat.lt_or_eq_of_le hcursor with hlt | rfl
    · simp [List.getElem?_eq_getElem hlt, Nat.ne_of_lt hlt]
    · simp
  unfold argument?
  dsimp only
  rw [hslice, hstart]
  rcases hword : firstWord? text with _ | ⟨first, word⟩
  · constructor
    · intro h
      cases h
    · rintro ⟨hfirst, _, _, _⟩
      exact absurd (firstWord?_eq_none_iff.1 hword) (not_blank_of_firstWord hfirst)
  · obtain ⟨hfirst, _⟩ := firstWord_of_firstWord? hword
    dsimp only
    constructor
    · intro h
      split at h
      · cases h
      · rename_i hpast
        split at h
        · cases h
        · rename_i hcondition
          rw [hfree, not_not] at hcondition
          cases h
          exact .run hfirst (Nat.lt_of_not_le hpast) hcondition hrun
    · rintro ⟨hfirst', hpast, hcondition, hrun'⟩
      obtain ⟨rfl, rfl⟩ := hfirst.unique hfirst'
      obtain rfl := hrun.unique hrun'
      rw [if_neg (Nat.not_le_of_lt hpast), if_neg (fun h => hfree.1 h hcondition)]

/-! ## The detector -/

/-- A rule that never asks for a trigger does not apply. -/
theorem eq_none_iff_of_asks {rule : Option Trigger} {Asks : Trigger → Prop}
    (h : ∀ u, rule = some u ↔ Asks u) : rule = none ↔ ∀ u, ¬ Asks u := by
  rw [Option.eq_none_iff_forall_ne_some]
  exact forall_congr' fun u => not_congr (h u)

theorem mention?_eq_none_iff (hcursor : cursor ≤ text.length) :
    mention? text cursor = none ↔ ∀ u, ¬ AsksMention text cursor u :=
  eq_none_iff_of_asks fun _ => mention?_eq_some_iff hcursor

theorem slash?_eq_none_iff : slash? text cursor = none ↔ ∀ u, ¬ AsksSlash text cursor u :=
  eq_none_iff_of_asks fun _ => slash?_eq_some_iff

theorem command?_eq_none_iff : command? text cursor = none ↔ ∀ u, ¬ AsksCommand text cursor u :=
  eq_none_iff_of_asks fun _ => command?_eq_some_iff

theorem argument?_eq_none_iff (hcursor : cursor ≤ text.length) :
    argument? text cursor = none ↔ ∀ u, ¬ AsksArgument text cursor u :=
  eq_none_iff_of_asks fun _ => argument?_eq_some_iff hcursor

/-- What fires is found. -/
theorem detect_of_fires (h : Fires text (min cursor text.length) mode t) :
    detect text cursor mode = t := by
  have hcursor : min cursor text.length ≤ text.length := Nat.min_le_right _ _
  unfold detect
  dsimp only
  generalize min cursor text.length = cursor at h hcursor
  cases h with
  | mention hasks =>
    rw [(mention?_eq_some_iff hcursor).2 hasks]
    rfl
  | slash hmention hasks =>
    rw [(mention?_eq_none_iff hcursor).2 hmention, slash?_eq_some_iff.2 hasks]
    rfl
  | command hmention hslash hmode hasks =>
    rw [(mention?_eq_none_iff hcursor).2 hmention, slash?_eq_none_iff.2 hslash, if_pos hmode,
      command?_eq_some_iff.2 hasks]
    rfl
  | argument hmention hslash hmode hcommand hasks =>
    rw [(mention?_eq_none_iff hcursor).2 hmention, slash?_eq_none_iff.2 hslash, if_pos hmode,
      command?_eq_none_iff.2 hcommand, (argument?_eq_some_iff hcursor).2 hasks]
    rfl
  | nothing hmention hslash hshell =>
    rw [(mention?_eq_none_iff hcursor).2 hmention, slash?_eq_none_iff.2 hslash]
    split
    · rename_i hmode
      rw [command?_eq_none_iff.2 fun u => (hshell hmode u).1,
        (argument?_eq_none_iff hcursor).2 fun u => (hshell hmode u).2]
      rfl
    · rfl

/-- What is found fires. -/
theorem fires_detect (text : Text) (cursor : Nat) (mode : Mode) :
    Fires text (min cursor text.length) mode (detect text cursor mode) := by
  have hcursor : min cursor text.length ≤ text.length := Nat.min_le_right _ _
  unfold detect
  dsimp only
  generalize min cursor text.length = cursor at hcursor
  rcases hm : mention? text cursor with _ | u
  · have hmention := (mention?_eq_none_iff hcursor).1 hm
    rcases hs : slash? text cursor with _ | u
    · have hslash := slash?_eq_none_iff.1 hs
      by_cases hmode : mode = .shell
      · rw [if_pos hmode]
        rcases hc : command? text cursor with _ | u
        · have hcommand := command?_eq_none_iff.1 hc
          rcases ha : argument? text cursor with _ | u
          · have hargument := (argument?_eq_none_iff hcursor).1 ha
            exact .nothing hmention hslash fun _ u => ⟨hcommand u, hargument u⟩
          · exact .argument hmention hslash hmode hcommand ((argument?_eq_some_iff hcursor).1 ha)
        · exact .command hmention hslash hmode (command?_eq_some_iff.1 hc)
      · rw [if_neg hmode]
        exact .nothing hmention hslash fun h => absurd h hmode
    · exact .slash hmention (slash?_eq_some_iff.1 hs)
  · exact .mention ((mention?_eq_some_iff hcursor).1 hm)

end Trigger

/-! ## The law -/

/-- At every cursor the detector gives the trigger of the first rule that applies. -/
theorem the_first_rule_that_applies_fires (text : Text) (cursor : Nat) (mode : Mode) (t : Trigger) :
    Fires text (min cursor text.length) mode t ↔ Trigger.detect text cursor mode = t := by
  constructor
  · exact Trigger.detect_of_fires
  · rintro rfl
    exact Trigger.fires_detect text cursor mode

end Typeahead
