import Typeahead.Proofs.Line.Beginning
import Typeahead.Proofs.Line.Replaced

/-!
A line with a word typed in place of what was typed before. The same rule applies to it at the same
position and takes the word as typed, so an accepted candidate is found where it was inserted.
-/
namespace Typeahead

variable {text text' v : Text} {first stop start cursor pos i : Nat} {mode : Mode} {t : Trigger}
  {rule : Rule} {c : Char}

/-! ## Retyped lines -/

/-- A word that may be typed for any trigger: it is not empty and holds no blank and no at sign. -/
structure IsWord (v : Text) : Prop where
  ne_nil : v ≠ []
  full : ∀ c ∈ v, Text.isBlank c = false
  unmarked : '@' ∉ v

/-- The second line holds the word where the first one holds what is typed from `start` up to the
cursor, and is the same before and behind. -/
structure Retyped (text : Text) (start cursor : Nat) (v text' : Text) : Prop where
  word : IsWord v
  alike : text.Alike start text'
  typed : text'.slice start (start + v.length) = v
  rest : text'.drop (start + v.length) = text.drop cursor
  le_length : start + v.length ≤ text'.length

theorem retyped_splice (hv : IsWord v) (hstart : start ≤ cursor) (hcursor : cursor ≤ text.length) :
    Retyped text start cursor v (text.splice (start, cursor) v) := by
  have hlength : (text.take start).length = start :=
    List.length_take_of_le (Nat.le_trans hstart hcursor)
  have hall : (text.take start ++ v).length = start + v.length := by
    rw [List.length_append, hlength]
  unfold Text.splice
  refine ⟨hv, ⟨?_, Nat.le_trans hstart hcursor, ?_⟩, ?_, ?_, ?_⟩
  · rw [List.append_assoc, List.take_append_of_le_length (Nat.le_of_eq hlength.symm),
      List.take_take, Nat.min_self]
  · rw [List.append_assoc, List.length_append, hlength]
    exact Nat.le_add_right _ _
  · unfold Text.slice
    rw [← hall, List.take_left, List.drop_left' hlength]
  · rw [← hall, List.drop_left]
  · rw [List.length_append, hall]
    exact Nat.le_add_right _ _

namespace Retyped

theorem length_pos (h : Retyped text start cursor v text') : 0 < v.length :=
  List.length_pos_iff.2 h.word.ne_nil

/-- The word begins where the typed text began. -/
theorem head (h : Retyped text start cursor v text') : text'[start]? = v.head? := by
  have hhead := congrArg List.head? h.typed
  have hlt : start < start + v.length := Nat.lt_add_of_pos_right h.length_pos
  rwa [Text.slice, List.head?_drop, List.getElem?_take_of_lt hlt] at hhead

theorem unbroken (h : Retyped text start cursor v text') :
    Text.Absent (text'.holdsAt Text.isBlank) start (start + v.length) := by
  rw [Text.absent_holdsAt_iff, h.typed]
  exact h.word.full

theorem unmarked (h : Retyped text start cursor v text') (hle : start ≤ i)
    (hlt : i < start + v.length) : text'[i]? ≠ some '@' := by
  intro hi
  have hmem : '@' ∈ text'.slice start (start + v.length) := Text.mem_slice_iff.2 ⟨i, hle, hlt, hi⟩
  rw [h.typed] at hmem
  exact h.word.unmarked hmem

/-- Behind the word the line goes on as it did behind the cursor. -/
theorem free (h : Retyped text start cursor v text')
    (hfree : cursor = text.length ∨ text.holdsAt Text.isBlank cursor = true) :
    start + v.length = text'.length ∨ text'.holdsAt Text.isBlank (start + v.length) = true := by
  have hle := h.le_length
  have hlength := congrArg List.length h.rest
  rw [List.length_drop, List.length_drop] at hlength
  refine hfree.imp (fun hend => by omega) fun hblank => ?_
  unfold Text.holdsAt at hblank ⊢
  rwa [← List.head?_drop, h.rest, List.head?_drop]

/-- Behind a blank or at the start of the line, the word is a run of its own. -/
theorem endsRun (h : Retyped text start cursor v text')
    (hbegins : ∀ i, i + 1 = start → text.holdsAt Text.isBlank i = true) :
    EndsRun text' start (start + v.length) := by
  refine ⟨Nat.le_add_right _ _, h.unbroken, ?_⟩
  intro i hi
  rw [← h.alike.holdsAt_eq (by omega)]
  exact hbegins i hi

/-- A character that is no blank, right before the word, is in one run with it. -/
theorem unbroken_behind (h : Retyped text (pos + 1) cursor v text') (hmark : text[pos]? = some c)
    (hc : Text.isBlank c = false) :
    text'[pos]? = some c ∧ Text.Absent (text'.holdsAt Text.isBlank) pos (pos + 1 + v.length) := by
  have hmark' : text'[pos]? = some c :=
    (h.alike.getElem?_eq (Nat.lt_succ_self pos)).symm.trans hmark
  refine ⟨hmark', ?_⟩
  intro i hi hlt
  rcases Nat.eq_or_lt_of_le hi with rfl | hafter
  · exact (Text.holdsAt_of_getElem? hmark').trans hc
  · exact h.unbroken i hafter hlt

end Retyped

/-! ## Rules that do not apply -/

/-- A run that does not start with an at sign holds no live one. -/
theorem not_asksMention (hrun : EndsRun text start cursor) (hmark : text[start]? ≠ some '@') :
    ¬ AsksMention text cursor t := by
  rintro ⟨hmention⟩
  obtain rfl := hmention.endsRun.unique hrun
  exact hmark hmention.mark

theorem not_asksSlash (hi : i < cursor) (hblank : text.holdsAt Text.isBlank i = true) :
    ¬ AsksSlash text cursor t := by
  rintro ⟨_, hunbroken⟩
  rw [hunbroken i (Nat.zero_le i) hi] at hblank
  cases hblank

theorem not_asksCommand (hword : FirstWord text first stop) (hpast : stop < cursor) :
    ¬ AsksCommand text cursor t := by
  rintro (hblank | ⟨hword', _, hle, _⟩)
  · exact Trigger.not_blank_of_firstWord hword hblank
  · obtain ⟨_, rfl⟩ := hword'.unique hword
    exact absurd hpast (Nat.not_lt.2 hle)

/-- A word without an at sign, behind a blank or at the start of the line, is no mention. -/
theorem Retyped.not_asksMention (h : Retyped text start cursor v text')
    (hbegins : ∀ i, i + 1 = start → text.holdsAt Text.isBlank i = true) :
    ¬ AsksMention text' (start + v.length) t := by
  refine Typeahead.not_asksMention (h.endsRun hbegins) (h.unmarked (Nat.le_refl start) ?_)
  exact Nat.lt_add_of_pos_right h.length_pos

/-- A run starts behind every blank before its end. -/
theorem EndsRun.lt_start (hrun : EndsRun text start stop)
    (hblank : text.holdsAt Text.isBlank i = true) (hi : i < stop) : i < start := by
  by_contra hle
  rw [hrun.unbroken i (Nat.not_lt.1 hle) hi] at hblank
  cases hblank

/-! ## The rule that applies again -/

/-- A line with a slash command is not empty. -/
theorem AsksSlash.length_pos (h : AsksSlash text cursor t) : 0 < text.length :=
  (List.getElem?_eq_some_iff.1 h.starts).1

namespace Rule

theorem makes_mention_retyped (hmention : IsMention text cursor pos)
    (h : Retyped text (pos + 1) cursor v text') :
    Rule.mention.Makes text' (pos + 1 + v.length) mode ⟨.entity, some pos, v⟩ := by
  obtain ⟨hmark, hunbroken⟩ := h.unbroken_behind hmention.mark (by decide)
  have hbefore : pos < pos + 1 + v.length := by omega
  have hbegins : ∀ i, i + 1 = pos → text'.holdsAt Text.isBlank i = true := by
    intro i hi
    rw [← h.alike.holdsAt_eq (by omega)]
    exact hmention.begins i hi
  have hunquoted : (quoteAt text' pos).isOpen = false := by
    rw [← h.alike.quoteAt_eq (Nat.le_succ pos)]
    exact hmention.unquoted
  have hasks := AsksMention.mark
    ⟨hmark, hbefore, fun i hi hlt => h.unmarked hi hlt, hunbroken, hbegins, hunquoted⟩
  rw [h.typed] at hasks
  exact ⟨hasks, rfl, nofun⟩

theorem makes_slash_retyped (hhead : text.head? = some '/')
    (h : Retyped text (0 + 1) cursor v text') :
    Rule.slash.Makes text' (0 + 1 + v.length) mode ⟨.slashCommand, some 0, v⟩ := by
  rw [List.head?_eq_getElem?] at hhead
  obtain ⟨hslash, hunbroken⟩ := h.unbroken_behind hhead (by decide)
  have hrun : EndsRun text' 0 (0 + 1 + v.length) :=
    ⟨Nat.zero_le _, hunbroken, fun i hi => absurd hi (Nat.succ_ne_zero i)⟩
  have hmark : text'[0]? ≠ some '@' := by
    rw [hslash]
    decide
  have hasks := AsksSlash.slash (List.head?_eq_getElem?.trans hslash) hunbroken
  rw [h.typed] at hasks
  exact ⟨hasks, rfl, List.forall_mem_singleton.2 fun _ => not_asksMention hrun hmark⟩

/-- A word behind blanks only is the command. -/
theorem makes_command_retyped
    (hblank : Text.Absent (text.holdsAt fun c => !Text.isBlank c) 0 start)
    (hslash : v.head? ≠ some '/') (h : Retyped text start cursor v text') :
    Rule.command.Makes text' (start + v.length) .shell ⟨.command, some start, v⟩ := by
  have hblank' := h.alike.absent (Nat.le_refl start) hblank
  have hbegins : ∀ i, i + 1 = start → text.holdsAt Text.isBlank i = true := by
    intro i hi
    have hinside : i < text.length := Nat.lt_of_lt_of_le (by omega) h.alike.le_left
    have hnone := hblank i (Nat.zero_le i) (by omega)
    rwa [Text.holdsAt_not hinside, Bool.not_eq_false'] at hnone
  have hnoslash : ∀ u, ¬ AsksSlash text' (start + v.length) u := by
    intro _ hasks
    have hhead := hasks.starts
    rcases Nat.eq_zero_or_pos start with rfl | hpos
    · exact hslash (h.head.symm.trans hhead)
    · -- The first character of the line is a blank.
      have hnone := hblank' 0 (Nat.le_refl 0) hpos
      rw [Text.holdsAt_of_getElem? hhead] at hnone
      revert hnone
      decide
  have hlt : start < start + v.length := Nat.lt_add_of_pos_right h.length_pos
  have hstart : text'.holdsAt (fun c => !Text.isBlank c) start = true := by
    rw [Text.holdsAt_not (Nat.lt_of_lt_of_le hlt h.le_length),
      h.unbroken start (Nat.le_refl start) hlt]
    rfl
  obtain ⟨stop, hstop, hword⟩ := exists_firstWord hblank' hstart h.unbroken h.le_length
  have hasks : AsksCommand text' (start + v.length) _ :=
    .word hword (Nat.le_of_lt hlt) hstop (h.head ▸ hslash)
  rw [h.typed] at hasks
  exact ⟨hasks, rfl, List.forall_mem_cons.2
    ⟨fun _ => h.not_asksMention hbegins, List.forall_mem_singleton.2 hnoslash⟩⟩

/-- A word at the start of a run behind the first word is an argument, if no word goes on behind
it. -/
theorem makes_argument_retyped (hword : FirstWord text first stop) (hpast : stop < start)
    (hfree : cursor = text.length ∨ text.holdsAt Text.isBlank cursor = true)
    (hrun : EndsRun text start cursor) (h : Retyped text start cursor v text') :
    Rule.argument.Makes text' (start + v.length) .shell ⟨.entity, some start, v⟩ := by
  have hrun' := h.endsRun hrun.begins
  have hword' := hword.alike h.alike hpast
  have hpast' : stop < start + v.length := Nat.lt_add_right _ hpast
  -- The blank in front of the run keeps the line from being a slash command.
  have hblank : text'.holdsAt Text.isBlank (start - 1) = true := hrun'.begins _ (by omega)
  have hasks : AsksArgument text' (start + v.length) _ :=
    .run hword' hpast' (h.free hfree) hrun'
  rw [h.typed] at hasks
  refine ⟨hasks, rfl, List.forall_mem_cons.2 ⟨fun _ => h.not_asksMention hrun.begins,
    List.forall_mem_cons.2 ⟨fun _ => not_asksSlash (by omega) hblank,
      List.forall_mem_singleton.2 fun _ => not_asksCommand hword' hpast'⟩⟩⟩

/-- The rule that made a trigger makes one of the retyped line, with the same position. -/
theorem Makes.retyped (hmakes : rule.Makes text cursor mode t) (hposition : t.position = some pos)
    (hslash : rule = .command → v.head? ≠ some '/') (hbehind : rule = .slash → 1 ≤ cursor)
    (h : Retyped text (rule.typedStart cursor pos) cursor v text') :
    rule.Makes text' (rule.typedStart cursor pos + v.length) mode { t with typed := v } := by
  obtain ⟨hasks, happlies, _⟩ := hmakes
  cases rule with
  | mention =>
    cases hasks with
    | mark hmention =>
      cases hposition
      exact makes_mention_retyped hmention h
  | slash =>
    cases hasks with
    | slash hhead _ =>
      cases hposition
      have hstart : typedStart .slash cursor 0 = 0 + 1 := if_pos (Or.inr ⟨rfl, hbehind rfl⟩)
      rw [hstart] at h ⊢
      exact makes_slash_retyped hhead h
  | command =>
    obtain rfl : mode = .shell := of_decide_eq_true happlies
    cases hasks with
    | blank hblank =>
      cases hposition
      refine makes_command_retyped ?_ (hslash rfl) h
      rw [Text.absent_holdsAt_iff]
      intro c hc
      obtain ⟨i, _, _, hi⟩ := Text.mem_slice_iff.1 hc
      rw [hblank c (List.mem_of_getElem? hi)]
      rfl
    | word hword _ _ _ =>
      cases hposition
      exact makes_command_retyped hword.starts.absent (hslash rfl) h
  | argument =>
    obtain rfl : mode = .shell := of_decide_eq_true happlies
    cases hasks with
    | @run first stop _ hword hpast hfree hrun =>
      cases hposition
      have hbefore : stop < pos := hrun.lt_start (hword.blank_behind hpast hfree) hpast
      exact makes_argument_retyped hword hbefore hfree hrun h

end Rule

/-! ## The law -/

theorem Text.splice_splice (hstart : start ≤ text.length) :
    (text.splice (start, cursor) v).splice (start, start + v.length) v =
      text.splice (start, cursor) v := by
  have hmiddle := Text.splice_middle (text.take start) v (text.drop cursor) v
  rwa [List.length_take_of_le hstart] at hmiddle

/-- A word that was accepted for a trigger is what is typed for the same kind of trigger at the same
position, and accepting it again changes nothing. For a command it may not start with a slash, and a
slash command must have been typed behind its slash. -/
theorem what_was_accepted_is_found_where_it_was_inserted
    (hactive : (Trigger.detect text cursor mode).isActive = true) (hne : v ≠ [])
    (hblank : ∀ ch ∈ v, Text.isBlank ch = false) (hmark : '@' ∉ v)
    (hslash : (Trigger.detect text cursor mode).kind = .command → v.head? ≠ some '/')
    (hbehind : (Trigger.detect text cursor mode).kind = .slashCommand → 1 ≤ cursor) :
    let c := min cursor text.length
    let t := Trigger.detect text cursor mode
    ∃ start, t.replaced? c = some (start, c) ∧
      let text' := text.splice (start, c) v
      let c' := start + v.length
      let t' := Trigger.detect text' c' mode
      t'.isActive = true ∧ t'.kind = t.kind ∧ t'.position = t.position ∧ t'.typed = v ∧
        t'.replaced? c' = some (start, start + v.length) ∧
        text'.splice (start, start + v.length) v = text' := by
  intro c t
  obtain ⟨rule, hmakes⟩ := Rule.exists_makes_detect hactive
  obtain ⟨pos, hposition, htyped⟩ := hmakes.asks.exists_typedFrom
  have hcursor : c ≤ text.length := Nat.min_le_right _ _
  have hslash' : rule = .command → v.head? ≠ some '/' := by
    rintro rfl
    exact hslash hmakes.asks.kind_eq
  have hbehind' : rule = .slash → 1 ≤ c := by
    rintro rfl
    exact Nat.le_min.2 ⟨hbehind hmakes.asks.kind_eq, hmakes.asks.length_pos⟩
  have hretyped := retyped_splice ⟨hne, hblank, hmark⟩ htyped.start_le hcursor
  refine ⟨rule.typedStart c pos, htyped.replaced?_eq hactive hcursor, ?_⟩
  have hagain := hmakes.retyped hposition hslash' hbehind' hretyped
  rw [← Nat.min_eq_left hretyped.le_length] at hagain
  dsimp only
  rw [hagain.detect_eq]
  refine ⟨hactive, rfl, rfl, rfl, ?_, Text.splice_splice hretyped.alike.le_left⟩
  unfold Trigger.replaced?
  rw [if_pos hagain.asks.isActive, Nat.add_sub_cancel]

/-- The second name takes the place of what was typed of it, in the middle of the line, and again of
itself. -/
theorem the_name_is_found_where_it_was_inserted :
    let line : Text := "cp a.txt b.t /tmp".toList
    let name : Text := "b-2.txt".toList
    let line' : Text := "cp a.txt b-2.txt /tmp".toList
    let t := Trigger.detect line 12 .shell
    t = ⟨.entity, some 9, "b.t".toList⟩ ∧ line.splice (9, 12) name = line' ∧
      ∃ start, t.replaced? 12 = some (start, 12) ∧
        let text' := line.splice (start, 12) name
        let c' := start + name.length
        let t' := Trigger.detect text' c' .shell
        t'.isActive = true ∧ t'.kind = t.kind ∧ t'.position = t.position ∧ t'.typed = name ∧
          t'.replaced? c' = some (start, start + name.length) ∧
          text'.splice (start, start + name.length) name = text' := by
  intro line name line' t
  have hactive : t.isActive = true := by decide
  have hcommand : t.kind ≠ .command := by decide
  have hslash : t.kind ≠ .slashCommand := by decide
  have hfull : name.all (fun ch => Text.isBlank ch = false) = true := by decide
  have hblank : ∀ ch ∈ name, Text.isBlank ch = false :=
    fun ch hch => of_decide_eq_true (List.all_eq_true.1 hfull ch hch)
  exact ⟨by decide, by decide, what_was_accepted_is_found_where_it_was_inserted hactive (by decide)
    hblank (by decide) (fun h => absurd h hcommand) (fun h => absurd h hslash)⟩

end Typeahead
