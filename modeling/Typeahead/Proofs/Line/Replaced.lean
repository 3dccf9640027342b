import Typeahead.Proofs.Line.Rule

/-!
Where the typed text stands. Every rule takes as typed the characters from some position up to the
cursor, with no blank among them, and these are what an accepted candidate replaces. So a slash
command is put behind the slash, unless the cursor was before it.
-/
namespace Typeahead

variable {rule : Rule} {text : Text} {cursor pos start : Nat} {mode : Mode} {t : Trigger}

/-! ## The start of the typed text -/

/-- The typed text of a trigger runs from a position up to the cursor and holds no blank. -/
structure Trigger.TypedFrom (t : Trigger) (text : Text) (cursor start : Nat) : Prop where
  start_le : start ≤ cursor
  typed : t.typed = text.slice start cursor
  unbroken : Text.Absent (text.holdsAt Text.isBlank) start cursor

theorem Trigger.TypedFrom.empty {kind : TriggerKind} {position : Option Nat} :
    TypedFrom ⟨kind, position, []⟩ text cursor cursor :=
  ⟨Nat.le_refl _, Text.slice_self.symm, Text.Absent.self⟩

theorem Trigger.TypedFrom.length (h : t.TypedFrom text cursor start)
    (hcursor : cursor ≤ text.length) : t.typed.length = cursor - start := by
  rw [h.typed, Text.length_slice hcursor]

/-- What is replaced is what was typed. -/
theorem Trigger.TypedFrom.replaced?_eq (h : t.TypedFrom text cursor start)
    (hactive : t.isActive = true) (hcursor : cursor ≤ text.length) :
    t.replaced? cursor = some (start, cursor) := by
  unfold replaced?
  rw [if_pos hactive, h.length hcursor, Nat.sub_sub_self h.start_le]

namespace Rule

/-- Where the typed text starts, by the position of the trigger: behind an at sign, and behind the
slash of a slash command unless the cursor is still before it. -/
def typedStart (rule : Rule) (cursor pos : Nat) : Nat :=
  if rule = .mention ∨ rule = .slash ∧ 1 ≤ cursor then pos + 1 else pos

/-- Each rule takes as typed what stands between its start and the cursor. -/
theorem Asks.exists_typedFrom (h : rule.Asks text cursor t) :
    ∃ pos, t.position = some pos ∧ t.TypedFrom text cursor (rule.typedStart cursor pos) := by
  cases rule with
  | mention =>
    cases h with
    | @mark pos hmention =>
      exact ⟨pos, rfl, hmention.before, rfl,
        fun i hle hlt => hmention.unbroken i (Nat.le_of_succ_le hle) hlt⟩
  | slash =>
    cases h with
    | slash _ hunbroken =>
      refine ⟨0, rfl, ?_⟩
      rcases Nat.eq_zero_or_pos cursor with rfl | hpos
      · exact ⟨Nat.le_refl 0, rfl, Text.Absent.self⟩
      · have hstart : typedStart .slash cursor 0 = 1 := if_pos (Or.inr ⟨rfl, hpos⟩)
        rw [hstart]
        exact ⟨hpos, rfl, fun i _ hlt => hunbroken i (Nat.zero_le i) hlt⟩
  | command =>
    cases h with
    | blank => exact ⟨cursor, rfl, .empty⟩
    | @word start stop hword hle hle' =>
      exact ⟨start, rfl, hle, rfl,
        fun i hi hlt => hword.ends.absent i hi (Nat.lt_of_lt_of_le hlt hle')⟩
  | argument =>
    cases h with
    | @run _ _ start _ _ _ hrun => exact ⟨start, rfl, hrun.start_le, rfl, hrun.unbroken⟩

end Rule

/-! ## The law -/

/-- What an accepted candidate replaces is what was typed: all of it stands right before the cursor,
and it starts at the position of the trigger or, where that is an at sign or a slash, behind it. -/
theorem what_is_replaced_is_what_was_typed
    (hactive : (Trigger.detect text cursor mode).isActive = true) :
    let c := min cursor text.length
    let t := Trigger.detect text cursor mode
    ∃ (rule : Rule) (pos start : Nat), rule.Makes text c mode t ∧ t.position = some pos ∧
      t.typed.length ≤ c ∧ start = c - t.typed.length ∧ t.replaced? c = some (start, c) ∧
      text.slice start c = t.typed ∧ (∀ ch ∈ t.typed, Text.isBlank ch = false) ∧
      start = if rule = .mention ∨ rule = .slash ∧ 1 ≤ c then pos + 1 else pos := by
  intro c t
  obtain ⟨rule, hmakes⟩ := Rule.exists_makes_detect hactive
  obtain ⟨pos, hpos, htyped⟩ := hmakes.asks.exists_typedFrom
  have hcursor : c ≤ text.length := Nat.min_le_right _ _
  have hlength : t.typed.length = c - rule.typedStart c pos := htyped.length hcursor
  have hle : rule.typedStart c pos ≤ c := htyped.start_le
  have hunbroken := Text.absent_holdsAt_iff.1 htyped.unbroken
  rw [← htyped.typed] at hunbroken
  exact ⟨rule, pos, rule.typedStart c pos, hmakes, hpos, by omega, by omega,
    htyped.replaced?_eq hactive hcursor, htyped.typed.symm, hunbroken, rfl⟩

/-- With the cursor past the end of the line, the name behind the at sign is replaced. -/
theorem the_name_behind_the_at_sign_is_replaced :
    let line : Text := "tell @ad".toList
    let t := Trigger.detect line 40 .nl
    t = ⟨.entity, some 5, "ad".toList⟩ ∧
      ∃ (rule : Rule) (pos start : Nat), rule.Makes line 8 .nl t ∧ t.position = some pos ∧
        t.typed.length ≤ 8 ∧ start = 8 - t.typed.length ∧ t.replaced? 8 = some (start, 8) ∧
        line.slice start 8 = t.typed ∧ (∀ ch ∈ t.typed, Text.isBlank ch = false) ∧
        start = if rule = .mention ∨ rule = .slash ∧ 1 ≤ 8 then pos + 1 else pos := by
  intro line t
  have hactive : t.isActive = true := by decide
  exact ⟨by decide, what_is_replaced_is_what_was_typed hactive⟩

/-! ## Slash commands -/

/-- A text before a character begins with that character and itself only if it repeats it. -/
theorem Text.cons_prefix_append_cons_iff {c : Char} {v rest : Text} :
    c :: v <+: v ++ c :: rest ↔ ∀ d ∈ v, d = c := by
  induction v with
  | nil => simp
  | cons d v ih =>
    rw [List.cons_append, List.cons_prefix_cons, List.forall_mem_cons]
    constructor
    · rintro ⟨rfl, hrest⟩
      exact ⟨rfl, ih.1 hrest⟩
    · rintro ⟨rfl, hall⟩
      exact ⟨rfl, ih.2 hall⟩

theorem AsksSlash.exists_cons (h : AsksSlash text cursor t) : ∃ rest, text = '/' :: rest :=
  List.head?_eq_some_iff.1 (List.head?_eq_getElem?.trans h.starts)

/-- What is replaced for a slash command starts behind the slash, or before it if the cursor is
there. -/
theorem AsksSlash.replaced?_eq (h : AsksSlash text cursor t) (hcursor : cursor ≤ text.length) :
    t.replaced? cursor = some (min cursor 1, cursor) := by
  have hasks : Rule.slash.Asks text cursor t := h
  obtain ⟨pos, hpos, htyped⟩ := hasks.exists_typedFrom
  have hstart : Rule.slash.typedStart cursor pos = min cursor 1 := by
    cases h with
    | slash _ _ =>
      cases hpos
      rcases Nat.eq_zero_or_pos cursor with rfl | hbehind
      · rfl
      · rw [Nat.min_eq_right hbehind]
        exact if_pos (Or.inr ⟨rfl, hbehind⟩)
  rw [htyped.replaced?_eq hasks.isActive hcursor, hstart]

/-- A text accepted for a slash command stands behind the slash. With the cursor before the slash it
stands there too, and then the line starts with a slash and the text only if the text is made of
slashes. -/
theorem an_accepted_command_stands_behind_its_slash
    (hkind : (Trigger.detect text cursor mode).kind = .slashCommand) (v : Text) :
    let c := min cursor text.length
    ∃ range, (Trigger.detect text cursor mode).replaced? c = some range ∧
      (1 ≤ cursor → text.splice range v = '/' :: (v ++ text.drop c)) ∧
      (cursor = 0 → text.splice range v = v ++ text) ∧
      ('/' :: v <+: text.splice range v ↔ 1 ≤ cursor ∨ ∀ ch ∈ v, ch = '/') := by
  intro c
  have hasks := Rule.asksSlash_of_fires (Trigger.fires_detect text cursor mode) hkind
  have hcursor : c ≤ text.length := Nat.min_le_right _ _
  obtain ⟨rest, hline⟩ := hasks.exists_cons
  refine ⟨_, hasks.replaced?_eq hcursor, ?_⟩
  rcases Nat.eq_zero_or_pos cursor with rfl | hpos
  · have hsplice : text.splice (min c 1, c) v = v ++ text := by
      have hc : c = 0 := Nat.zero_min _
      rw [hc]
      rfl
    rw [hsplice, hline, Text.cons_prefix_append_cons_iff]
    simp
  · have hsplice : text.splice (min c 1, c) v = '/' :: (v ++ text.drop c) := by
      have hc : min c 1 = 1 := Nat.min_eq_right (Nat.le_min.2 ⟨hpos, hline ▸ Nat.succ_pos _⟩)
      have htake : text.take 1 = ['/'] := by
        rw [hline]
        rfl
      unfold Text.splice
      rw [hc, htake]
      rfl
    rw [hsplice, List.cons_prefix_cons]
    exact ⟨fun _ => rfl, fun hzero => absurd hzero (Nat.ne_of_gt hpos),
      iff_of_true ⟨rfl, List.prefix_append _ _⟩ (Or.inl hpos)⟩

/-- A name accepted in the middle of another one takes the place of the part before the cursor. -/
theorem the_name_stands_behind_the_slash :
    let line : Text := "/hepl me".toList
    let t := Trigger.detect line 3 .nl
    t.kind = .slashCommand ∧
      ∃ range, t.replaced? 3 = some range ∧
        line.splice range "help".toList = "/helppl me".toList := by
  intro line t
  have hkind : t.kind = .slashCommand := by decide
  obtain ⟨range, hreplaced, hbehind, _⟩ :=
    an_accepted_command_stands_behind_its_slash hkind "help".toList
  exact ⟨hkind, range, hreplaced, hbehind (by decide)⟩

/-- A name accepted with the cursor at the start of the line is put before the slash. -/
theorem a_name_accepted_before_the_slash_gets_none :
    let line : Text := "/help".toList
    let t := Trigger.detect line 0 .nl
    t.kind = .slashCommand ∧ t.replaced? 0 = some (0, 0) ∧
      line.splice (0, 0) "quit".toList = "quit/help".toList ∧
      ¬ '/' :: "quit".toList <+: line.splice (0, 0) "quit".toList := by
  decide

end Typeahead
