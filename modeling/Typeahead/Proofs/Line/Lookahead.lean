import Typeahead.Proofs.Line.Beginning
import Typeahead.Proofs.Line.Rule

/-!
What stands behind the cursor. As soon as something other than blanks was typed, the rules look behind
the cursor for one thing only, whether a word goes on there, and only the rule for arguments asks for
that.
-/
namespace Typeahead

variable {text text' : Text} {cursor i : Nat} {mode : Mode} {t : Trigger} {rule : Rule}

/-- The text begins with a character that is no blank. -/
def Text.beginsWord (t : Text) : Bool := t.holdsAt (fun c => !isBlank c) 0

theorem Text.holdsAt_append_length (a b : Text) (p : Char → Bool) :
    (a ++ b).holdsAt p a.length = b.holdsAt p 0 := by
  unfold holdsAt
  rw [List.getElem?_append_right (Nat.le_refl _), Nat.sub_self]

/-! ## Two texts that begin alike -/

/-- No character of a word follows the position. -/
theorem free_iff (hcursor : cursor ≤ text.length) :
    cursor = text.length ∨ text.holdsAt Text.isBlank cursor = true ↔
      text.holdsAt (fun c => !Text.isBlank c) cursor = false := by
  rcases Nat.lt_or_eq_of_le hcursor with hlt | rfl
  · rw [Text.holdsAt_not hlt, Bool.not_eq_false']
    exact or_iff_right (Nat.ne_of_lt hlt)
  · have hnone : text.holdsAt (fun c => !Text.isBlank c) text.length = false := by
      unfold Text.holdsAt
      rw [List.getElem?_eq_none (Nat.le_refl _)]
      rfl
    exact iff_of_true (Or.inl rfl) hnone

theorem AsksMention.alike (h : text.Alike cursor text') (hasks : AsksMention text cursor t) :
    AsksMention text' cursor t := by
  obtain ⟨hmention⟩ := hasks
  rename_i pos
  have hpos := hmention.before
  rw [h.slice_eq (Nat.le_refl cursor)]
  refine .mark ⟨?_, hpos, ?_, h.absent (Nat.le_refl _) hmention.unbroken, ?_, ?_⟩
  · rw [← h.getElem?_eq hpos]
    exact hmention.mark
  · intro i hi hlt
    rw [← h.getElem?_eq hlt]
    exact hmention.last i hi hlt
  · intro i hi
    rw [← h.holdsAt_eq (by omega)]
    exact hmention.begins i hi
  · rw [← h.quoteAt_eq (Nat.le_of_lt hpos)]
    exact hmention.unquoted

theorem AsksSlash.alike (h : text.Alike cursor text') (hcursor : 0 < cursor)
    (hasks : AsksSlash text cursor t) : AsksSlash text' cursor t := by
  obtain ⟨hhead, hunbroken⟩ := hasks
  rw [h.slice_eq (Nat.le_refl cursor)]
  refine .slash ?_ (h.absent (Nat.le_refl _) hunbroken)
  rwa [List.head?_eq_getElem?, ← h.getElem?_eq hcursor, ← List.head?_eq_getElem?]

theorem AsksCommand.alike (h : text.Alike cursor text') {c : Char} (hi : i < cursor)
    (hget : text[i]? = some c) (hc : Text.isBlank c = false) (hasks : AsksCommand text cursor t) :
    AsksCommand text' cursor t := by
  cases hasks with
  | blank hblank =>
    rw [hblank c (List.mem_of_getElem? hget)] at hc
    cases hc
  | @word start stop hword hle hle' hslash =>
    have hstart : start < cursor := Nat.lt_of_le_of_lt (hword.start_le hget hc) hi
    obtain ⟨stop', hstop', hword'⟩ := hword.exists_alike h hstart hle'
    rw [h.getElem?_eq hstart] at hslash
    rw [h.slice_eq (Nat.le_refl cursor)]
    exact .word hword' hle hstop' hslash

theorem AsksArgument.alike (h : text.Alike cursor text')
    (hnext : text.holdsAt (fun c => !Text.isBlank c) cursor =
      text'.holdsAt (fun c => !Text.isBlank c) cursor)
    (hasks : AsksArgument text cursor t) : AsksArgument text' cursor t := by
  obtain ⟨hword, hpast, hfree, hrun⟩ := hasks
  rw [free_iff h.le_left, hnext, ← free_iff h.le_right] at hfree
  rw [h.slice_eq (Nat.le_refl cursor)]
  exact .run (hword.alike h hpast) hpast hfree (hrun.alike h (Nat.le_refl cursor))

namespace Rule

/-- The texts hold the same characters before the cursor, one of them no blank, and look the same to
the rule behind it. -/
structure SameFor (rule : Rule) (cursor : Nat) (text text' : Text) : Prop where
  alike : text.Alike cursor text'
  word : ∃ i < cursor, text.holdsAt (fun c => !Text.isBlank c) i = true
  next : rule = .argument → text.holdsAt (fun c => !Text.isBlank c) cursor =
    text'.holdsAt (fun c => !Text.isBlank c) cursor

theorem SameFor.symm (h : rule.SameFor cursor text text') : rule.SameFor cursor text' text := by
  obtain ⟨halike, ⟨i, hi, hword⟩, hnext⟩ := h
  exact ⟨halike.symm, ⟨i, hi, by rwa [← halike.holdsAt_eq hi]⟩, fun hrule => (hnext hrule).symm⟩

/-- What looks the same to a rule looks the same to those tried before it. -/
theorem SameFor.earlier (h : rule.SameFor cursor text text') {other : Rule}
    (hother : other ∈ rule.earlier) : other.SameFor cursor text text' := by
  refine ⟨h.alike, h.word, ?_⟩
  rintro rfl
  cases rule <;> exact absurd hother (by decide)

theorem Asks.same (hasks : rule.Asks text cursor t) (h : rule.SameFor cursor text text') :
    rule.Asks text' cursor t := by
  obtain ⟨halike, ⟨i, hi, hword⟩, hnext⟩ := h
  obtain ⟨c, hget, hc⟩ := Text.exists_of_holdsAt hword
  rw [Bool.not_eq_true'] at hc
  cases rule with
  | mention => exact AsksMention.alike halike hasks
  | slash => exact AsksSlash.alike halike (Nat.zero_lt_of_lt hi) hasks
  | command => exact AsksCommand.alike halike hi hget hc hasks
  | argument => exact AsksArgument.alike halike (hnext rfl) hasks

theorem Makes.same (hmakes : rule.Makes text cursor mode t) (h : rule.SameFor cursor text text') :
    rule.Makes text' cursor mode t := by
  refine ⟨hmakes.asks.same h, hmakes.applies, ?_⟩
  intro other hother u hu
  exact hmakes.first other hother u (hu.same (h.earlier hother).symm)

end Rule

/-! ## The line behind what was typed -/

section Behind

variable {a b b' : Text}

theorem Rule.sameFor_append (ha : ∃ c ∈ a, Text.isBlank c = false)
    (hnext : rule = .argument → b.beginsWord = b'.beginsWord) :
    rule.SameFor a.length (a ++ b) (a ++ b') := by
  obtain ⟨c, hc, hfull⟩ := ha
  obtain ⟨i, hi⟩ := List.mem_iff_getElem?.1 hc
  have hlt := (List.getElem?_eq_some_iff.1 hi).1
  refine ⟨Text.alike_append a b b', ⟨i, hlt, ?_⟩, ?_⟩
  · rw [Text.holdsAt_of_getElem? ((List.getElem?_append_left hlt).trans hi), hfull]
    rfl
  · intro hrule
    rw [Text.holdsAt_append_length, Text.holdsAt_append_length]
    exact hnext hrule

/-- What a rule makes of the one line is found in the other. -/
theorem Trigger.detect_append_of_makes (ha : ∃ c ∈ a, Text.isBlank c = false)
    (hnext : rule = .argument → b.beginsWord = b'.beginsWord)
    (hmakes : rule.Makes (a ++ b) a.length mode t) : detect (a ++ b') a.length mode = t := by
  have hsame := Rule.sameFor_append ha hnext
  apply Rule.Makes.detect_eq
  rw [Nat.min_eq_left hsame.alike.le_right]
  exact hmakes.same hsame

/-- With the same outlook behind the cursor nothing can change: a trigger in either line is also in
the other. -/
theorem Trigger.detect_append_eq (ha : ∃ c ∈ a, Text.isBlank c = false)
    (hnext : b.beginsWord = b'.beginsWord) :
    detect (a ++ b) a.length mode = detect (a ++ b') a.length mode := by
  have hmin : ∀ v : Text, min a.length (a ++ v).length = a.length := fun v =>
    Nat.min_eq_left (Text.alike_append a v v).le_left
  rcases Rule.detect_eq_or_exists_makes (a ++ b) a.length mode with hnone | ⟨rule, hmakes⟩
  · rcases Rule.detect_eq_or_exists_makes (a ++ b') a.length mode with hnone' | ⟨rule, hmakes⟩
    · rw [hnone, hnone']
    · rw [hmin] at hmakes
      exact detect_append_of_makes ha (fun _ => hnext.symm) hmakes
  · rw [hmin] at hmakes
    exact (detect_append_of_makes ha (fun _ => hnext) hmakes).symm

end Behind

/-- As soon as something other than blanks stands before the cursor, what stands behind it has a part
in the trigger only by going on with a word there or not. If another rule than that for arguments made
the trigger, it has none at all. -/
theorem what_follows_the_cursor_does_not_matter {a b : Text} (ha : ∃ c ∈ a, Text.isBlank c = false)
    (mode : Mode) :
    (∀ b' : Text, b.beginsWord = b'.beginsWord →
      Trigger.detect (a ++ b) a.length mode = Trigger.detect (a ++ b') a.length mode) ∧
    ∀ rule : Rule, rule ∈ [.mention, .slash, .command] →
      rule.Makes (a ++ b) a.length mode (Trigger.detect (a ++ b) a.length mode) →
        ∀ b' : Text,
          Trigger.detect (a ++ b') a.length mode = Trigger.detect (a ++ b) a.length mode := by
  refine ⟨fun b' hnext => Trigger.detect_append_eq ha hnext, ?_⟩
  intro rule hrule hmakes b'
  have hother : rule ≠ .argument := by
    rintro rfl
    revert hrule
    decide
  exact Trigger.detect_append_of_makes ha (fun h => absurd h hother) hmakes

/-- An argument is asked for before a blank but not inside a word, and a mention before any text. -/
theorem a_mention_is_found_before_any_text :
    let argument : Text := "cat n".toList
    let mention : Text := "cat @n".toList
    Trigger.detect (argument ++ [' ']) 5 .shell = Trigger.detect argument 5 .shell ∧
      Trigger.detect (argument ++ ['x']) 5 .shell ≠ Trigger.detect argument 5 .shell ∧
      ∀ b : Text, Trigger.detect (mention ++ b) 6 .shell = ⟨.entity, some 4, ['n']⟩ := by
  intro argument mention
  have hargument : ∃ c ∈ argument, Text.isBlank c = false := ⟨'c', by decide, by decide⟩
  have hmention : ∃ c ∈ mention, Text.isBlank c = false := ⟨'c', by decide, by decide⟩
  have hfound : Trigger.mention? mention 6 = some ⟨.entity, some 4, ['n']⟩ := by decide
  have hmakes : Rule.mention.Makes (mention ++ []) 6 .shell ⟨.entity, some 4, ['n']⟩ :=
    ⟨(Trigger.mention?_eq_some_iff (by decide)).1 hfound, rfl, nofun⟩
  refine ⟨?_, by decide, ?_⟩
  · exact (what_follows_the_cursor_does_not_matter hargument .shell).1 [] (by decide)
  · exact (what_follows_the_cursor_does_not_matter hmention .shell).2 .mention (by decide) hmakes

end Typeahead
