import Typeahead.Proofs.Line.Firing

/-!
The rule behind a trigger. A trigger that is active was asked for by one of the four rules, the first
one that applies, and the detector finds what that rule asks for.
-/
namespace Typeahead

/-- The rules of the detector, in the order in which they are tried. -/
inductive Rule where
  | mention
  | slash
  | command
  | argument
  deriving DecidableEq, Repr

namespace Rule

/-- What a rule asks for at a cursor. -/
def Asks : Rule → (text : Text) → (cursor : Nat) → Trigger → Prop
  | mention => AsksMention
  | slash => AsksSlash
  | command => AsksCommand
  | argument => AsksArgument

/-- The kind of the triggers that a rule makes. -/
def kind : Rule → TriggerKind
  | mention | argument => .entity
  | slash => .slashCommand
  | command => .command

/-- Whether a rule applies in the mode. -/
def appliesIn : Rule → Mode → Bool
  | mention, _ | slash, _ => true
  | command, mode | argument, mode => mode = .shell

/-- The rules that are tried before a rule. -/
def earlier : Rule → List Rule
  | mention => []
  | slash => [mention]
  | command => [mention, slash]
  | argument => [mention, slash, command]

/-- The rule asks for the trigger, and those tried before it ask for none. -/
structure Makes (rule : Rule) (text : Text) (cursor : Nat) (mode : Mode) (t : Trigger) : Prop where
  asks : rule.Asks text cursor t
  applies : rule.appliesIn mode = true
  first : ∀ other ∈ rule.earlier, ∀ u, ¬ other.Asks text cursor u

variable {rule : Rule} {text : Text} {cursor : Nat} {mode : Mode} {t : Trigger}

/-! ## Rules and triggers -/

theorem eq_slash (h : rule.kind = .slashCommand) : rule = slash := by
  cases rule with
  | slash => rfl
  | mention | command | argument => cases h

theorem Asks.kind_eq (h : rule.Asks text cursor t) : t.kind = rule.kind := by
  cases rule with
  | mention =>
    cases h
    rfl
  | slash =>
    cases h
    rfl
  | command => cases h <;> rfl
  | argument =>
    cases h
    rfl

/-- What a rule asks for is active. -/
theorem Asks.isActive (h : rule.Asks text cursor t) : t.isActive = true := by
  unfold Trigger.isActive
  rw [h.kind_eq]
  cases rule <;> rfl

theorem Makes.fires (h : rule.Makes text cursor mode t) : Fires text cursor mode t := by
  obtain ⟨hasks, happlies, hfirst⟩ := h
  cases rule with
  | mention => exact .mention hasks
  | slash => exact .slash (hfirst .mention (by decide)) hasks
  | command =>
    exact .command (hfirst .mention (by decide)) (hfirst .slash (by decide))
      (of_decide_eq_true happlies) hasks
  | argument =>
    exact .argument (hfirst .mention (by decide)) (hfirst .slash (by decide))
      (of_decide_eq_true happlies) (hfirst .command (by decide)) hasks

theorem exists_makes_of_fires (h : Fires text cursor mode t) :
    t = .inactive ∨ ∃ rule : Rule, rule.Makes text cursor mode t := by
  cases h with
  | mention hasks => exact Or.inr ⟨.mention, hasks, rfl, nofun⟩
  | slash hmention hasks =>
    exact Or.inr ⟨.slash, hasks, rfl, List.forall_mem_singleton.2 hmention⟩
  | command hmention hslash hmode hasks =>
    have hfirst : ∀ other ∈ Rule.command.earlier, ∀ u, ¬ other.Asks text cursor u :=
      List.forall_mem_cons.2 ⟨hmention, List.forall_mem_singleton.2 hslash⟩
    exact Or.inr ⟨.command, hasks, decide_eq_true hmode, hfirst⟩
  | argument hmention hslash hmode hcommand hasks =>
    have hfirst : ∀ other ∈ Rule.argument.earlier, ∀ u, ¬ other.Asks text cursor u :=
      List.forall_mem_cons.2
        ⟨hmention, List.forall_mem_cons.2 ⟨hslash, List.forall_mem_singleton.2 hcommand⟩⟩
    exact Or.inr ⟨.argument, hasks, decide_eq_true hmode, hfirst⟩
  | nothing => exact Or.inl rfl

/-- Only the rule for slash commands makes a slash trigger. -/
theorem asksSlash_of_fires (h : Fires text cursor mode t) (hkind : t.kind = .slashCommand) :
    AsksSlash text cursor t := by
  obtain rfl | ⟨rule, hmakes⟩ := exists_makes_of_fires h
  · cases hkind
  · obtain rfl := eq_slash (hmakes.asks.kind_eq.symm.trans hkind)
    exact hmakes.asks

/-! ## The detector -/

/-- What a rule makes is found. -/
theorem Makes.detect_eq (h : rule.Makes text (min cursor text.length) mode t) :
    Trigger.detect text cursor mode = t :=
  Trigger.detect_of_fires h.fires

/-- What is found was made by a rule, or is no trigger. -/
theorem detect_eq_or_exists_makes (text : Text) (cursor : Nat) (mode : Mode) :
    Trigger.detect text cursor mode = .inactive ∨ ∃ rule : Rule,
      rule.Makes text (min cursor text.length) mode (Trigger.detect text cursor mode) :=
  exists_makes_of_fires (Trigger.fires_detect text cursor mode)

theorem exists_makes_detect (h : (Trigger.detect text cursor mode).isActive = true) :
    ∃ rule : Rule,
      rule.Makes text (min cursor text.length) mode (Trigger.detect text cursor mode) := by
  refine (detect_eq_or_exists_makes text cursor mode).resolve_left ?_
  intro hinactive
  rw [hinactive] at h
  cases h

end Rule

end Typeahead
