import Mathlib.Data.List.Chain
import Typeahead.Proofs.History.Reading

/-!
What the history holds over time. As long as entries arrive in the order of their times, they stay in
it, trimmed and never twice in a row the same command; and a question is answered from the longest
end of the list that is within the limits.
-/
namespace Typeahead

/-! ## Trimmed texts -/

namespace Text

theorem trimEnd_eq (t : Text) : trimEnd t = t.rdropWhile isBlank := rfl

/-- What is left of a trimmed text begins with no blank. -/
theorem isBlank_of_trim {t : Text} {c : Char} {cs : Text} (h : trim t = c :: cs) :
    isBlank c = false := by
  have hfront : trim t <+: trimStart t := List.rdropWhile_prefix isBlank (trimStart t)
  obtain ⟨cut, hcut⟩ := h ▸ hfront
  have hhead := List.head?_dropWhile_not isBlank t
  unfold trimStart at hcut
  rw [← hcut] at hhead
  simpa using hhead

@[simp] theorem trim_trim (t : Text) : trim (trim t) = trim t := by
  have hstart : trimStart (trim t) = trim t := by
    cases htrim : trim t with
    | nil => rfl
    | cons c cs => simp [trimStart, isBlank_of_trim htrim]
  unfold trim at *
  rw [hstart, trimEnd_eq, trimEnd_eq]
  exact List.rdropWhile_idempotent _ _

/-- What is left when a text is trimmed is not blank. -/
theorem exists_not_blank_of_trim {t : Text} (h : (trim t).isEmpty = false) :
    ∃ c ∈ trim t, isBlank c = false := by
  cases htrim : trim t with
  | nil =>
    rw [htrim] at h
    cases h
  | cons c cs => exact ⟨c, List.mem_cons_self, isBlank_of_trim htrim⟩

end Text

namespace History

variable {limits : Limits} {now : Instant} {times : List Instant} {es : List Entry} {h : History}

/-! ## A tidy list -/

/-- Entries in the order of their times, trimmed and not blank, of which no two neighbours are of the
same command. -/
structure IsTidy (es : List Entry) : Prop where
  inOrder : es.Pairwise fun a b => a.time ≤ b.time
  trimmed : ∀ e ∈ es, Text.trim e.command = e.command
  notBlank : ∀ e ∈ es, ∃ c ∈ e.command, Text.isBlank c = false
  changing : es.IsChain fun a b => a.command ≠ b.command

theorem isTidy_nil : IsTidy [] := ⟨List.Pairwise.nil, nofun, nofun, List.IsChain.nil⟩

theorem IsTidy.part (t : IsTidy es) {part : List Entry} (h : part <:+: es) : IsTidy part where
  inOrder := t.inOrder.sublist h.sublist
  trimmed e he := t.trimmed e (h.mem he)
  notBlank e he := t.notBlank e (h.mem he)
  changing := by
    obtain ⟨front, behind, rfl⟩ := h
    exact t.changing.left_of_append.right_of_append

theorem staying_isPrefix (command : Text) (es : List Entry) : staying command es <+: es := by
  unfold staying
  split
  · exact List.dropLast_prefix es
  · exact List.prefix_rfl

/-- In a tidy list, the last entry that stays is of another command. -/
theorem IsTidy.last_staying (t : IsTidy es) (command : Text) :
    ∀ e ∈ (staying command es).getLast?, e.command ≠ command := by
  intro e he
  unfold staying at he
  rcases es.eq_nil_or_concat with rfl | ⟨init, last, rfl⟩
  · simp at he
  · have hchanging := t.changing
    rw [List.concat_eq_append] at he hchanging
    rw [List.getLast?_concat, List.dropLast_concat] at he
    split at he
    · -- The entry before the one that is refreshed was its neighbour.
      rename_i hsame
      rw [Option.any_some, decide_eq_true_iff] at hsame
      rw [← hsame]
      exact (List.isChain_append.1 hchanging).2.2 e he last rfl
    · rename_i hother
      rw [List.getLast?_concat] at he
      simpa [Option.mem_some_iff.1 he] using hother

/-- Recording the latest entry keeps the list tidy. -/
theorem IsTidy.recorded (t : IsTidy es) {e : Entry} (hlate : ∀ d ∈ es, d.time ≤ e.time)
    (hblank : (Text.trim e.command).isEmpty = false) :
    IsTidy (staying (Text.trim e.command) es ++ [⟨Text.trim e.command, e.time⟩]) := by
  have hstays := t.part (staying_isPrefix (Text.trim e.command) es).isInfix
  constructor
  · exact InOrder.recorded t.inOrder hlate _
  · intro d hd
    rcases List.mem_append.1 hd with hd | hd
    · exact hstays.trimmed d hd
    · rw [List.mem_singleton.1 hd]
      exact Text.trim_trim e.command
  · intro d hd
    rcases List.mem_append.1 hd with hd | hd
    · exact hstays.notBlank d hd
    · rw [List.mem_singleton.1 hd]
      exact Text.exists_not_blank_of_trim hblank
  · rw [List.isChain_append]
    refine ⟨hstays.changing, List.IsChain.singleton _, ?_⟩
    intro d hd x hx
    cases hx
    exact t.last_staying _ d hd

/-! ## Calls in a row -/

/-- The history after calls, each made at its time. -/
def after (h : History) (calls : List (Instant × Call)) : History :=
  calls.foldl (fun h u => (h.call u.1 u.2).1) h

/-- The calls that record the given entries, all made at one time. -/
def recording (start : Instant) (seeds : List Entry) : List (Instant × Call) :=
  seeds.map fun e => (start, .addEntry e)

/-- A history that begins with entries is one to which they were added. -/
theorem addAll_eq_after (h : History) (start : Instant) (seeds : List Entry) :
    h.addAll seeds = h.after (recording start seeds) := by
  unfold addAll after recording
  rw [List.foldl_map]
  rfl

/-- The limits stay; the entries are tidy and none is later than those that came. -/
structure Tends (limits : Limits) (times : List Instant) (h : History) : Prop where
  limits : h.limits = limits
  tidy : IsTidy h.entries
  times : NoneLater times h.entries

theorem Tends.record (t : Tends limits times h) {e : Entry}
    (hlate : ∀ d ∈ recorded? e, ∀ time ∈ times, time ≤ d.time) :
    Tends limits (((recorded? e).map Entry.time).toList ++ times) (h.add e).1 := by
  unfold recorded? at *
  by_cases hblank : (Text.trim e.command).isEmpty = true
  · rw [add_of_blank hblank, if_pos hblank]
    exact t
  · rw [if_neg hblank] at hlate ⊢
    rw [Bool.not_eq_true] at hblank
    have hold : ∀ d ∈ h.entries, d.time ≤ e.time := t.times.le (hlate e rfl)
    rw [add_of_not_blank hblank hold]
    exact ⟨t.limits, t.tidy.recorded hold hblank, t.times.recorded e _⟩

theorem Tends.call (t : Tends limits times h) (c : Call)
    (hlate : ∀ e ∈ c.entry? now, ∀ time ∈ times, time ≤ e.time) :
    Tends limits (c.timesAfter now times) (h.call now c).1 := by
  cases c with
  | add command => exact t.record hlate
  | addEntry e => exact t.record hlate
  | clear => exact ⟨t.limits, isTidy_nil, nofun⟩
  | ask q =>
    -- What is kept is an end of what was stored.
    obtain ⟨front, hsplit, _⟩ := @exists_hidden h.limits now _ t.tidy.inOrder
    have hsuffix : (h.prune now).entries <:+ h.entries := ⟨front, hsplit.symm⟩
    exact ⟨t.limits, t.tidy.part hsuffix.isInfix, fun e he => t.times e (hsuffix.mem he)⟩

theorem Tends.after {calls : List (Instant × Call)} (t : Tends limits times h)
    (hchronological : Chronological times calls) :
    (h.after calls).limits = limits ∧ IsTidy (h.after calls).entries := by
  induction calls generalizing times h with
  | nil => exact ⟨t.limits, t.tidy⟩
  | cons u calls ih =>
    obtain ⟨hlate, hrest⟩ := hchronological
    exact ih (t.call u.2 hlate) hrest

/-! ## What a question is answered from -/

/-- The entries are no more than may be kept, and none of them is too old, if the instant before
which they would be can be told. -/
def IsWithin (limits : Limits) (now : Instant) (es : List Entry) : Prop :=
  es.length ≤ limits.maxSize ∧
    (Instant.earliest ≤ now - limits.maxAge.nanoseconds →
      ∀ e ∈ es, now - limits.maxAge.nanoseconds ≤ e.time)

/-- The longest end of the entries stored that is within the limits. -/
structure IsRetained (limits : Limits) (now : Instant) (stored es : List Entry) : Prop where
  isEnd : es <:+ stored
  within : IsWithin limits now es
  longest : ∀ part, part <:+ stored → IsWithin limits now part → part <:+ es

theorem forall_isYoung_iff :
    (∀ e ∈ es, isYoung limits now e = true) ↔
      (Instant.earliest ≤ now - limits.maxAge.nanoseconds →
        ∀ e ∈ es, now - limits.maxAge.nanoseconds ≤ e.time) := by
  unfold isYoung cutoff?
  by_cases hearly : now - limits.maxAge.nanoseconds < Instant.earliest
  · simp [hearly, Int.not_le.2 hearly]
  · simp [hearly, Int.not_lt.1 hearly]

theorem isRetained_retained (horder : InOrder es) :
    IsRetained limits now es (retained limits now es) := by
  obtain ⟨front, hsplit, hhides⟩ := @exists_hidden limits now es horder
  have hend : retained limits now es <:+ es := ⟨front, hsplit.symm⟩
  refine ⟨hend, ⟨length_retained_le limits now es, forall_isYoung_iff.1 ?_⟩, ?_⟩
  · intro e he
    rw [retained_eq] at he
    exact List.of_mem_filter ((List.drop_sublist _ _).mem he)
  · intro part hpart hwithin
    -- Of two ends of one list the shorter one ends the other.
    rcases List.suffix_or_suffix_of_suffix hpart hend with hshort | ⟨more, hlong⟩
    · exact hshort
    · -- A longer one would hold an entry that no longer counts.
      rcases more.eq_nil_or_concat with rfl | ⟨init, e, rfl⟩
      · exact hlong ▸ List.suffix_rfl
      · have hyoung := forall_isYoung_iff.2 hwithin.2
        rw [List.concat_eq_append] at hlong
        exfalso
        rcases hhides with hold | hsize
        · obtain ⟨before, hbefore⟩ := hpart
          rw [hsplit, ← hlong, ← List.append_assoc] at hbefore
          have hfront := List.append_cancel_right hbefore
          have he := hold e (by simp [← hfront])
          rw [hyoung e (by simp [← hlong])] at he
          cases he
        · have hlength := congrArg List.length hlong
          simp only [List.length_append, List.length_singleton] at hlength
          have := hwithin.1
          omega

/-- Whatever was asked, recorded or cleared before, if entries come in the order of their times: the
entries stored are in this order, trimmed and not blank, and no two neighbours are of the same
command. A question at any time is answered from the longest end of them that is within the limits,
and leaves this end stored. -/
theorem the_history_stays_tidy {seeds : List Entry} {start : Instant}
    {calls : List (Instant × Call)}
    (hchronological : Chronological [] (recording start seeds ++ calls)) :
    let h := (({ limits } : History).addAll seeds).after calls
    IsTidy h.entries ∧
      ∀ now, ∃ es, IsRetained limits now h.entries es ∧
        (∀ q, (h.call now (.ask q)).1.entries = es) ∧
        (h.call now (.ask .entries)).2 = .entries es ∧
        (∀ n, (h.call now (.ask (.latest n))).2 = .entries (es.reverse.take n)) ∧
        (∀ n, (h.call now (.ask (.latestCommands n))).2 =
          .commands ((es.reverse.take n).map Entry.command)) ∧
        (h.call now (.ask .length)).2 = .number es.length ∧
        (h.call now (.ask .isEmpty)).2 = .truth es.isEmpty := by
  intro h
  have hstart : Tends limits [] ({ limits } : History) := ⟨rfl, isTidy_nil, nofun⟩
  have hafter : h = ({ limits } : History).after (recording start seeds ++ calls) := by
    change (({ limits } : History).addAll seeds).after calls = _
    rw [addAll_eq_after _ start]
    exact (List.foldl_append ..).symm
  obtain ⟨hlimits, htidy⟩ := hstart.after hchronological
  rw [← hafter] at hlimits htidy
  refine ⟨htidy, fun now => ⟨retained limits now h.entries, isRetained_retained htidy.inOrder, ?_⟩⟩
  rw [← hlimits]
  exact ⟨fun _ => rfl, rfl, fun _ => rfl, fun _ => rfl, rfl, rfl⟩

/-- With room for two commands and a minute, a history begins with two commands. The last one is run
again, then a blank one, and a third one when the minute is over. -/
theorem the_command_run_twice_is_stored_once :
    let limits : Limits := ⟨2, .ofSeconds 60⟩
    let calls : List (Instant × Call) :=
      [ (2, .add [' ', 'b']), (3, .ask .length), (4, .add [' ']), (70000000000, .add ['c']) ]
    let h := (({ limits } : History).addAll [⟨['a', ' '], 0⟩, ⟨['b'], 1⟩]).after calls
    h.entries = [⟨['a'], 0⟩, ⟨['b'], 2⟩, ⟨['c'], 70000000000⟩] ∧
      IsTidy h.entries ∧
      ∀ now, ∃ es, IsRetained limits now h.entries es ∧
        (∀ q, (h.call now (.ask q)).1.entries = es) ∧
        (h.call now (.ask .entries)).2 = .entries es ∧
        (∀ n, (h.call now (.ask (.latest n))).2 = .entries (es.reverse.take n)) ∧
        (∀ n, (h.call now (.ask (.latestCommands n))).2 =
          .commands ((es.reverse.take n).map Entry.command)) ∧
        (h.call now (.ask .length)).2 = .number es.length ∧
        (h.call now (.ask .isEmpty)).2 = .truth es.isEmpty := by
  intro limits calls h
  have hchronological :
      Chronological [] (recording 0 [⟨['a', ' '], 0⟩, ⟨['b'], 1⟩] ++ calls) := by decide
  exact ⟨by decide, the_history_stays_tidy hchronological⟩

end History

end Typeahead
