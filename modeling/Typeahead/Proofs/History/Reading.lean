import Typeahead.History.Call
import Typeahead.Proofs.History.Retention

/-!
Reading the history. Although every question drops entries for good, no later call can tell whether
it was asked, as long as entries arrive in the order of their times.
-/
namespace Typeahead.History

variable {now now' : Instant} {times : List Instant} {front es : List Entry} {h read : History}

/-! ## Calls in order -/

/-- The entry itself, if it is recorded at all. -/
def recorded? (e : Entry) : Option Entry :=
  if (Text.trim e.command).isEmpty then none else some e

namespace Call

def isQuestion : Call → Bool
  | .ask _ => true
  | _ => false

/-- The entry that a call brings. A blank command is none. -/
def entry? (now : Instant) : Call → Option Entry
  | .add command => recorded? ⟨command, now⟩
  | .addEntry e => recorded? e
  | _ => none

/-- The times of the entries since the history was last cleared, after a call. -/
def timesAfter (now : Instant) (times : List Instant) : Call → List Instant
  | .clear => []
  | c => ((c.entry? now).map Entry.time).toList ++ times

end Call

/-- Each entry is at least as late as those before it since the history was last cleared. -/
def Chronological : (times : List Instant) → List (Instant × Call) → Prop
  | _, [] => True
  | times, (now, c) :: calls =>
    (∀ e ∈ c.entry? now, ∀ time ∈ times, time ≤ e.time) ∧
      Chronological (c.timesAfter now times) calls

instance Chronological.decidable :
    (times : List Instant) → (calls : List (Instant × Call)) → Decidable (Chronological times calls)
  | _, [] => isTrue trivial
  | times, (now, c) :: calls =>
    have := Chronological.decidable (c.timesAfter now times) calls
    inferInstanceAs (Decidable (_ ∧ _))

/-- The elements of a list that are marked to be kept. -/
def kept {α : Type} : (marks : List Bool) → List α → List α
  | true :: marks, x :: xs => x :: kept marks xs
  | false :: marks, _ :: xs => kept marks xs
  | _, _ => []

/-! ## Adding an entry -/

/-- The entries that stay when a command is recorded: all but the last one if it is of the same
command. -/
def staying (command : Text) (es : List Entry) : List Entry :=
  if es.getLast?.any (·.command = command) then es.dropLast else es

theorem staying_sublist (command : Text) (es : List Entry) : (staying command es).Sublist es := by
  unfold staying
  split
  · exact List.dropLast_sublist es
  · exact List.Sublist.refl es

theorem length_le_staying (command : Text) (es : List Entry) :
    es.length ≤ (staying command es).length + 1 := by
  unfold staying
  split
  · rw [List.length_dropLast]
    omega
  · omega

/-- What stays of two lists: the first one as it is, unless the second one is empty. -/
theorem exists_staying_append (command : Text) (front es : List Entry) :
    ∃ rest, rest.Sublist front ∧ staying command (front ++ es) = rest ++ staying command es := by
  -- With nothing behind, the last entry is the last one in front.
  rcases es.eq_nil_or_concat with rfl | ⟨init, last, rfl⟩
  · refine ⟨staying command front, staying_sublist command front, ?_⟩
    rw [List.append_nil]
    exact (List.append_nil _).symm
  · refine ⟨front, List.Sublist.refl front, ?_⟩
    unfold staying
    rw [List.concat_eq_append, ← List.append_assoc, List.getLast?_concat, List.getLast?_concat,
      List.dropLast_concat, List.dropLast_concat]
    split
    · rfl
    · rw [List.append_assoc]

theorem InOrder.recorded (horder : InOrder es) {e : Entry} (hlate : ∀ d ∈ es, d.time ≤ e.time)
    (command : Text) : InOrder (staying command es ++ [⟨command, e.time⟩]) := by
  have hsub := staying_sublist command es
  refine List.pairwise_append.2 ⟨horder.sublist hsub, List.pairwise_singleton _ _, ?_⟩
  intro d hd x hx
  rw [List.mem_singleton.1 hx]
  exact hlate d (hsub.subset hd)

/-- No entry is later than all of the times. -/
def NoneLater (times : List Instant) (es : List Entry) : Prop :=
  ∀ e ∈ es, ∃ time ∈ times, e.time ≤ time

theorem NoneLater.recorded (hnone : NoneLater times es) (e : Entry) (command : Text) :
    NoneLater (e.time :: times) (staying command es ++ [⟨command, e.time⟩]) := by
  intro d hd
  rcases List.mem_append.1 hd with hd | hd
  · obtain ⟨time, htime, hle⟩ := hnone d ((staying_sublist command es).subset hd)
    exact ⟨time, List.mem_cons_of_mem _ htime, hle⟩
  · rw [List.mem_singleton.1 hd]
    exact ⟨e.time, List.mem_cons_self, Int.le_refl _⟩

/-- An entry that is not earlier than any time is not earlier than any entry. -/
theorem NoneLater.le (hnone : NoneLater times es) {e : Entry}
    (hlate : ∀ time ∈ times, time ≤ e.time) : ∀ d ∈ es, d.time ≤ e.time := by
  intro d hd
  obtain ⟨time, htime, hle⟩ := hnone d hd
  exact Int.le_trans hle (hlate time htime)

theorem add_of_blank {e : Entry} (hblank : (Text.trim e.command).isEmpty = true) :
    h.add e = (h, false) := by
  unfold add
  rw [if_pos hblank]

theorem add_of_not_blank {e : Entry} (hblank : (Text.trim e.command).isEmpty = false)
    (hlate : ∀ d ∈ h.entries, d.time ≤ e.time) :
    h.add e =
      ({ h with
        entries := staying (Text.trim e.command) h.entries ++ [⟨Text.trim e.command, e.time⟩] },
        true) := by
  unfold add staying
  rw [if_neg (by rw [hblank]; decide)]
  rcases hlast : h.entries.getLast? with _ | last
  · rw [List.getLast?_eq_none_iff] at hlast
    rw [hlast]
    rfl
  · have hle := hlate last (List.mem_of_getLast? hlast)
    dsimp only [Option.any_some]
    split
    · rename_i hsame
      rw [if_pos (decide_eq_true hsame), Int.max_eq_right hle]
    · rename_i hother
      rw [if_neg (by simpa using hother)]

/-! ## A history that was read more often -/

theorem Hides.mono {limits : Limits} {rest es' : List Entry} (h : Hides limits now front es)
    (hrest : rest.Sublist front) (hlength : es.length ≤ es'.length) :
    Hides limits now rest es' :=
  h.imp (fun hold e he => hold e (hrest.subset he)) fun hsize => hsize.trans hlength

/-- The one history holds what the other one does, which was read more often, behind entries that no
longer count. -/
structure Trails (now : Instant) (times : List Instant) (h read : History) : Prop where
  limits : read.limits = h.limits
  split : ∃ front, h.entries = front ++ read.entries ∧ Hides h.limits now front read.entries
  inOrder : InOrder h.entries
  times : ∀ e ∈ h.entries, ∃ time ∈ times, e.time ≤ time

namespace Trails

theorem new (limits : Limits) (now : Instant) : Trails now [] { limits } { limits } :=
  ⟨rfl, ⟨[], rfl, .nil⟩, List.Pairwise.nil, nofun⟩

theorem later (t : Trails now times h read) (hlater : now ≤ now') : Trails now' times h read := by
  obtain ⟨front, hsplit, hhides⟩ := t.split
  exact ⟨t.limits, ⟨front, hsplit, hhides.later hlater⟩, t.inOrder, t.times⟩

theorem prune_eq (t : Trails now times h read) : read.prune now = h.prune now := by
  obtain ⟨front, hsplit, hhides⟩ := t.split
  have horder := t.inOrder
  unfold prune
  rw [hsplit] at horder ⊢
  rw [t.limits, hhides.retained_append horder]

/-- Reading once more leaves the other history as it was. -/
theorem prune (t : Trails now times h read) : Trails now times h (read.prune now) := by
  obtain ⟨front, hsplit, hhides⟩ := t.split
  have horder := t.inOrder
  rw [hsplit] at horder
  -- What the one that is read drops now goes behind what it dropped before.
  obtain ⟨dropped, hdropped, hhidden⟩ := exists_hidden (List.pairwise_append.1 horder).2.1
  refine ⟨t.limits, ⟨front ++ dropped, ?_, ?_⟩, t.inOrder, t.times⟩
  · rw [hsplit, List.append_assoc]
    exact congrArg _ hdropped
  · rw [← t.limits] at hhides ⊢
    rw [hdropped] at horder hhides
    exact hhides.append hhidden horder

theorem prune_self (t : Trails now times h read) :
    Trails now times (h.prune now) (h.prune now) := by
  obtain ⟨dropped, hdropped, _⟩ := @exists_hidden h.limits now _ t.inOrder
  have hsub : (h.prune now).entries.Sublist h.entries := by
    rw [hdropped]
    exact List.sublist_append_right _ _
  exact ⟨rfl, ⟨[], rfl, .nil⟩, t.inOrder.sublist hsub, fun e he => t.times e (hsub.subset he)⟩

theorem add (t : Trails now times h read) {e : Entry}
    (hblank : (Text.trim e.command).isEmpty = false) (hlate : ∀ time ∈ times, time ≤ e.time) :
    (read.add e).2 = (h.add e).2 ∧ Trails now (e.time :: times) (h.add e).1 (read.add e).1 := by
  obtain ⟨front, hsplit, hhides⟩ := t.split
  have hold : ∀ d ∈ h.entries, d.time ≤ e.time := NoneLater.le t.times hlate
  have hread : ∀ d ∈ read.entries, d.time ≤ e.time := by
    intro d hd
    exact hold d (hsplit ▸ List.mem_append_right _ hd)
  rw [add_of_not_blank hblank hold, add_of_not_blank hblank hread]
  obtain ⟨rest, hrest, hstaying⟩ := exists_staying_append (Text.trim e.command) front read.entries
  refine ⟨rfl, t.limits, ⟨rest, ?_, hhides.mono hrest ?_⟩, t.inOrder.recorded hold _,
    NoneLater.recorded t.times e _⟩
  · rw [hsplit, hstaying, List.append_assoc]
  · rw [List.length_append]
    exact length_le_staying _ _

theorem record (t : Trails now times h read) {e : Entry}
    (hlate : ∀ d ∈ recorded? e, ∀ time ∈ times, time ≤ d.time) :
    (read.add e).2 = (h.add e).2 ∧
      Trails now (((recorded? e).map Entry.time).toList ++ times) (h.add e).1 (read.add e).1 := by
  unfold recorded? at *
  by_cases hblank : (Text.trim e.command).isEmpty = true
  · rw [add_of_blank hblank, add_of_blank hblank, if_pos hblank]
    exact ⟨rfl, t⟩
  · rw [if_neg hblank] at hlate ⊢
    exact t.add (Bool.eq_false_iff.2 hblank) (hlate e rfl)

/-- A call returns the same to both, and one history goes on to trail the other. -/
theorem call (t : Trails now times h read) (c : Call)
    (hlate : ∀ e ∈ c.entry? now, ∀ time ∈ times, time ≤ e.time) :
    (read.call now c).2 = (h.call now c).2 ∧
      Trails now (c.timesAfter now times) (h.call now c).1 (read.call now c).1 := by
  cases c with
  | add command =>
    obtain ⟨hreply, htrails⟩ := t.record hlate
    exact ⟨congrArg Reply.recorded hreply, htrails⟩
  | addEntry e =>
    obtain ⟨hreply, htrails⟩ := t.record hlate
    exact ⟨congrArg Reply.recorded hreply, htrails⟩
  | clear => exact ⟨rfl, t.limits, ⟨[], rfl, .nil⟩, List.Pairwise.nil, nofun⟩
  | ask q =>
    -- Both drop what no longer counts, and are the same from here on.
    have hsame := t.prune_eq
    unfold History.call
    dsimp only
    rw [hsame]
    exact ⟨rfl, t.prune_self⟩

theorem ask (t : Trails now times h read) {c : Call} (hquestion : c.isQuestion = true) :
    Trails now times h (read.call now c).1 ∧ c.timesAfter now times = times := by
  cases c with
  | ask q => exact ⟨t.prune, rfl⟩
  | add _ | addEntry _ | clear => cases hquestion

end Trails

/-! ## Questions that are left out -/

theorem Trails.replies_kept {calls : List (Instant × Call)} {marks : List Bool}
    (t : Trails now times h read) (hnow : ∀ u ∈ calls, now ≤ u.1)
    (hclock : calls.Pairwise fun u v => u.1 ≤ v.1) (hchronological : Chronological times calls)
    (hquestions : ∀ u ∈ kept (marks.map not) calls, u.2.isQuestion = true) :
    h.replies (kept marks calls) = kept marks (read.replies calls) := by
  -- By induction on the calls. One that is left out is a question to the second history alone,
  -- which the first one goes on to trail; any other call goes to both.
  induction calls generalizing marks now times h read with
  | nil => rcases marks with _ | ⟨_ | _, marks⟩ <;> rfl
  | cons u calls ih =>
    obtain ⟨now', c⟩ := u
    obtain ⟨hlater, hrest⟩ := List.pairwise_cons.1 hclock
    obtain ⟨hlate, hchronological⟩ := hchronological
    have t' := t.later (hnow _ List.mem_cons_self)
    rcases marks with _ | ⟨_ | _, marks⟩
    · rfl
    · obtain ⟨htrails, htimes⟩ := t'.ask (hquestions _ List.mem_cons_self)
      rw [htimes] at hchronological
      exact ih htrails hlater hrest hchronological
        fun v hv => hquestions v (List.mem_cons_of_mem _ hv)
    · obtain ⟨hreply, htrails⟩ := t'.call c hlate
      have htail := ih htrails hlater hrest hchronological hquestions
      exact congrArg₂ List.cons hreply.symm htail

/-- With the clock going on and the entries in the order of their times, leaving out questions
changes nothing about what the other calls return. -/
theorem a_question_changes_no_other_reply {limits : Limits} {calls : List (Instant × Call)}
    {marks : List Bool} (hclock : calls.Pairwise fun u v => u.1 ≤ v.1)
    (hchronological : Chronological [] calls)
    (hquestions : ∀ u ∈ kept (marks.map not) calls, u.2.isQuestion = true) :
    ({ limits } : History).replies (kept marks calls) =
      kept marks (({ limits } : History).replies calls) := by
  rcases calls with _ | ⟨u, calls⟩
  · exact (Trails.new limits 0).replies_kept nofun hclock hchronological hquestions
  · refine (Trails.new limits u.1).replies_kept ?_ hclock hchronological hquestions
    exact List.forall_mem_cons.2 ⟨Int.le_refl _, (List.pairwise_cons.1 hclock).1⟩

/-- With room for two commands and a minute, three commands are run, the last one again, and once
more when the minute is over. The two questions in between may be left out. -/
theorem the_questions_in_between_leave_no_trace :
    let limits : Limits := ⟨2, .ofSeconds 60⟩
    let calls : List (Instant × Call) :=
      [ (0, .add ['a']), (1, .add ['b']), (1, .addEntry ⟨['c'], 1⟩), (2, .ask .length),
        (3, .add ['c']), (70000000000, .ask .entries), (70000000000, .add ['c']),
        (70000000000, .ask (.latest 5)) ]
    let told := ({ limits } : History).replies calls
    told = [ .recorded true, .recorded true, .recorded true, .number 2, .recorded true, .entries [],
        .recorded true, .entries [⟨['c'], 70000000000⟩] ] ∧
      ({ limits } : History).replies
        (kept [true, true, true, false, true, false, true, true] calls) =
        kept [true, true, true, false, true, false, true, true] told := by
  intro limits calls told
  exact ⟨by decide, a_question_changes_no_other_reply (by decide) (by decide) (by decide)⟩

end Typeahead.History
