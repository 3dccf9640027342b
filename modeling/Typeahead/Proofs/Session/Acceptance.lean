import Typeahead.Proofs.Line.Typed
import Typeahead.Proofs.Session.Shown

/-!
What an accepted candidate replaces. It takes the place of what was typed in the line that its menu
was filled for. That is the line of the latest update, unless the latest update is still under way.
-/
namespace Typeahead

/-! ## Replacing in a reported line -/

/-- The text takes the place of what was typed in the reported line, and of nothing else. -/
def Report.Replaces (r : Report) (range : Nat × Nat) (text : Text) : Prop :=
  r.snapshot.replaced? = some range ∧
    ∃ pre, r.line = pre ++ r.snapshot.trigger.typed ++ r.snapshot.after ∧
      range = (pre.length, pre.length + r.snapshot.trigger.typed.length) ∧
      r.line.splice range text = pre ++ text ++ r.snapshot.after

theorem Report.replaces {r : Report} {range : Nat × Nat} (h : r.snapshot.replaced? = some range)
    (text : Text) : r.Replaces range text := by
  have hcursor : r.snapshot.cursor ≤ r.line.length := Snapshot.ofLine_cursor_le _ _ _ _ _
  have htyped : r.snapshot.trigger.typed <:+ r.snapshot.before := Snapshot.typed_ofLine _ _ _ _ _
  obtain ⟨pre, hline, rfl⟩ := Snapshot.exists_of_replaced? hcursor htyped h
  change r.line = _ at hline
  refine ⟨h, pre, hline, rfl, ?_⟩
  have hsplice := Text.splice_middle pre r.snapshot.trigger.typed r.snapshot.after text
  rw [← hline] at hsplice
  exact hsplice

/-! ## The update that the menu belongs to -/

namespace Exchange

/-- The menu was filled at the end of an update. That one was started last, or the one started last
is under way and may still fill the menu. -/
structure Belongs (limit : Option Nat) (es : List Event) (x : Exchange) (shown : Report)
    (p : PendingUpdate) : Prop where
  origin : x.session.origin = some p.snapshot
  snapshot : p.snapshot = shown.snapshot
  started : .started shown (.inr p) ∈ es
  finished : ∃ answers n, .finished p answers (.applied n) ∈ es ∧
    x.session.menu.candidates = merge limit answers
  newest : Event.lastStart? es = some (shown, .inr p) ∨
    ∃ last q, Event.lastStart? es = some (last, .inr q) ∧ q ∈ x.underWay ∧
      x.session.generation = q.generation

variable {limit : Option Nat} {es : List Event} {e : Event} {x y : Exchange} {shown : Report}
  {p : PendingUpdate} {snapshot : Snapshot}

/-- The menu belongs to the same update as long as its snapshot and its candidates stay. -/
theorem Belongs.snoc (h : Belongs limit es x shown p)
    (horigin : y.session.origin = x.session.origin)
    (hmenu : y.session.menu.candidates = x.session.menu.candidates)
    (hnewest : Event.lastStart? (es ++ [e]) = some (shown, .inr p) ∨
      ∃ last q, Event.lastStart? (es ++ [e]) = some (last, .inr q) ∧ q ∈ y.underWay ∧
        y.session.generation = q.generation) :
    Belongs limit (es ++ [e]) y shown p := by
  obtain ⟨answers, n, hfinished, hcs⟩ := h.finished
  refine ⟨horigin.trans h.origin, h.snapshot, List.mem_append_left _ h.started, ?_, hnewest⟩
  exact ⟨answers, n, List.mem_append_left _ hfinished, hmenu.trans hcs⟩

/-- The same for an event that starts no update and leaves the latest one under way. -/
theorem Belongs.snoc_of_none (h : Belongs limit es x shown p)
    (horigin : y.session.origin = x.session.origin)
    (hmenu : y.session.menu.candidates = x.session.menu.candidates) (hstart : e.start? = none)
    (hgen : y.session.generation = x.session.generation)
    (hkept : ∀ q ∈ x.underWay, x.session.generation = q.generation → q ∈ y.underWay) :
    Belongs limit (es ++ [e]) y shown p := by
  refine h.snoc horigin hmenu ?_
  rw [Event.lastStart?_snoc_of_none hstart, hgen]
  rcases h.newest with hlast | ⟨last, q, hlast, hq, hqgen⟩
  · exact Or.inl hlast
  · exact Or.inr ⟨last, q, hlast, hkept q hq hqgen, hqgen⟩

/-- A menu just filled belongs to the update that was started last. -/
theorem Belongs.of_fill {answers : List Answer} {n : Nat}
    (hlast : Event.lastStart? es = some (shown, .inr p)) (hsnapshot : p.snapshot = shown.snapshot) :
    Belongs limit (es ++ [.finished p answers (.applied n)])
      ⟨x.session.fill p.snapshot (merge limit answers), x.underWay.erase p⟩ shown p := by
  refine ⟨rfl, hsnapshot, ?_, ⟨answers, n, by simp, rfl⟩, Or.inl ?_⟩
  · exact List.mem_append_left _ (Event.mem_of_lastStart? hlast)
  · rw [Event.lastStart?_snoc_of_none rfl]
    exact hlast

/-- Whatever the menu shows, it belongs to an update. -/
theorem Run.belongs (h : Run limit es x) (hopen : x.session.origin = some snapshot) :
    ∃ shown p, Belongs limit es x shown p := by
  induction h generalizing snapshot with
  | nil => cases hopen
  | @snoc es e x y hrun hstep ih =>
    cases hstep with
    | start hb =>
      obtain ⟨hgen, _, hnext, hshown⟩ := Session.begin_cases hb
      -- A start keeps the menu only for a trigger, and then it is itself the one under way.
      rcases hshown with ⟨hmenu, horigin, htrigger, _⟩ | ⟨_, horigin⟩
      · obtain ⟨shown, p, hold⟩ := ih (horigin.symm.trans hopen)
        rcases hnext with ⟨rfl, _⟩ | ⟨_, hnone⟩
        · exact ⟨shown, p, hold.snoc horigin (by rw [hmenu])
            (Or.inr ⟨_, _, Event.lastStart?_snoc, by simp, hgen⟩)⟩
        · rw [htrigger] at hnone
          cases hnone
      · cases horigin.symm.trans hopen
    | @finish q answers _ _ hq hf =>
      rcases Session.finish_cases hf with ⟨hgen, rfl, rfl⟩ | ⟨_, _, _, rfl⟩ | ⟨hgen, _, rfl, rfl⟩
      · obtain ⟨shown, p, hold⟩ := ih hopen
        exact ⟨shown, p, hold.snoc_of_none rfl rfl rfl rfl
          fun r hr hrgen => latest_mem_erase hr hrgen hgen⟩
      · cases hopen
      · obtain ⟨report, hlast, hsnapshot, _⟩ := hrun.latest hq hgen
        exact ⟨report, q, .of_fill hlast hsnapshot⟩
    | press hk =>
      rcases Session.press_cases hk with ⟨_, _, _, rfl⟩ | ⟨_, rfl⟩ | ⟨_, rfl | rfl⟩ | ⟨_, rfl⟩
      · cases hopen
      · cases hopen
      · obtain ⟨shown, p, hold⟩ := ih hopen
        exact ⟨shown, p, hold.snoc_of_none rfl (Menu.candidates_next _) rfl rfl fun _ hq _ => hq⟩
      · obtain ⟨shown, p, hold⟩ := ih hopen
        exact ⟨shown, p, hold.snoc_of_none rfl (Menu.candidates_previous _) rfl rfl
          fun _ hq _ => hq⟩
      · obtain ⟨shown, p, hold⟩ := ih hopen
        exact ⟨shown, p, hold.snoc_of_none rfl rfl rfl rfl fun _ hq _ => hq⟩
    | reset => cases hopen

/-! ## The law -/

/-- An accepted candidate was found for a reported line, and takes the place of just what was typed
in that line. It is the line of the update that was started last, unless that one is under way. -/
theorem an_accepted_candidate_replaces_what_was_typed {key : Key} {held : Modifiers} {text : Text}
    {replaced : Option (Nat × Nat)} (hrun : Run limit es x)
    (hstep : Step limit x (.pressed key held (.accepted text replaced)) y) :
    ∃ shown p answers n c range, .started shown (.inr p) ∈ es ∧
      .finished p answers (.applied n) ∈ es ∧ x.session.menu.candidates = merge limit answers ∧
      c ∈ merge limit answers ∧ text = c.value ∧ replaced = some range ∧
      shown.Replaces range text ∧
      (Event.lastStart? es = some (shown, .inr p) ∨
        ∃ last q, Event.lastStart? es = some (last, .inr q) ∧ q ∈ x.underWay) := by
  obtain ⟨snapshot, c, horigin, hsel, htext, hreplaced, hsome⟩ := hstep.accepted hrun.coherent
  obtain ⟨shown, p, hbelongs⟩ := hrun.belongs horigin
  obtain ⟨answers, n, hfinished, hcs⟩ := hbelongs.finished
  obtain ⟨range, hrange⟩ := Option.isSome_iff_exists.1 hsome
  have hsnapshot : snapshot = shown.snapshot := by
    rw [← hbelongs.snapshot]
    exact Option.some.inj (horigin.symm.trans hbelongs.origin)
  refine ⟨shown, p, answers, n, c, range, hbelongs.started, hfinished, hcs, ?_, htext, hrange, ?_,
    ?_⟩
  · rw [← hcs]
    exact List.mem_of_getElem? hsel
  · refine Report.replaces ?_ text
    rw [← hsnapshot, ← hreplaced, hrange]
  · rcases hbelongs.newest with hlast | ⟨last, q, hlast, hq, _⟩
    · exact Or.inl hlast
    · exact Or.inr ⟨last, q, hlast, hq⟩

/-- A letter was reported and found, and nothing else is under way. Accepting what was found
replaces the letter. -/
theorem the_accepted_letter_was_typed :
    let g := Report.atEnd ['g']
    let p : PendingUpdate := ⟨1, g.snapshot⟩
    let git : Candidate := ⟨"git".toList, .other, 1, [], none, none, none⟩
    let es : List Event := [.started g (.inr p), .finished p [.candidates [git]] (.applied 1)]
    let x : Exchange :=
      ⟨Session.fill { generation := 1, lastMode := some .shell } g.snapshot [git], []⟩
    Run none es x ∧
      Step none x (.pressed .enter {} (.accepted git.value (some (0, 1)))) ⟨x.session.shut, []⟩ ∧
      ∃ shown p answers n c range, Event.started shown (.inr p) ∈ es ∧
        .finished p answers (.applied n) ∈ es ∧ x.session.menu.candidates = merge none answers ∧
        c ∈ merge none answers ∧ git.value = c.value ∧ some (0, 1) = some range ∧
        shown.Replaces range git.value ∧
        (Event.lastStart? es = some (shown, .inr p) ∨
          ∃ last q, Event.lastStart? es = some (last, .inr q) ∧ q ∈ x.underWay) := by
  intro g p git es x
  have hrun : Run none es x := .first rfl rfl nofun
  have hstep : Step none x (.pressed .enter {} (.accepted git.value (some (0, 1))))
      ⟨x.session.shut, []⟩ := .press rfl
  exact ⟨hrun, hstep, an_accepted_candidate_replaces_what_was_typed hrun hstep⟩

/-- While the update for a longer line is under way, the menu for the letter stays open. Accepting
its candidate replaces the letter, though the line reported last has something else typed there. -/
theorem the_accepted_letter_was_not_reported_last :
    let g := Report.atEnd ['g']
    let slow := Report.atEnd "slow g".toList
    let p : PendingUpdate := ⟨1, g.snapshot⟩
    let q : PendingUpdate := ⟨2, slow.snapshot⟩
    let echo : Candidate := ⟨['g'], .other, 1, [], none, none, none⟩
    let es : List Event :=
      [.started g (.inr p), .finished p [.candidates [echo]] (.applied 1), .started slow (.inr q)]
    let s : Session := { generation := 2, lastMode := some .shell }
    let x : Exchange := ⟨s.fill g.snapshot [echo], [q]⟩
    Run none es x ∧
      Step none x (.pressed .enter {} (.accepted ['g'] (some (0, 1)))) ⟨x.session.shut, [q]⟩ ∧
      Event.lastStart? es = some (slow, .inr q) ∧
      slow.snapshot.trigger.typed = ['g'] ∧ slow.snapshot.replaced? = some (5, 6) ∧
      some (0, 1) ≠ slow.snapshot.replaced? ∧ slow.line.splice (0, 1) ['g'] = "glow g".toList := by
  intro g slow p q echo es s x
  have hfirst : Run none [.started g (.inr p), .finished p [.candidates [echo]] (.applied 1)]
      ⟨Session.fill { generation := 1, lastMode := some .shell } g.snapshot [echo], []⟩ :=
    .first rfl rfl nofun
  have hrun : Run none es x := hfirst.snoc (.start rfl)
  have hreplaced : slow.snapshot.replaced? = some (5, 6) := by rfl
  refine ⟨hrun, .press rfl, rfl, rfl, hreplaced, ?_, rfl⟩
  rw [hreplaced]
  decide

end Exchange

end Typeahead
