import Typeahead.Proofs.Line.Typed
import Typeahead.Proofs.Session.Exchange

/-!
What the menu shows after any run. It is active exactly while it belongs to a snapshot, and then it
holds what the sources found for that snapshot, which alone decides what an accepted candidate
replaces.
-/
namespace Typeahead

/-! ## The invariant -/

/-- The menu holds what was found for the snapshot: an update for it has filled the menu, and since
then nothing has filled or closed it. -/
def Published (limit : Option Nat) (es : List Event) (s : Session) (snapshot : Snapshot) : Prop :=
  ∃ before p answers after,
    es = before ++ .finished p answers (.applied s.menu.size) :: after ∧ p.snapshot = snapshot ∧
      s.menu.candidates = merge limit answers ∧
      ∀ e ∈ after, e.applied? = none ∧ e.closes = false

/-- A session that shows the candidates of a snapshot. -/
structure Shows (limit : Option Nat) (es : List Event) (s : Session) (snapshot : Snapshot) :
    Prop where
  published : Published limit es s snapshot
  triggered : snapshot.trigger.isActive = true
  selected_lt : s.menu.selected < s.menu.size
  size_le : ∀ n, limit = some n → s.menu.size ≤ n
  mode : s.lastMode = some snapshot.mode

/-- What holds of a session after the events of a run. -/
structure Coherent (limit : Option Nat) (es : List Event) (s : Session) : Prop where
  active_iff : s.menu.isActive = true ↔ s.origin.isSome = true
  shows : ∀ snapshot, s.origin = some snapshot → Shows limit es s snapshot
  closed : s.menu.isActive = false → s.menu.selected = 0

variable {limit : Option Nat} {es : List Event} {e : Event} {s t : Session} {snapshot : Snapshot}

/-- A closed menu is coherent after any events. -/
theorem Coherent.of_closed (hmenu : s.menu = .empty) (horigin : s.origin = none) :
    Coherent limit es s := by
  refine ⟨?_, ?_, ?_⟩
  · rw [hmenu, horigin]
    simp
  · rw [horigin]
    nofun
  · rw [hmenu]
    intro _
    rfl

/-- An event that neither fills nor closes the menu leaves what it shows, wherever the selection
goes. -/
theorem Shows.snoc (h : Shows limit es s snapshot) (hfill : e.applied? = none)
    (hclose : e.closes = false) (hmenu : t.menu.candidates = s.menu.candidates)
    (hsel : t.menu.selected < t.menu.size) (hmode : t.lastMode = some snapshot.mode) :
    Shows limit (es ++ [e]) t snapshot := by
  have hsize : t.menu.size = s.menu.size := congrArg List.length hmenu
  obtain ⟨⟨before, p, answers, after, rfl, hp, hcs, hafter⟩, htrigger, _, hlimit, _⟩ := h
  refine ⟨⟨before, p, answers, after ++ [e], ?_, hp, hmenu.trans hcs, ?_⟩, htrigger, hsel, ?_,
    hmode⟩
  · simp [hsize]
  · intro f hf
    rcases List.mem_append.1 hf with hold | hnew
    · exact hafter f hold
    · rw [List.mem_singleton] at hnew
      rw [hnew]
      exact ⟨hfill, hclose⟩
  · rw [hsize]
    exact hlimit

/-- The same for the whole session, when the snapshot stays. -/
theorem Coherent.snoc (h : Coherent limit es s) (hfill : e.applied? = none)
    (hclose : e.closes = false) (hmenu : t.menu.candidates = s.menu.candidates)
    (horigin : t.origin = s.origin)
    (hsel : s.menu.selected < s.menu.size → t.menu.selected < t.menu.size)
    (hzero : s.menu.isActive = false → t.menu.selected = s.menu.selected)
    (hmode : ∀ snapshot, s.origin = some snapshot → t.lastMode = some snapshot.mode) :
    Coherent limit (es ++ [e]) t := by
  have hactive : t.menu.isActive = s.menu.isActive := by
    unfold Menu.isActive
    rw [hmenu]
  refine ⟨?_, ?_, ?_⟩
  · rw [hactive, horigin]
    exact h.active_iff
  · intro snapshot hs
    rw [horigin] at hs
    have hshows := h.shows snapshot hs
    exact hshows.snoc hfill hclose hmenu (hsel hshows.selected_lt) (hmode snapshot hs)
  · intro hinactive
    rw [hactive] at hinactive
    rw [hzero hinactive]
    exact h.closed hinactive

/-- A menu just filled shows its snapshot. -/
theorem Coherent.of_fill {p : PendingUpdate} {answers : List Answer}
    (hfound : merge limit answers ≠ []) (htrigger : p.snapshot.trigger.isActive = true)
    (hmode : s.lastMode = some p.snapshot.mode) :
    Coherent limit (es ++ [.finished p answers (.applied (merge limit answers).length)])
      (s.fill p.snapshot (merge limit answers)) := by
  have hpos : 0 < (merge limit answers).length := List.length_pos_iff.2 hfound
  have hactive : (s.fill p.snapshot (merge limit answers)).menu.isActive = true := by
    simpa [Session.fill, Menu.ofList, Menu.isActive] using hfound
  refine ⟨⟨fun _ => rfl, fun _ => hactive⟩, ?_, ?_⟩
  · intro snapshot hs
    cases hs
    refine ⟨⟨es, p, answers, [], rfl, rfl, rfl, by simp⟩, htrigger, hpos, ?_, hmode⟩
    rintro n rfl
    exact length_merge_le n answers
  · intro hinactive
    rw [hactive] at hinactive
    cases hinactive

/-! ## Every step keeps it -/

namespace Exchange

variable {x y : Exchange}

theorem Step.coherent (hrun : Run limit es x) (hstep : Step limit x e y)
    (h : Coherent limit es x.session) : Coherent limit (es ++ [e]) y.session := by
  cases hstep with
  | @start report s next hb =>
    obtain ⟨_, hmode, hnext, hshown⟩ := Session.begin_cases hb
    have hfill : (Event.started report next).applied? = none := by
      rcases hnext with ⟨rfl, _⟩ | ⟨rfl, _⟩ <;> rfl
    -- A menu is kept only if the mode did not change.
    rcases hshown with ⟨hmenu, horigin, _, hkept⟩ | ⟨hmenu, horigin⟩
    · refine h.snoc hfill rfl (by rw [hmenu]) horigin (by rw [hmenu]; exact id)
        (fun _ => by rw [hmenu]) ?_
      intro snapshot hs
      rw [hmode, hkept _ (h.shows snapshot hs).mode]
    · exact .of_closed hmenu horigin
  | finish hp hf =>
    rcases Session.finish_cases hf with ⟨_, rfl, rfl⟩ | ⟨_, _, _, rfl⟩ | ⟨hgen, hfound, rfl, rfl⟩
    · exact h.snoc rfl rfl rfl rfl id (fun _ => rfl) fun snapshot hs => (h.shows snapshot hs).mode
    · exact .of_closed rfl rfl
    · -- The mode was set at the start, and nothing has started since.
      obtain ⟨_, _, _, htrigger, hmode⟩ := hrun.latest hp hgen
      exact .of_fill hfound htrigger hmode
  | press hk =>
    rcases Session.press_cases hk with ⟨_, _, _, rfl⟩ | ⟨_, rfl⟩ | ⟨rfl, rfl | rfl⟩ | ⟨rfl, rfl⟩
    · exact .of_closed rfl rfl
    · exact .of_closed rfl rfl
    · refine h.snoc rfl rfl (Menu.candidates_next _) rfl (Menu.selected_next_lt _) ?_
        fun snapshot hs => (h.shows snapshot hs).mode
      intro hinactive
      simp [Menu.next, hinactive]
    · refine h.snoc rfl rfl (Menu.candidates_previous _) rfl (Menu.selected_previous_lt _) ?_
        fun snapshot hs => (h.shows snapshot hs).mode
      intro hinactive
      simp [Menu.previous, hinactive]
    · exact h.snoc rfl rfl rfl rfl id (fun _ => rfl) fun snapshot hs => (h.shows snapshot hs).mode
  | reset => exact .of_closed rfl rfl

theorem Run.coherent (h : Run limit es x) : Coherent limit es x.session := by
  induction h with
  | nil => exact .of_closed rfl rfl
  | snoc hrun hstep ih => exact hstep.coherent hrun ih

/-! ## What an outcome says -/

/-- An accepted candidate was selected in the menu, and replaces what its snapshot says. -/
theorem Step.accepted {key : Key} {held : Modifiers} {text : Text} {replaced : Option (Nat × Nat)}
    (h : Coherent limit es x.session)
    (hstep : Step limit x (.pressed key held (.accepted text replaced)) y) :
    ∃ snapshot c, x.session.origin = some snapshot ∧ x.session.menu.selected? = some c ∧
      text = c.value ∧ replaced = snapshot.replaced? ∧ replaced.isSome = true := by
  cases hstep with
  | press hk =>
    rcases Session.press_cases hk with ⟨c, hsel, ho, _⟩ | ⟨ho, _⟩ | ⟨ho, _⟩ | ⟨ho, _⟩
    · cases ho
      have hactive : x.session.menu.isActive = true := by
        have hmem := List.mem_of_getElem? hsel
        simpa [Menu.isActive] using List.ne_nil_of_mem hmem
      obtain ⟨snapshot, horigin⟩ := Option.isSome_iff_exists.1 (h.active_iff.1 hactive)
      have htrigger := (h.shows snapshot horigin).triggered
      refine ⟨snapshot, c, horigin, hsel, rfl, ?_, ?_⟩
      · rw [horigin]
        rfl
      · rw [horigin]
        exact Snapshot.replaced?_isSome htrigger
    · cases ho
    · cases ho
    · cases ho

/-- An update that filled the menu says how many candidates it holds. -/
theorem Step.applied {n : Nat} (hstep : Step limit x e y) (he : e.applied? = some n) :
    y.session.menu.size = n ∧ y.session.menu.selected = 0 ∧ 0 < n := by
  cases hstep with
  | start hb =>
    rcases (Session.begin_cases hb).2.2.1 with ⟨rfl, _⟩ | ⟨rfl, _⟩ <;> cases he
  | finish _ hf =>
    rcases Session.finish_cases hf with ⟨_, rfl, _⟩ | ⟨_, _, rfl, _⟩ | ⟨_, hfound, rfl, rfl⟩
    · cases he
    · cases he
    · cases he
      exact ⟨rfl, rfl, List.length_pos_iff.2 hfound⟩
  | press _ => cases he
  | reset => cases he

/-! ## The law -/

/-- After every run the menu is active exactly while it belongs to a snapshot, shows what was found
for it, and has no selection while it is closed. So an accepted candidate always replaces the
positions of the snapshot that it was found for, and an update that applied candidates leaves just
these in the menu, the first one selected. -/
theorem the_menu_belongs_to_its_snapshot (h : Run limit es x) :
    Coherent limit es x.session ∧
    (∀ key held text replaced y, Step limit x (.pressed key held (.accepted text replaced)) y →
      ∃ p answers n c, Event.finished p answers (.applied n) ∈ es ∧
        x.session.origin = some p.snapshot ∧ c ∈ merge limit answers ∧
        x.session.menu.selected? = some c ∧ text = c.value ∧
        replaced = p.snapshot.replaced? ∧ replaced.isSome = true) ∧
    (∀ e n y, Step limit x e y → e.applied? = some n →
      y.session.menu.size = n ∧ y.session.menu.selected = 0 ∧ 0 < n) := by
  have hcoherent := h.coherent
  refine ⟨hcoherent, ?_, fun _ _ _ => Step.applied⟩
  intro key held text replaced y hstep
  obtain ⟨snapshot, c, horigin, hsel, htext, hrep, hsome⟩ := hstep.accepted hcoherent
  obtain ⟨before, p, answers, after, rfl, rfl, hcs, _⟩ := (hcoherent.shows _ horigin).published
  refine ⟨p, answers, x.session.menu.size, c, by simp, horigin, ?_, hsel, htext, hrep, hsome⟩
  rw [← hcs]
  exact List.mem_of_getElem? hsel

/-- Of two candidates for a letter the limit leaves the better one. It stands alone in the menu,
and accepting it replaces the letter. -/
theorem the_menu_of_a_letter_belongs_to_it :
    let g := Report.atEnd ['g']
    let p : PendingUpdate := ⟨1, g.snapshot⟩
    let git : Candidate := ⟨"git".toList, .builtin, 1, [], none, none, none⟩
    let gitk : Candidate := ⟨"gitk".toList, .otherCommand, 1, [], none, none, none⟩
    let es : List Event :=
      [.started g (.inr p), .finished p [.candidates [gitk], .candidates [git]] (.applied 1)]
    let x : Exchange :=
      ⟨Session.fill { generation := 1, lastMode := some .shell } g.snapshot [git], []⟩
    let y : Exchange := ⟨x.session.shut, []⟩
    Run (some 1) es x ∧
      Step (some 1) x (.pressed .enter {} (.accepted git.value (some (0, 1)))) y ∧
      Coherent (some 1) es x.session ∧
      ∃ p answers n c, Event.finished p answers (.applied n) ∈ es ∧
        x.session.origin = some p.snapshot ∧ c ∈ merge (some 1) answers ∧
        x.session.menu.selected? = some c ∧ git.value = c.value ∧
        some (0, 1) = p.snapshot.replaced? ∧ (some (0, 1)).isSome = true := by
  intro g p git gitk es x y
  have hrun : Run (some 1) es x := .first rfl rfl nofun
  have hstep : Step (some 1) x (.pressed .enter {} (.accepted git.value (some (0, 1)))) y :=
    .press rfl
  obtain ⟨hcoherent, haccept, _⟩ := the_menu_belongs_to_its_snapshot hrun
  exact ⟨hrun, hstep, hcoherent, haccept _ _ _ _ _ hstep⟩

end Exchange

end Typeahead
