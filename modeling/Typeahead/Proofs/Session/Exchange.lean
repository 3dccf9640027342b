import Mathlib.Data.List.Induction
import Typeahead.Session.Basic
import Typeahead.Source.Basic

/-!
A session among updates that overlap. Updates start and end in any order, and keys and resets come
between them. Each of these is one step with one event, and a run is a list of events from a new
session on. What a step can do to a session is said here once, case by case.
-/
namespace Typeahead

/-! ## Reports and events -/

/-- What the line editor reports when the line has changed, with the surroundings at that time. -/
structure Report where
  line : Text
  cursor : Nat
  mode : Mode
  directory : Text := []
  recent : List Text := []
  deriving DecidableEq, Repr

namespace Report

def snapshot (r : Report) : Snapshot := .ofLine r.line r.cursor r.mode r.directory r.recent

/-- A shell line with the cursor at its end. -/
def atEnd (line : Text) : Report := { line, cursor := line.length, mode := .shell }

end Report

/-- What happened in a step, with its outcome. -/
inductive Event where
  /-- An update started. It ended at once, or it awaits its candidates. -/
  | started (report : Report) (next : UpdateOutcome ⊕ PendingUpdate)
  /-- An update ended with what the sources answered. -/
  | finished (p : PendingUpdate) (answers : List Answer) (outcome : UpdateOutcome)
  | pressed (key : Key) (held : Modifiers) (outcome : KeyOutcome)
  | reset

namespace Event

/-- A candidate was accepted, the menu was dismissed, or the session was reset. -/
def closes : Event → Bool
  | pressed _ _ (.accepted _ _) | pressed _ _ .dismissed | reset => true
  | _ => false

/-- What makes the updates under way stale: a later start, and whatever closes the menu. -/
def overtakes : Event → Bool
  | started _ _ => true
  | e => e.closes

/-- How many candidates an update put into the menu, if it put any. -/
def applied? : Event → Option Nat
  | started _ (.inl (.applied n)) | finished _ _ (.applied n) => some n
  | _ => none

/-- Neither a key nor a reset. -/
def isUpdate : Event → Bool
  | started _ _ | finished _ _ _ => true
  | _ => false

/-- The report that an update started with, and what the start came to. -/
def start? : Event → Option (Report × (UpdateOutcome ⊕ PendingUpdate))
  | started report next => some (report, next)
  | _ => none

/-- The start of the update that was started last. -/
def lastStart? (es : List Event) : Option (Report × (UpdateOutcome ⊕ PendingUpdate)) :=
  (es.filterMap start?).getLast?

variable {es fs : List Event} {e : Event}

/-- Every start overtakes. -/
theorem start?_eq_none (h : e.overtakes = false) : e.start? = none := by
  cases e with
  | started _ _ => cases h
  | finished _ _ _ => rfl
  | pressed _ _ _ => rfl
  | reset => rfl

theorem lastStart?_append_of_none (h : ∀ e ∈ fs, e.start? = none) :
    lastStart? (es ++ fs) = lastStart? es := by
  have hnil : fs.filterMap start? = [] := List.filterMap_eq_nil_iff.2 h
  unfold lastStart?
  rw [List.filterMap_append, hnil, List.append_nil]

theorem lastStart?_snoc_of_none (h : e.start? = none) : lastStart? (es ++ [e]) = lastStart? es :=
  lastStart?_append_of_none (by simpa using h)

theorem lastStart?_snoc {report : Report} {next : UpdateOutcome ⊕ PendingUpdate} :
    lastStart? (es ++ [started report next]) = some (report, next) := by
  unfold lastStart?
  rw [List.filterMap_append]
  exact List.getLast?_concat

theorem mem_of_lastStart? {report : Report} {next : UpdateOutcome ⊕ PendingUpdate}
    (h : lastStart? es = some (report, next)) : started report next ∈ es := by
  obtain ⟨e, he, hstart⟩ := List.mem_filterMap.1 (List.mem_of_getLast? h)
  cases e with
  | started _ _ =>
    cases hstart
    exact he
  | finished _ _ _ => cases hstart
  | pressed _ _ _ => cases hstart
  | reset => cases hstart

end Event

/-! ## Steps and runs -/

/-- A session and the updates under way. -/
structure Exchange where
  session : Session := {}
  underWay : List PendingUpdate := []

namespace Exchange

/-- One step of an exchange. Any update under way may end next, with any answers. -/
inductive Step (limit : Option Nat) (x : Exchange) : Event → Exchange → Prop
  | start {report : Report} {s : Session} {next : UpdateOutcome ⊕ PendingUpdate}
      (h : x.session.begin report.snapshot = (s, next)) :
      Step limit x (.started report next) ⟨s, x.underWay ++ next.getRight?.toList⟩
  | finish {p : PendingUpdate} {answers : List Answer} {s : Session} {outcome : UpdateOutcome}
      (hp : p ∈ x.underWay) (h : x.session.finish p (merge limit answers) = (s, outcome)) :
      Step limit x (.finished p answers outcome) ⟨s, x.underWay.erase p⟩
  | press {key : Key} {held : Modifiers} {s : Session} {outcome : KeyOutcome}
      (h : x.session.press key held = (s, outcome)) :
      Step limit x (.pressed key held outcome) ⟨s, x.underWay⟩
  | reset : Step limit x .reset ⟨x.session.reset, x.underWay⟩

/-- The events from a new session on, the oldest first, and the exchange after them. -/
inductive Run (limit : Option Nat) : List Event → Exchange → Prop
  | nil (painter : Painter) : Run limit [] { session := { painter } }
  | snoc {es : List Event} {e : Event} {x y : Exchange} :
      Run limit es x → Step limit x e y → Run limit (es ++ [e]) y

end Exchange

/-! ## One step of a session -/

namespace Session

variable {s t : Session}

/-- A start counts and sets the mode. The menu is kept or closed, and kept only for a trigger in an
unchanged mode. -/
theorem begin_cases {snapshot : Snapshot} {next : UpdateOutcome ⊕ PendingUpdate}
    (h : s.begin snapshot = (t, next)) :
    t.generation = s.generation + 1 ∧ t.lastMode = some snapshot.mode ∧
      (next = .inr ⟨s.generation + 1, snapshot⟩ ∧ snapshot.trigger.isActive = true ∨
        next = .inl .cleared ∧ snapshot.trigger.isActive = false) ∧
      (t.menu = s.menu ∧ t.origin = s.origin ∧ snapshot.trigger.isActive = true ∧
          (∀ m, s.lastMode = some m → m = snapshot.mode) ∨
        t.menu = .empty ∧ t.origin = none) := by
  unfold begin at h
  dsimp only at h
  by_cases htrigger : snapshot.trigger.isActive = true
  · rw [if_pos htrigger] at h
    split at h
    · cases h
      exact ⟨rfl, rfl, Or.inl ⟨rfl, htrigger⟩, Or.inr ⟨rfl, rfl⟩⟩
    · rename_i hmode
      cases h
      refine ⟨rfl, rfl, Or.inl ⟨rfl, htrigger⟩, Or.inl ⟨rfl, rfl, htrigger, ?_⟩⟩
      intro m hm
      simpa [hm] using hmode
  · rw [if_neg htrigger] at h
    split at h <;> cases h <;>
      exact ⟨rfl, rfl, Or.inr ⟨rfl, by simpa using htrigger⟩, Or.inr ⟨rfl, rfl⟩⟩

/-- The session after the menu was filled for a snapshot. -/
def fill (s : Session) (snapshot : Snapshot) (found : List Candidate) : Session :=
  { s with menu := .ofList found, origin := some snapshot }

theorem finish_cases {p : PendingUpdate} {found : List Candidate} {o : UpdateOutcome}
    (h : s.finish p found = (t, o)) :
    s.generation ≠ p.generation ∧ o = .stale ∧ t = s ∨
      s.generation = p.generation ∧ found = [] ∧ o = .cleared ∧ t = s.close ∨
      s.generation = p.generation ∧ found ≠ [] ∧ o = .applied found.length ∧
        t = s.fill p.snapshot found := by
  unfold finish at h
  split at h
  · rename_i hne
    cases h
    exact Or.inl ⟨hne, rfl, rfl⟩
  · rename_i heq
    have hgen : s.generation = p.generation := by simpa using heq
    split at h
    · rename_i hempty
      cases h
      exact Or.inr (Or.inl ⟨hgen, List.isEmpty_iff.1 hempty, rfl, rfl⟩)
    · rename_i hfound
      cases h
      exact Or.inr (Or.inr ⟨hgen, by simpa using hfound, rfl, rfl⟩)

/-- The session after a key closed the menu. -/
def shut (s : Session) : Session := { s.close with generation := s.generation + 1 }

theorem press_cases {key : Key} {held : Modifiers} {o : KeyOutcome}
    (h : s.press key held = (t, o)) :
    (∃ c, s.menu.selected? = some c ∧
        o = .accepted c.value (s.origin.bind Snapshot.replaced?) ∧ t = s.shut) ∨
      o = .dismissed ∧ t = s.shut ∨
      o = .navigated ∧
          (t = { s with menu := s.menu.next } ∨ t = { s with menu := s.menu.previous }) ∨
      o = .notHandled ∧ t = s := by
  unfold press Menu.press at h
  rcases hsel : s.menu.selected? with _ | c
  · simp only [hsel] at h
    cases h
    exact Or.inr (Or.inr (Or.inr ⟨rfl, rfl⟩))
  · simp only [hsel] at h
    cases key with
    | enter =>
      cases h
      exact Or.inl ⟨c, rfl, rfl, rfl⟩
    | escape =>
      cases h
      exact Or.inr (Or.inl ⟨rfl, rfl⟩)
    | tab =>
      by_cases hshift : held.shift = true
      · simp only [hshift, if_true] at h
        cases h
        exact Or.inr (Or.inr (Or.inl ⟨rfl, Or.inr rfl⟩))
      · simp only [hshift] at h
        cases h
        exact Or.inr (Or.inr (Or.inl ⟨rfl, Or.inl rfl⟩))
    | down =>
      cases h
      exact Or.inr (Or.inr (Or.inl ⟨rfl, Or.inl rfl⟩))
    | backTab | up =>
      cases h
      exact Or.inr (Or.inr (Or.inl ⟨rfl, Or.inr rfl⟩))
    | char _ | other =>
      cases h
      exact Or.inr (Or.inr (Or.inr ⟨rfl, rfl⟩))

end Session

/-! ## Every step of a run -/

namespace Exchange

variable {limit : Option Nat} {x y : Exchange} {e : Event} {es fs : List Event}

/-- The first update fills the menu with what was found for it. -/
theorem Run.first {report : Report} {answers : List Answer} {found : List Candidate}
    (htrigger : report.snapshot.trigger.isActive = true) (hmerge : merge limit answers = found)
    (hfound : found ≠ []) :
    Run limit
      [.started report (.inr ⟨1, report.snapshot⟩),
        .finished ⟨1, report.snapshot⟩ answers (.applied found.length)]
      ⟨Session.fill { generation := 1, lastMode := some report.mode } report.snapshot found,
        []⟩ := by
  subst hmerge
  let p : PendingUpdate := ⟨1, report.snapshot⟩
  let s : Session := { generation := 1, lastMode := some report.mode }
  have hbegin : Session.begin {} report.snapshot = (s, .inr p) := by
    unfold Session.begin
    rw [if_pos htrigger]
    rfl
  have hfinish : s.finish p (merge limit answers) =
      (s.fill report.snapshot (merge limit answers), .applied (merge limit answers).length) := by
    simp [Session.finish, Session.fill, hfound, s, p]
  have hstart : Run limit [.started report (.inr p)] ⟨s, [p]⟩ := (Run.nil {}).snoc (.start hbegin)
  have hend := hstart.snoc (.finish (List.mem_singleton_self p) hfinish)
  rw [List.erase_cons_head] at hend
  exact hend

/-- The generation counts what makes updates stale. -/
theorem Step.generation (h : Step limit x e y) :
    y.session.generation = x.session.generation + if e.overtakes then 1 else 0 := by
  cases h with
  | start h => exact (Session.begin_cases h).1
  | finish hp h =>
    rcases Session.finish_cases h with ⟨_, _, rfl⟩ | ⟨_, _, _, rfl⟩ | ⟨_, _, _, rfl⟩ <;> rfl
  | press h =>
    rcases Session.press_cases h with
      ⟨c, _, rfl, rfl⟩ | ⟨rfl, rfl⟩ | ⟨rfl, rfl | rfl⟩ | ⟨rfl, rfl⟩ <;> rfl
  | reset => rfl

theorem Run.generation (h : Run limit es x) :
    x.session.generation = es.countP Event.overtakes := by
  induction h with
  | nil => rfl
  | snoc _ hstep ih => rw [hstep.generation, ih, List.countP_append, List.countP_singleton]

/-- The last event of a run comes from a last step. -/
theorem Run.last (h : Run limit (es ++ [e]) y) : ∃ x, Run limit es x ∧ Step limit x e y := by
  generalize hfs : es ++ [e] = fs at h
  cases h with
  | nil => simp at hfs
  | snoc hrun hstep =>
    obtain ⟨rfl, he⟩ := List.append_inj' hfs rfl
    cases he
    exact ⟨_, hrun, hstep⟩

/-- The first events of a run are a run. -/
theorem Run.initial (h : Run limit (es ++ fs) y) : ∃ x, Run limit es x := by
  induction fs using List.reverseRecOn generalizing y with
  | nil => exact ⟨y, by simpa using h⟩
  | append_singleton fs e ih =>
    rw [← List.append_assoc] at h
    obtain ⟨x, hx, _⟩ := h.last
    exact ih hx

/-- An update that awaits its candidates bears the number of its start. -/
theorem Run.pending {report : Report} {p : PendingUpdate}
    (h : Run limit (es ++ .started report (.inr p) :: fs) y) :
    p.generation = es.countP Event.overtakes + 1 ∧ p.snapshot = report.snapshot ∧
      report.snapshot.trigger.isActive = true := by
  rw [List.append_cons] at h
  obtain ⟨z, hz⟩ := h.initial
  obtain ⟨x, hx, hstep⟩ := hz.last
  cases hstep with
  | start hb =>
    rcases (Session.begin_cases hb).2.2.1 with ⟨hp, htrigger⟩ | ⟨hp, _⟩
    · cases hp
      exact ⟨by rw [hx.generation], rfl, htrigger⟩
    · cases hp

/-- An update under way was started. -/
theorem Run.started {p : PendingUpdate} (h : Run limit es x) (hp : p ∈ x.underWay) :
    ∃ before report between, es = before ++ .started report (.inr p) :: between := by
  induction h with
  | nil => cases hp
  | @snoc es e x y _ hstep ih =>
    have hgrow : p ∈ x.underWay → ∃ before report between,
        es ++ [e] = before ++ .started report (.inr p) :: between := by
      intro hx
      obtain ⟨before, report, between, rfl⟩ := ih hx
      exact ⟨before, report, between ++ [e], by simp⟩
    cases hstep with
    | @start report s next hb =>
      rcases List.mem_append.1 hp with hx | hnew
      · exact hgrow hx
      · cases next with
        | inl o => cases hnew
        | inr q =>
          simp only [Sum.getRight?_inr, Option.toList_some, List.mem_singleton] at hnew
          subst hnew
          exact ⟨es, report, [], rfl⟩
    | finish _ _ => exact hgrow (List.mem_of_mem_erase hp)
    | press _ => exact hgrow hp
    | reset => exact hgrow hp

/-- When another update ends, the latest one stays under way. -/
theorem latest_mem_erase {p q : PendingUpdate} (hq : q ∈ x.underWay)
    (hlatest : x.session.generation = q.generation) (hgen : x.session.generation ≠ p.generation) :
    q ∈ x.underWay.erase p := by
  refine (List.mem_erase_of_ne ?_).2 hq
  rintro rfl
  exact hgen hlatest

/-- What overtakes nothing leaves the mode as it is. -/
theorem Step.lastMode (h : Step limit x e y) (he : e.overtakes = false) :
    y.session.lastMode = x.session.lastMode := by
  cases h with
  | start _ => cases he
  | finish _ hf =>
    rcases Session.finish_cases hf with ⟨_, _, rfl⟩ | ⟨_, _, _, rfl⟩ | ⟨_, _, _, rfl⟩ <;> rfl
  | press hk =>
    rcases Session.press_cases hk with
      ⟨c, _, rfl, rfl⟩ | ⟨rfl, rfl⟩ | ⟨rfl, rfl | rfl⟩ | ⟨rfl, rfl⟩ <;> rfl
  | reset => cases he

/-- An update is the latest as long as nothing has overtaken it. -/
theorem Run.latest_iff {report : Report} {p : PendingUpdate}
    (h : Run limit (es ++ .started report (.inr p) :: fs) x) :
    x.session.generation = p.generation ↔ ∀ e ∈ fs, e.overtakes = false := by
  -- The generation counts what overtakes, and the start of the update is among that.
  have hcount : (es ++ .started report (.inr p) :: fs).countP Event.overtakes =
      es.countP Event.overtakes + 1 + fs.countP Event.overtakes := by
    simp [List.countP_append, List.countP_cons, Event.overtakes]
    omega
  rw [h.generation, h.pending.1, hcount]
  constructor
  · intro hgen
    have hnone : fs.countP Event.overtakes = 0 := by omega
    simpa [List.countP_eq_zero] using hnone
  · intro hnone
    have : fs.countP Event.overtakes = 0 := by
      simpa [List.countP_eq_zero] using hnone
    omega

/-- The mode is that of the latest start. -/
theorem Run.lastMode {report : Report} {next : UpdateOutcome ⊕ PendingUpdate}
    (h : Run limit (es ++ .started report next :: fs) x) (hfs : ∀ e ∈ fs, e.overtakes = false) :
    x.session.lastMode = some report.mode := by
  induction fs using List.reverseRecOn generalizing x with
  | nil =>
    obtain ⟨z, _, hstep⟩ := h.last
    cases hstep with
    | start hb => exact (Session.begin_cases hb).2.1
  | append_singleton fs e ih =>
    rw [← List.cons_append, ← List.append_assoc] at h
    obtain ⟨z, hz, hstep⟩ := h.last
    rw [hstep.lastMode (hfs e (by simp))]
    exact ih hz fun f hf => hfs f (by simp [hf])

/-- The latest update was started last, for a trigger and in the mode that is kept. -/
theorem Run.latest {p : PendingUpdate} (h : Run limit es x) (hp : p ∈ x.underWay)
    (hgen : x.session.generation = p.generation) :
    ∃ report, Event.lastStart? es = some (report, .inr p) ∧ p.snapshot = report.snapshot ∧
      p.snapshot.trigger.isActive = true ∧ x.session.lastMode = some p.snapshot.mode := by
  obtain ⟨before, report, between, rfl⟩ := h.started hp
  obtain ⟨_, hsnapshot, htrigger⟩ := h.pending
  have hnone := h.latest_iff.1 hgen
  refine ⟨report, ?_, hsnapshot, by rw [hsnapshot]; exact htrigger, ?_⟩
  · rw [List.append_cons, Event.lastStart?_append_of_none, Event.lastStart?_snoc]
    intro e he
    exact Event.start?_eq_none (hnone e he)
  · rw [hsnapshot]
    exact h.lastMode hnone

end Exchange

end Typeahead
