import Typeahead.Proofs.Session.Shown
import Typeahead.Proofs.Source.Waiting
import Typeahead.Session.Race

/-!
Whatever happens to an assistant is a run of its session. Updates that are waited for, updates that
overlap, keys, resets and drawings are steps, one after another or at times that cross. So what
holds after every run holds of every assistant; the main statement says it of the menu and its
snapshot.
-/
namespace Typeahead

/-! ## Drawing -/

namespace Session

variable (s : Session) (painter : Painter)

/-- What was drawn last has no say in an update, a key or a reset. -/
theorem begin_painter (snapshot : Snapshot) :
    begin { s with painter } snapshot =
      ({ (s.begin snapshot).1 with painter }, (s.begin snapshot).2) := by
  unfold begin
  dsimp only
  split <;> split <;> rfl

theorem finish_painter (p : PendingUpdate) (found : List Candidate) :
    finish { s with painter } p found =
      ({ (s.finish p found).1 with painter }, (s.finish p found).2) := by
  unfold finish
  dsimp only
  split
  · rfl
  · split <;> rfl

theorem press_painter (key : Key) (held : Modifiers) :
    press { s with painter } key held =
      ({ (s.press key held).1 with painter }, (s.press key held).2) := by
  unfold press
  dsimp only
  split <;> rfl

end Session

/-! ## Sessions that runs reach -/

/-- After a run the session is the given one, whatever was drawn, and the given updates are under
way. -/
def Reached (limit : Option Nat) (es : List Event) (s : Session) (waiting : List PendingUpdate) :
    Prop :=
  ∃ x painter,
    Exchange.Run limit es x ∧ s = { x.session with painter } ∧ x.underWay.Perm waiting

namespace Reached

variable {limit : Option Nat} {es : List Event} {s t : Session} {p : PendingUpdate}
  {waiting others : List PendingUpdate}

theorem new (painter : Painter) : Reached limit [] { painter } [] :=
  ⟨_, painter, .nil painter, rfl, .nil⟩

theorem perm (h : Reached limit es s waiting) (hperm : waiting.Perm others) :
    Reached limit es s others := by
  obtain ⟨x, painter, hrun, hs, hwaiting⟩ := h
  exact ⟨x, painter, hrun, hs, hwaiting.trans hperm⟩

theorem start {report : Report} {next : UpdateOutcome ⊕ PendingUpdate}
    (h : Reached limit es s waiting) (hb : s.begin report.snapshot = (t, next)) :
    Reached limit (es ++ [.started report next]) t (waiting ++ next.getRight?.toList) := by
  obtain ⟨x, painter, hrun, rfl, hperm⟩ := h
  rw [Session.begin_painter] at hb
  cases hb
  exact ⟨_, painter, hrun.snoc (.start rfl), rfl, hperm.append_right _⟩

theorem finish {answers : List Answer} {found : List Candidate} {o : UpdateOutcome}
    (h : Reached limit es s (p :: waiting)) (hfound : found = merge limit answers)
    (hf : s.finish p found = (t, o)) :
    Reached limit (es ++ [.finished p answers o]) t waiting := by
  subst hfound
  obtain ⟨x, painter, hrun, rfl, hperm⟩ := h
  rw [Session.finish_painter] at hf
  cases hf
  have hp : p ∈ x.underWay := hperm.symm.subset List.mem_cons_self
  refine ⟨_, painter, hrun.snoc (.finish hp rfl), rfl, ?_⟩
  have herase := hperm.erase p
  rw [List.erase_cons_head] at herase
  exact herase

theorem press {key : Key} {held : Modifiers} {o : KeyOutcome} (h : Reached limit es s waiting)
    (hk : s.press key held = (t, o)) : Reached limit (es ++ [.pressed key held o]) t waiting := by
  obtain ⟨x, painter, hrun, rfl, hperm⟩ := h
  rw [Session.press_painter] at hk
  cases hk
  exact ⟨_, painter, hrun.snoc (.press rfl), rfl, hperm⟩

theorem reset (h : Reached limit es s waiting) :
    Reached limit (es ++ [.reset]) s.reset waiting := by
  obtain ⟨x, painter, hrun, rfl, hperm⟩ := h
  exact ⟨_, painter, hrun.snoc .reset, rfl, hperm⟩

theorem draw (h : Reached limit es s waiting) (painter : Painter) :
    Reached limit es { s with painter } waiting := by
  obtain ⟨x, _, hrun, rfl, hperm⟩ := h
  exact ⟨x, painter, hrun, rfl, hperm⟩

/-- What the menu shows does not depend on what was drawn. -/
theorem coherent (h : Reached limit es s waiting) : Coherent limit es s := by
  obtain ⟨x, painter, hrun, rfl, _⟩ := h
  have hold := hrun.coherent
  refine ⟨hold.active_iff, ?_, hold.closed⟩
  intro snapshot horigin
  obtain ⟨hpublished, htrigger, hsel, hsize, hmode⟩ := hold.shows snapshot horigin
  exact ⟨hpublished, htrigger, hsel, hsize, hmode⟩

end Reached

/-! ## Updates of an assistant -/

/-- What was found is the merge of the answers. -/
theorem Inquiry.eq_merge_of_result? {σ : Type} {i : Inquiry σ} {limit : Option Nat}
    {found : List Candidate} (h : i.result? limit = some found) :
    found = merge limit i.answers := by
  unfold result? at h
  split at h
  · cases h
    rfl
  · cases h

namespace Assistant

variable {ε : Type} {a : Assistant ε} {es : List Event} {waiting : List PendingUpdate}

/-- What the editor reports to an assistant, in the surroundings of the assistant. -/
def report (a : Assistant ε) (line : Text) (cursor : Nat) (mode : Mode) : Report :=
  ⟨line, cursor, mode, a.directory, (a.world.recentCommands snapshotWindow).1⟩

/-- After these events the assistant has these updates under way. -/
def Awaits (a : Assistant ε) (es : List Event) (waiting : List PendingUpdate) : Prop :=
  Reached a.limit es a.session waiting

theorem limit_update (line : Text) (cursor : Nat) (mode : Mode) :
    (a.update line cursor mode).1.limit = a.limit := by
  unfold Assistant.update
  dsimp only
  split <;> rfl

/-- An update that is waited for starts and ends, with nothing between. -/
theorem Awaits.update (h : a.Awaits es waiting) (line : Text) (cursor : Nat) (mode : Mode) :
    ∃ next fs, (∀ e ∈ fs, e.start? = none) ∧
      (a.update line cursor mode).1.Awaits (es ++ .started (a.report line cursor mode) next :: fs)
        waiting := by
  unfold Assistant.update Assistant.snapshot
  dsimp only
  rcases hb : a.session.begin (a.report line cursor mode).snapshot with ⟨s, next⟩
  have hstart := Reached.start h hb
  unfold report Report.snapshot at hb
  rw [hb]
  cases next with
  | inl o =>
    rw [Sum.getRight?_inl, Option.toList_none, List.append_nil] at hstart
    exact ⟨.inl o, [], by simp, hstart⟩
  | inr p =>
    obtain ⟨answers, _, hfound⟩ := Registry.exists_answers a.registry _ _
    have hwaits := hstart.perm List.perm_append_comm
    have hend := Reached.finish hwaits (hfound a.limit) (Prod.eta _).symm
    rw [List.append_assoc] at hend
    exact ⟨.inr p, [.finished p answers _], by simp [Event.start?], hend⟩

/-- What is under way after a step of an update. -/
def underWay : UpdateOutcome ⊕ Update ε → List PendingUpdate
  | .inl _ => []
  | .inr u => [u.pending]

/-- An update ends with the answers of its sources, if all are there. -/
theorem Awaits.settle {u : Update ε} (h : a.Awaits es (u.pending :: waiting)) :
    ∃ fs, (∀ e ∈ fs, e.start? = none) ∧
      (a.settle u).1.Awaits (es ++ fs) (underWay (a.settle u).2 ++ waiting) := by
  unfold Assistant.settle
  split
  · rename_i found hfound
    have hend := Reached.finish h (Inquiry.eq_merge_of_result? hfound) (Prod.eta _).symm
    exact ⟨[.finished u.pending u.inquiry.answers _], by simp [Event.start?], hend⟩
  · refine ⟨[], by simp, ?_⟩
    rw [List.append_nil]
    exact h

theorem Awaits.startUpdate (h : a.Awaits es waiting) (line : Text) (cursor : Nat) (mode : Mode)
    (now : Nat) :
    ∃ next fs, (∀ e ∈ fs, e.start? = none) ∧
      (a.startUpdate line cursor mode now).1.Awaits
        (es ++ .started (a.report line cursor mode) next :: fs)
        (underWay (a.startUpdate line cursor mode now).2.1 ++ waiting) := by
  unfold Assistant.startUpdate Assistant.snapshot
  dsimp only
  rcases hb : a.session.begin (a.report line cursor mode).snapshot with ⟨s, next⟩
  have hstart := Reached.start h hb
  unfold report Report.snapshot at hb
  rw [hb]
  cases next with
  | inl o =>
    rw [Sum.getRight?_inl, Option.toList_none, List.append_nil] at hstart
    exact ⟨.inl o, [], by simp, hstart⟩
  | inr p =>
    have hwaits := hstart.perm List.perm_append_comm
    -- Sources that answer at once may end the update in the same instant.
    obtain ⟨fs, hfs, hend⟩ :=
      Awaits.settle (a := { a with session := s, world := _ }) (u := ⟨p, _⟩) hwaits
    rw [List.append_assoc] at hend
    exact ⟨.inr p, fs, hfs, hend⟩

theorem Awaits.continueUpdate {u : Update ε} (h : a.Awaits es (u.pending :: waiting)) (now : Nat) :
    ∃ fs, (∀ e ∈ fs, e.start? = none) ∧
      (a.continueUpdate u now).1.Awaits (es ++ fs)
        (underWay (a.continueUpdate u now).2.1 ++ waiting) :=
  Awaits.settle (a := { a with world := _ }) (u := { u with inquiry := _ }) h

end Assistant

/-! ## Happenings at overlapping times -/

/-- What takes no time may be any steps of the session, but leaves what is under way. -/
def Happening.IsProper {ε ρ : Type} : Happening ε ρ → Prop
  | update _ _ _ => True
  | momentary run => ∀ (a : Assistant ε) es waiting, a.Awaits es waiting →
      ∃ fs, (run a).1.Awaits (es ++ fs) waiting

/-- What takes no time is a key, a reset, an update that is waited for, a drawing, or leaves the
session alone. -/
def Happening.IsPlain {ε ρ : Type} : Happening ε ρ → Prop
  | update _ _ _ => True
  | momentary run => ∀ a : Assistant ε, (run a).1.limit = a.limit ∧
      ((∃ key held, (run a).1.session = (a.session.press key held).1) ∨
        (run a).1.session = a.session.reset ∨
        (∃ line cursor mode, (run a).1.session = (a.update line cursor mode).1.session) ∨
        ∃ painter, (run a).1.session = { a.session with painter })

theorem Happening.IsPlain.isProper {ε ρ : Type} {d : Happening ε ρ} (h : d.IsPlain) :
    d.IsProper := by
  cases d with
  | update _ _ _ => trivial
  | momentary run =>
    intro a es waiting hwaits
    obtain ⟨hlimit, hsession⟩ := h a
    -- Only the session and the limit matter for what is under way.
    unfold Assistant.Awaits at hwaits ⊢
    rw [hlimit]
    rcases hsession with ⟨key, held, hs⟩ | hs | ⟨line, cursor, mode, hs⟩ | ⟨painter, hs⟩
    · rw [hs]
      exact ⟨_, hwaits.press (Prod.eta _).symm⟩
    · rw [hs]
      exact ⟨_, hwaits.reset⟩
    · -- An update that is waited for has ended when the next thing happens.
      obtain ⟨_, _, _, hend⟩ := Assistant.Awaits.update hwaits line cursor mode
      unfold Assistant.Awaits at hend
      rw [Assistant.limit_update] at hend
      rw [hs]
      exact ⟨_, hend⟩
    · rw [hs]
      refine ⟨[], ?_⟩
      rw [List.append_nil]
      exact hwaits.draw painter

namespace Runner

variable {ε ρ : Type} {a : Assistant ε} {es : List Event} {others : List PendingUpdate}

def underWay : Runner ε ρ → List PendingUpdate
  | updating u => [u.pending]
  | waiting _ _ | done _ => []

def IsProper : Runner ε ρ → Prop
  | waiting _ h => h.IsProper
  | updating _ | done _ => True

/-- A runner and its assistant, some events after the given ones. -/
def Follows (es : List Event) (others : List PendingUpdate) (r : Runner ε ρ) (a : Assistant ε) :
    Prop :=
  r.IsProper ∧ ∃ fs, a.Awaits (es ++ fs) (r.underWay ++ others)

/-- The same for several runners. -/
def FollowAll (es : List Event) (others : List PendingUpdate) (runners : List (Runner ε ρ))
    (a : Assistant ε) : Prop :=
  (∀ r ∈ runners, r.IsProper) ∧ ∃ fs, a.Awaits (es ++ fs) (runners.flatMap underWay ++ others)

variable (read : Assistant ε → UpdateOutcome → ρ) (now : Nat)

theorem Follows.ofStep {step : Assistant ε × (UpdateOutcome ⊕ Update ε) × List Text}
    {fs gs : List Event}
    (h : step.1.Awaits ((es ++ fs) ++ gs) (Assistant.underWay step.2.1 ++ others)) :
    Follows es others (ofStep read step).1 (ofStep read step).2.1 := by
  rw [List.append_assoc] at h
  rcases step with ⟨b, _ | u, warnings⟩
  · exact ⟨trivial, _, h⟩
  · exact ⟨trivial, _, h⟩

theorem Follows.poll {r : Runner ε ρ} (h : Follows es others r a) :
    Follows es others (r.poll read now a).1 (r.poll read now a).2.1 := by
  obtain ⟨hproper, fs, hwaits⟩ := h
  cases r with
  | done result => exact ⟨trivial, fs, hwaits⟩
  | updating u =>
    obtain ⟨gs, _, hnext⟩ := Assistant.Awaits.continueUpdate hwaits now
    exact .ofStep read hnext
  | waiting due d =>
    by_cases hdue : now < due
    · simp only [Runner.poll, if_pos hdue]
      exact ⟨hproper, fs, hwaits⟩
    · simp only [Runner.poll, if_neg hdue]
      cases d with
      | update line cursor mode =>
        obtain ⟨next, gs, _, hnext⟩ := Assistant.Awaits.startUpdate hwaits line cursor mode now
        exact .ofStep read hnext
      | momentary run =>
        obtain ⟨gs, hnext⟩ := hproper a (es ++ fs) others hwaits
        rw [List.append_assoc] at hnext
        exact ⟨trivial, _, hnext⟩

theorem FollowAll.sweep {runners : List (Runner ε ρ)} (h : FollowAll es others runners a) :
    FollowAll es others (Typeahead.sweep (poll read now) runners a).1
      (Typeahead.sweep (poll read now) runners a).2.1 := by
  induction runners generalizing others a with
  | nil => exact h
  | cons r runners ih =>
    obtain ⟨hproper, fs, hwaits⟩ := h
    rw [List.flatMap_cons, List.append_assoc] at hwaits
    have hhead : Follows es (runners.flatMap underWay ++ others) r a :=
      ⟨hproper r List.mem_cons_self, fs, hwaits⟩
    obtain ⟨hproper', gs, hwaits'⟩ := hhead.poll read now
    -- The other runners go on while the head waits.
    have htail : FollowAll es ((r.poll read now a).1.underWay ++ others) runners
        (r.poll read now a).2.1 :=
      ⟨fun r' hr' => hproper r' (List.mem_cons_of_mem _ hr'), gs,
        hwaits'.perm (List.perm_append_comm_assoc _ _ _)⟩
    obtain ⟨hall, ks, hend⟩ := ih htail
    refine ⟨?_, ks, ?_⟩
    · intro r' hr'
      rcases List.mem_cons.1 hr' with rfl | hr'
      · exact hproper'
      · exact hall r' hr'
    · have hend' := hend.perm (List.perm_append_comm_assoc _ _ _)
      rw [← List.append_assoc] at hend'
      exact hend'

theorem FollowAll.run {runners : List (Runner ε ρ)} (h : FollowAll es others runners a)
    (rounds : Nat) :
    FollowAll es others (Runner.run read rounds runners now a).1
      (Runner.run read rounds runners now a).2.1 := by
  induction rounds generalizing runners now a with
  | zero => exact h
  | succ rounds ih =>
    unfold Runner.run
    split
    · exact h
    · exact ih _ (h.sweep read _)

end Runner

/-- Things that happen to an assistant at overlapping times follow on the events before, in some
order. -/
theorem Assistant.Awaits.race {ε ρ : Type} {a : Assistant ε} {es : List Event}
    {others : List PendingUpdate} (h : a.Awaits es others) (read : Assistant ε → UpdateOutcome → ρ)
    {happenings : List (Nat × Happening ε ρ)} (hproper : ∀ d ∈ happenings, d.2.IsProper) :
    ∃ fs waiting, (a.race read happenings).2.1.Awaits (es ++ fs) (waiting ++ others) := by
  let runners : List (Runner ε ρ) := happenings.map fun d => .waiting d.1 d.2
  have hstart : Runner.FollowAll es others runners a := by
    refine ⟨?_, [], ?_⟩
    · intro r hr
      obtain ⟨d, hd, rfl⟩ := List.mem_map.1 hr
      exact hproper d hd
    · have hnone : runners.flatMap Runner.underWay = [] := by
        rw [List.flatMap_eq_nil_iff]
        intro r hr
        obtain ⟨d, _, rfl⟩ := List.mem_map.1 hr
        rfl
      rw [hnone, List.append_nil]
      exact h
  obtain ⟨_, fs, hend⟩ :=
    hstart.run read 0 (runners.length * (a.registry.size + runners.length + 1))
  exact ⟨fs, _, hend⟩

/-- Whatever happens to a new assistant at overlapping times, the menu belongs to its snapshot after
it. -/
theorem Assistant.coherent_race {ε ρ : Type} {a : Assistant ε} {painter : Painter}
    (hnew : a.session = { painter }) (read : Assistant ε → UpdateOutcome → ρ)
    {happenings : List (Nat × Happening ε ρ)} (hplain : ∀ d ∈ happenings, d.2.IsPlain) :
    ∃ es, Coherent (a.race read happenings).2.1.limit es (a.race read happenings).2.1.session := by
  have hstart : a.Awaits [] [] := by
    unfold Assistant.Awaits
    rw [hnew]
    exact .new painter
  obtain ⟨es, waiting, hend⟩ := hstart.race read fun d hd => (hplain d hd).isProper
  exact ⟨es, Reached.coherent hend⟩

end Typeahead
