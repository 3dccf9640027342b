import Typeahead.Proofs.Session.Interleaving
import Typeahead.Proofs.Source.Waiting

/-!
The order in which updates end. When every source answers by the snapshot alone, all that
overlapping updates leave behind is what the last one would have left alone in a new session.
-/
namespace Typeahead

/-! ## Sources that answer by the snapshot -/

section Steady

variable {σ : Type}

/-- The answer depends on the snapshot only. -/
def Source.IsSteady (source : Source σ) : Prop :=
  ∀ s v w, (source.answer s v).1 = (source.answer s w).1

/-- What the relevant sources answer in a world, in the order of registration. -/
def Registry.replies (r : Registry σ) (world : σ) (s : Snapshot) : List Answer :=
  (r.relevant s).map fun source => (source.answer s world).1

/-- A query of steady sources finds the same in every world. -/
theorem Registry.query_found_of_steady {r : Registry σ}
    (h : ∀ source ∈ r.sources, source.IsSteady) (s : Snapshot) (limit : Option Nat) (v w : σ) :
    (r.query s limit v).found = merge limit (r.replies w s) := by
  refine Registry.query_found ?_ limit v
  intro source hs world
  exact h source (List.mem_of_mem_filter hs) s world w

end Steady

/-! ## What one update leaves -/

/-- The menu, its snapshot and the mode after an update that found the given candidates. -/
structure Session.Settled (s : Session) (snapshot : Snapshot) (found : List Candidate) : Prop where
  menu : s.menu = if snapshot.trigger.isActive then .ofList found else .empty
  origin : s.origin = if snapshot.trigger.isActive && !found.isEmpty then some snapshot else none
  lastMode : s.lastMode = some snapshot.mode

namespace Session.Settled

variable {s t : Session} {snapshot : Snapshot} {found : List Candidate}

/-- A closed menu is what an update leaves that had no trigger or found nothing. -/
theorem of_closed (hmenu : s.menu = .empty) (horigin : s.origin = none)
    (hmode : s.lastMode = some snapshot.mode)
    (h : snapshot.trigger.isActive = false ∨ found = []) : s.Settled snapshot found := by
  refine ⟨?_, ?_, hmode⟩
  · rw [hmenu]
    rcases h with h | rfl
    · rw [h]
      rfl
    · split <;> rfl
  · rw [horigin]
    rcases h with h | rfl
    · rw [h]
      rfl
    · simp

theorem of_fill (htrigger : snapshot.trigger.isActive = true) (hfound : found ≠ [])
    (hmode : s.lastMode = some snapshot.mode) : (s.fill snapshot found).Settled snapshot found := by
  refine ⟨?_, ?_, hmode⟩
  · rw [if_pos htrigger]
    rfl
  · simp [Session.fill, htrigger, hfound]

/-- What an update leaves when it ends as the latest one. -/
theorem of_finish {p : PendingUpdate} {o : UpdateOutcome} (hgen : s.generation = p.generation)
    (htrigger : p.snapshot.trigger.isActive = true) (hmode : s.lastMode = some p.snapshot.mode)
    (h : s.finish p found = (t, o)) : t.Settled p.snapshot found := by
  rcases Session.finish_cases h with ⟨hne, _⟩ | ⟨_, rfl, _, rfl⟩ | ⟨_, hfound, _, rfl⟩
  · exact absurd hgen hne
  · exact .of_closed rfl rfl hmode (Or.inr rfl)
  · exact .of_fill htrigger hfound hmode

end Session.Settled

/-! ## An update alone -/

namespace Assistant

variable {ε : Type}

/-- Nothing has happened yet. -/
def IsNew (a : Assistant ε) : Prop := a.session = { painter := a.session.painter }

/-- What an update leaves in a new assistant with steady sources. -/
theorem settled_update {a : Assistant ε} (hnew : a.IsNew)
    (hsteady : ∀ source ∈ a.registry.sources, source.IsSteady) (line : Text) (cursor : Nat)
    (mode : Mode) :
    (a.update line cursor mode).1.session.Settled (a.report line cursor mode).snapshot
      (merge a.limit (a.registry.replies a.world (a.report line cursor mode).snapshot)) := by
  have hshape : ∀ s next, a.session.begin (a.report line cursor mode).snapshot = (s, next) →
      s.menu = .empty ∧ s.origin = none := by
    intro s next hb
    have hmenu : a.session.menu = .empty := by rw [hnew]
    have horigin : a.session.origin = none := by rw [hnew]
    rcases (Session.begin_cases hb).2.2.2 with ⟨hkept, hkept', _⟩ | hclosed
    · exact ⟨hkept.trans hmenu, hkept'.trans horigin⟩
    · exact hclosed
  unfold Assistant.update Assistant.snapshot
  rcases hb : a.session.begin (a.report line cursor mode).snapshot with ⟨s, next⟩
  -- The start leaves the menu closed, as it was in the new session.
  obtain ⟨hmenu, horigin⟩ := hshape s next hb
  obtain ⟨hgen, hmode, hnext, _⟩ := Session.begin_cases hb
  unfold report Report.snapshot at *
  simp only [hb]
  rcases hnext with ⟨rfl, htrigger⟩ | ⟨rfl, htrigger⟩
  · rw [Registry.query_found_of_steady hsteady _ _ _ a.world]
    exact .of_finish hgen htrigger hmode rfl
  · exact .of_closed hmenu horigin hmode (Or.inl htrigger)

end Assistant

/-! ## Updates that overlap -/

namespace Exchange

variable {limit : Option Nat} {x : Exchange} {es : List Event} {ask : Snapshot → List Answer}

/-- While only updates start and end, the last one is under way or has left what it leaves. -/
theorem Run.waits_or_settled (h : Run limit es x) (hupdates : ∀ e ∈ es, e.isUpdate = true)
    (hask : ∀ p answers o, .finished p answers o ∈ es → answers = ask p.snapshot) {r : Report}
    {last : UpdateOutcome ⊕ PendingUpdate} (hlast : Event.lastStart? es = some (r, last)) :
    (∃ p ∈ x.underWay, x.session.generation = p.generation) ∨
      x.session.Settled r.snapshot (merge limit (ask r.snapshot)) := by
  induction h with
  | nil => cases hlast
  | @snoc es e x y hrun hstep ih =>
    have hold := ih (fun f hf => hupdates f (by simp [hf]))
      fun p answers o hf => hask p answers o (by simp [hf])
    cases hstep with
    | start hb =>
      rw [Event.lastStart?_snoc] at hlast
      cases hlast
      obtain ⟨hgen, hmode, hnext, hshown⟩ := Session.begin_cases hb
      rcases hnext with ⟨rfl, _⟩ | ⟨rfl, htrigger⟩
      · exact Or.inl ⟨⟨x.session.generation + 1, r.snapshot⟩, by simp, hgen⟩
      · right
        rcases hshown with ⟨_, _, hactive, _⟩ | ⟨hmenu, horigin⟩
        · rw [htrigger] at hactive
          cases hactive
        · exact .of_closed hmenu horigin hmode (Or.inl htrigger)
    | @finish p answers s o hp hf =>
      rw [Event.lastStart?_snoc_of_none rfl] at hlast
      by_cases hgen : x.session.generation = p.generation
      · obtain ⟨r', hlast', hsnapshot, htrigger, hmode⟩ := hrun.latest hp hgen
        rw [hlast'] at hlast
        cases hlast
        rw [← hsnapshot, ← hask p answers o (by simp)]
        exact Or.inr (.of_finish hgen htrigger hmode hf)
      · -- A stale end changes nothing, and the latest update stays under way.
        rw [Session.finish_of_ne _ hgen] at hf
        cases hf
        rcases hold hlast with ⟨q, hq, hqgen⟩ | hsettled
        · exact Or.inl ⟨q, latest_mem_erase hq hqgen hgen, hqgen⟩
        · exact Or.inr hsettled
    | press _ => cases hupdates _ (List.mem_append_right _ (List.mem_singleton_self _))
    | reset => cases hupdates _ (List.mem_append_right _ (List.mem_singleton_self _))

/-- Any number of updates start in some order and end in any order, with no key and no reset between
them. Once all have ended, the menu, the selection, the snapshot that they belong to and the mode
are those that the update started last leaves alone in a new assistant. -/
theorem the_finishing_order_does_not_matter {ε : Type} {a : Assistant ε} {line : Text}
    {cursor : Nat} {mode : Mode} {next : UpdateOutcome ⊕ PendingUpdate} (hnew : a.IsNew)
    (hsteady : ∀ source ∈ a.registry.sources, source.IsSteady) (hrun : Run a.limit es x)
    (hupdates : ∀ e ∈ es, e.isUpdate = true)
    (hanswers : ∀ p answers o, .finished p answers o ∈ es →
      answers = a.registry.replies a.world p.snapshot)
    (hended : x.underWay = [])
    (hlast : Event.lastStart? es = some (a.report line cursor mode, next)) :
    x.session.menu = (a.update line cursor mode).1.session.menu ∧
      x.session.origin = (a.update line cursor mode).1.session.origin ∧
      x.session.lastMode = (a.update line cursor mode).1.session.lastMode := by
  have halone := Assistant.settled_update hnew hsteady line cursor mode
  rcases hrun.waits_or_settled hupdates hanswers hlast with ⟨p, hp, _⟩ | hsettled
  · rw [hended] at hp
    cases hp
  · exact ⟨hsettled.menu.trans halone.menu.symm, hsettled.origin.trans halone.origin.symm,
      hsettled.lastMode.trans halone.lastMode.symm⟩

/-- An assistant whose only source answers with the line itself. -/
def echoing : Assistant Unit where
  registry :=
    ⟨[.immediate [] (fun _ => true) fun s _ =>
      .candidates [⟨s.line, .other, 1, [], none, none, none⟩]]⟩
  directory := []
  world :=
    { disk := ⟨.directory .nil, []⟩, home := [], searchPath := [], now := 0,
      programs := ⟨0, none⟩, more := () }

/-- The update for the longer line ends before the one for the shorter line. The menu is that of
the longer line all the same. -/
theorem the_longer_line_keeps_the_menu :
    let g := echoing.report ['g'] 1 .shell
    let gi := echoing.report ['g', 'i'] 2 .shell
    let p : PendingUpdate := ⟨1, g.snapshot⟩
    let q : PendingUpdate := ⟨2, gi.snapshot⟩
    let answers (s : Snapshot) : List Answer :=
      [.candidates [⟨s.line, .other, 1, [], none, none, none⟩]]
    let es : List Event :=
      [.started g (.inr p), .started gi (.inr q), .finished q (answers gi.snapshot) (.applied 1),
        .finished p (answers g.snapshot) .stale]
    let s : Session := { generation := 2, lastMode := some .shell }
    let x : Exchange := ⟨s.fill gi.snapshot (merge none (answers gi.snapshot)), []⟩
    Run none es x ∧
      x.session.menu = (echoing.update ['g', 'i'] 2 .shell).1.session.menu ∧
      x.session.origin = (echoing.update ['g', 'i'] 2 .shell).1.session.origin ∧
      x.session.lastMode = (echoing.update ['g', 'i'] 2 .shell).1.session.lastMode := by
  intro g gi p q answers es s x
  have h1 : Run none [.started g (.inr p)]
      ⟨{ generation := 1, lastMode := some .shell }, [p]⟩ := (Run.nil {}).snoc (.start rfl)
  have h2 : Run none [.started g (.inr p), .started gi (.inr q)] ⟨s, [p, q]⟩ :=
    h1.snoc (.start rfl)
  have h3 : Run none
      [.started g (.inr p), .started gi (.inr q), .finished q (answers gi.snapshot) (.applied 1)]
      ⟨x.session, [p]⟩ := h2.snoc (.finish (by simp) rfl)
  have hrun : Run none es x := h3.snoc (.finish (by simp) rfl)
  refine ⟨hrun, the_finishing_order_does_not_matter rfl ?_ hrun ?_ ?_ rfl rfl⟩
  · intro source hs
    rw [List.mem_singleton.1 hs]
    intro t v w
    rfl
  · simp [es, Event.isUpdate]
  · intro r found o hmem
    simp only [es, List.mem_cons, reduceCtorEq, false_or, List.not_mem_nil, or_false,
      Event.finished.injEq] at hmem
    rcases hmem with ⟨rfl, rfl, _⟩ | ⟨rfl, rfl, _⟩ <;> rfl

end Exchange

end Typeahead
