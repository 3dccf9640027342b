import Typeahead.Proofs.Session.Exchange

/-!
Which update may fill the menu. Only the newest one may: one that a later start, an accepted or
dismissed candidate or a reset overtook ends stale and changes nothing.
-/
namespace Typeahead

/-- Of two cuts of one list, the element of the second comes after the element of the first, if the
first element is neither the second nor after it. -/
theorem cut_after {α : Type} {l₁ l₂ m₁ m₂ : List α} {a b : α} (h : l₁ ++ a :: l₂ = m₁ ++ b :: m₂)
    (hab : a ≠ b) (ha : a ∉ m₂) : ∃ mid, l₂ = mid ++ b :: m₂ := by
  rcases List.append_eq_append_iff.1 h with ⟨as, _, htail⟩ | ⟨bs, _, htail⟩
  · cases as with
    | nil => exact absurd (List.cons.inj htail).1 hab
    | cons c as => exact ⟨as, (List.cons.inj htail).2⟩
  · cases bs with
    | nil => exact absurd (List.cons.inj htail).1.symm hab
    | cons c bs =>
      have hmem : a ∈ m₂ := by
        rw [(List.cons.inj htail).2]
        simp
      exact absurd hmem ha

namespace Exchange

variable {limit : Option Nat} {x y : Exchange} {e f : Event} {before after es : List Event}

/-! ## Filling and closing the menu -/

/-- Candidates appear only at the end of the latest update. -/
theorem Step.fills (h : Step limit x e y) (hne : y.session.menu.candidates ≠ [])
    (hnew : y.session.menu.candidates ≠ x.session.menu.candidates) :
    ∃ p answers n, e = .finished p answers (.applied n) ∧ p ∈ x.underWay ∧
      x.session.generation = p.generation := by
  cases h with
  | start hb =>
    rcases (Session.begin_cases hb).2.2.2 with ⟨hmenu, _⟩ | ⟨hmenu, _⟩
    · exact absurd (by rw [hmenu]) hnew
    · exact absurd (by rw [hmenu]; rfl) hne
  | finish hp hf =>
    rcases Session.finish_cases hf with ⟨_, _, rfl⟩ | ⟨_, _, _, rfl⟩ | ⟨hgen, _, rfl, rfl⟩
    · exact absurd rfl hnew
    · exact absurd rfl hne
    · exact ⟨_, _, _, rfl, hp, hgen⟩
  | press hk =>
    rcases Session.press_cases hk with ⟨_, _, _, rfl⟩ | ⟨_, rfl⟩ | ⟨_, rfl | rfl⟩ | ⟨_, rfl⟩
    · exact absurd rfl hne
    · exact absurd rfl hne
    · exact absurd (Menu.candidates_next _) hnew
    · exact absurd (Menu.candidates_previous _) hnew
    · exact absurd rfl hnew
  | reset => exact absurd rfl hne

/-- Accepting, dismissing and resetting leave no candidate. -/
theorem Step.closes (h : Step limit x e y) (he : e.closes = true) :
    y.session.menu.candidates = [] := by
  cases h with
  | start _ => cases he
  | finish _ _ => cases he
  | press hk =>
    rcases Session.press_cases hk with ⟨_, _, _, rfl⟩ | ⟨_, rfl⟩ | ⟨rfl, _⟩ | ⟨rfl, _⟩
    · rfl
    · rfl
    · cases he
    · cases he
  | reset => rfl

/-- A step that fills the menu ends an update that nothing has overtaken. -/
theorem Run.fills (h : Run limit es x) (hstep : Step limit x e y)
    (hne : y.session.menu.candidates ≠ [])
    (hnew : y.session.menu.candidates ≠ x.session.menu.candidates) :
    ∃ before report p between answers n,
      es = before ++ .started report (.inr p) :: between ∧ e = .finished p answers (.applied n) ∧
        ∀ g ∈ between, g.overtakes = false := by
  obtain ⟨p, answers, n, he, hp, hgen⟩ := hstep.fills hne hnew
  obtain ⟨before, report, between, rfl⟩ := h.started hp
  exact ⟨before, report, p, between, answers, n, rfl, he, h.latest_iff.1 hgen⟩

/-- An update is stale exactly if something has overtaken it, and then it changes nothing. -/
theorem Run.stale_iff {report : Report} {p : PendingUpdate} {answers : List Answer}
    {o : UpdateOutcome} (h : Run limit (before ++ .started report (.inr p) :: after) x)
    (hstep : Step limit x (.finished p answers o) y) :
    (o = .stale ↔ ∃ g ∈ after, g.overtakes = true) ∧ (o = .stale → y.session = x.session) := by
  have hlatest := h.latest_iff
  cases hstep with
  | finish hp hf =>
    rcases Session.finish_cases hf with ⟨hgen, rfl, rfl⟩ | ⟨hgen, _, rfl, _⟩ | ⟨hgen, _, rfl, _⟩
    · refine ⟨⟨fun _ => ?_, fun _ => rfl⟩, fun _ => rfl⟩
      by_contra hnone
      refine hgen (hlatest.2 fun g hg => ?_)
      by_contra hover
      exact hnone ⟨g, hg, by simpa using hover⟩
    all_goals
      refine ⟨⟨nofun, ?_⟩, nofun⟩
      rintro ⟨g, hg, hover⟩
      rw [hlatest.1 hgen g hg] at hover
      cases hover

/-- Once closed, the menu stays closed until an update that was started later has filled it. -/
theorem Run.closed_until (h : Run limit (before ++ f :: after) x) (hf : f.closes = true)
    (hne : x.session.menu.candidates ≠ []) :
    ∃ a report p b answers n c, after =
      a ++ .started report (.inr p) :: b ++ .finished p answers (.applied n) :: c := by
  induction after using List.reverseRecOn generalizing x with
  | nil =>
    obtain ⟨z, _, hstep⟩ := h.last
    exact absurd (hstep.closes hf) hne
  | append_singleton after e ih =>
    rw [← List.cons_append, ← List.append_assoc] at h
    obtain ⟨z, hz, hstep⟩ := h.last
    by_cases hsame : x.session.menu.candidates = z.session.menu.candidates
    · obtain ⟨a, report, p, b, answers, n, c, rfl⟩ := ih hz (hsame ▸ hne)
      exact ⟨a, report, p, b, answers, n, c ++ [e], by simp⟩
    · obtain ⟨before', report, p, between, answers, n, hcut, rfl, hnone⟩ :=
        hz.fills hstep hne hsame
      -- What closed the menu also overtook, so it is not among the events since the start.
      have hover : f.overtakes = true := by
        cases f <;> first | rfl | exact hf
      have hafter : f ∉ between := by
        intro hmem
        rw [hnone f hmem] at hover
        cases hover
      obtain ⟨a, rfl⟩ := cut_after hcut (by rintro rfl; cases hf) hafter
      exact ⟨a, report, p, between, answers, n, [], rfl⟩

/-! ## The law -/

/-- Only the newest update may publish. Candidates appear only when an update ends that nothing has
overtaken since its start. An overtaken update ends stale and leaves the session as it is. After an
accept, a dismissal or a reset the menu is closed until an update that was started later has
ended. -/
theorem only_the_newest_update_publishes (hrun : Run limit es x) (hstep : Step limit x e y) :
    (y.session.menu.candidates ≠ [] →
      y.session.menu.candidates ≠ x.session.menu.candidates →
      ∃ before report p between answers n,
        es = before ++ .started report (.inr p) :: between ∧ e = .finished p answers (.applied n) ∧
          ∀ g ∈ between, g.overtakes = false) ∧
    (∀ before report p between answers o,
      es = before ++ .started report (.inr p) :: between → e = .finished p answers o →
      (o = .stale ↔ ∃ g ∈ between, g.overtakes = true) ∧ (o = .stale → y.session = x.session)) ∧
    (∀ before f after, es ++ [e] = before ++ f :: after → f.closes = true →
      y.session.menu.candidates ≠ [] →
      ∃ a report p b answers n c, after =
        a ++ .started report (.inr p) :: b ++ .finished p answers (.applied n) :: c) := by
  refine ⟨hrun.fills hstep, ?_, ?_⟩
  · rintro before report p between answers o rfl rfl
    exact hrun.stale_iff hstep
  · intro before f after hcut hf hne
    have hnext : Run limit (before ++ f :: after) y := hcut ▸ hrun.snoc hstep
    exact hnext.closed_until hf hne

/-- A reset comes between the starts of two updates, which are both under way after it: the older
one ends stale, and the newer one fills the menu. -/
theorem the_update_after_a_reset_publishes :
    let g := Report.atEnd ['g']
    let old : PendingUpdate := ⟨1, g.snapshot⟩
    let new : PendingUpdate := ⟨3, g.snapshot⟩
    let git : List Answer := [.candidates [⟨"git".toList, .other, 1, [], none, none, none⟩]]
    let es : List Event := [.started g (.inr old), .reset, .started g (.inr new)]
    let x : Exchange := ⟨{ generation := 3, lastMode := some .shell }, [old, new]⟩
    let stale : Exchange := ⟨x.session, [new]⟩
    let filled : Exchange := ⟨x.session.fill g.snapshot (merge none git), [old]⟩
    Run none es x ∧
      (Step none x (.finished old git .stale) stale ∧ stale.session = x.session) ∧
      Step none x (.finished new git (.applied 1)) filled ∧
      filled.session.menu.candidates ≠ [] ∧
      ∃ before report p between answers n, es = before ++ .started report (.inr p) :: between ∧
        Event.finished new git (.applied 1) = .finished p answers (.applied n) ∧
          ∀ g ∈ between, g.overtakes = false := by
  intro g old new git es x stale filled
  have h1 : Run none [.started g (.inr old)]
      ⟨{ generation := 1, lastMode := some .shell }, [old]⟩ := (Run.nil {}).snoc (.start rfl)
  have h2 : Run none [.started g (.inr old), .reset] ⟨{ generation := 2 }, [old]⟩ := h1.snoc .reset
  have hrun : Run none es x := h2.snoc (.start rfl)
  have hstale : Step none x (.finished old git .stale) stale := .finish (by simp [x]) rfl
  have hfilled : Step none x (.finished new git (.applied 1)) filled := .finish (by simp [x]) rfl
  have hsome : filled.session.menu.candidates ≠ [] := by
    intro hnil
    cases hnil
  refine ⟨hrun, ⟨hstale, ?_⟩, hfilled, hsome, ?_⟩
  · have hold := (only_the_newest_update_publishes hrun hstale).2.1
    exact (hold [] g old [.reset, _] git _ rfl rfl).2 rfl
  · exact (only_the_newest_update_publishes hrun hfilled).1 hsome hsome

end Exchange

end Typeahead
