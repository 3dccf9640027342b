import Typeahead.Proofs.Session.Interleaving
import Typeahead.Proofs.Source.Waiting

/-!
Where the candidates in the menu come from. However an update is carried out, and whatever happens to
the assistant meanwhile, the menu that it fills holds what the relevant sources answered to the
snapshot that the menu belongs to.
-/
namespace Typeahead

/-! ## Merged answers -/

theorem exists_answer_of_mem_merge {limit : Option Nat} {answers : List Answer} {c : Candidate}
    (h : c ∈ merge limit answers) : ∃ answer ∈ answers, c ∈ answer.toList := by
  have hall : c ∈ merge none answers := by
    cases limit with
    | none => exact h
    | some n => exact List.mem_of_mem_take h
  exact List.mem_flatMap.1 ((merge_none_perm answers).mem_iff.1 hall)

section Sources

variable {σ : Type} {W : σ → Prop} {sources : List (Source σ)} {s : Snapshot}
  {answers : List Answer}

theorem exists_source_of_mem (h : AnsweredIn W s sources answers) {answer : Answer}
    (hmem : answer ∈ answers) : ∃ source ∈ sources, source.GivesIn W s answer := by
  induction h with
  | nil => cases hmem
  | cons hgives _ ih =>
    rcases List.mem_cons.1 hmem with rfl | hrest
    · exact ⟨_, List.mem_cons_self, hgives⟩
    · obtain ⟨source, hsource, hgives⟩ := ih hrest
      exact ⟨source, List.mem_cons_of_mem _ hsource, hgives⟩

/-- What an inquiry found is merged from an answer of each of its sources. -/
theorem Inquiry.Asks.exists_answers {i : Inquiry σ} (h : i.Asks W sources) {limit : Option Nat}
    {found : List Candidate} (hfound : i.result? limit = some found) :
    ∃ answers, AnsweredIn W i.snapshot sources answers ∧ found = merge limit answers := by
  have hsettled : i.questions.countP Question.isOpen = 0 := by
    unfold Inquiry.result? Inquiry.isSettled at hfound
    split at hfound
    · rename_i hall
      rw [List.countP_eq_zero]
      intro q hq
      have hclosed := List.all_eq_true.1 hall q hq
      rw [Bool.not_eq_true'] at hclosed
      rw [hclosed]
      decide
    · cases hfound
  exact ⟨i.answers, h.answers hsettled, Inquiry.eq_merge_of_result? hfound⟩

end Sources

/-! ## Updates -/

variable {ε : Type} {W : World ε → Prop} {r : Registry (World ε)} {s : Snapshot} {a b : Assistant ε}
  {u : Update ε} {next : UpdateOutcome ⊕ Update ε} {n : Nat} {c : Candidate}

/-- An update that asks the sources of a registry about a snapshot with a trigger, in some worlds. -/
structure Update.Asks (W : World ε → Prop) (r : Registry (World ε)) (s : Snapshot) (u : Update ε) :
    Prop where
  pending : u.pending.snapshot = s
  inquiry : u.inquiry.snapshot = s
  asks : u.inquiry.Asks W (r.relevant s)
  triggered : s.trigger.isActive = true

/-- The menu belongs to the snapshot, and holds what the relevant sources answered to it in the
worlds. -/
structure Session.Filled (W : World ε → Prop) (r : Registry (World ε)) (s : Snapshot)
    (session : Session) : Prop where
  origin : session.origin = some s
  triggered : s.trigger.isActive = true
  answered : ∃ answers limit,
    AnsweredIn W s (r.relevant s) answers ∧ session.menu.candidates = merge limit answers
  nonempty : session.menu.candidates ≠ []
  selected : session.menu.selected = 0

/-- What a step of an update comes to: it goes on with its sources, or may fill the menu. -/
def Assistant.Yields (W : World ε → Prop) (r : Registry (World ε)) (s : Snapshot) (a : Assistant ε) :
    UpdateOutcome ⊕ Update ε → Prop
  | .inr u => u.Asks W r s
  | .inl (.applied _) => a.session.Filled W r s
  | .inl _ => True

/-- An update of an assistant with the sources of a registry for a snapshot, up to some step of it:
waited for at once, or started and taken on later, in whatever state the assistant is then. -/
inductive Assistant.Updates (r : Registry (World ε)) (s : Snapshot) :
    Assistant ε → UpdateOutcome ⊕ Update ε → Prop
  | alone {a : Assistant ε} {line : Text} {cursor : Nat} {mode : Mode} (hr : a.registry = r)
      (hs : (a.snapshot line cursor mode).1 = s) :
      Updates r s (a.update line cursor mode).1 (.inl (a.update line cursor mode).2.1)
  | start {a : Assistant ε} {line : Text} {cursor : Nat} {mode : Mode} {now : Nat}
      (hr : a.registry = r) (hs : (a.snapshot line cursor mode).1 = s) :
      Updates r s (a.startUpdate line cursor mode now).1 (a.startUpdate line cursor mode now).2.1
  | goOn {a b : Assistant ε} {u : Update ε} {now : Nat} (h : Updates r s b (.inr u)) :
      Updates r s (a.continueUpdate u now).1 (a.continueUpdate u now).2.1

/-- The same for an update whose steps are all made in the given worlds. -/
inductive Assistant.UpdatesIn (W : World ε → Prop) (r : Registry (World ε)) (s : Snapshot) :
    Assistant ε → UpdateOutcome ⊕ Update ε → Prop
  | alone {a : Assistant ε} {line : Text} {cursor : Nat} {mode : Mode} (hr : a.registry = r)
      (hs : (a.snapshot line cursor mode).1 = s) (hworld : W a.world) :
      UpdatesIn W r s (a.update line cursor mode).1 (.inl (a.update line cursor mode).2.1)
  | start {a : Assistant ε} {line : Text} {cursor : Nat} {mode : Mode} {now : Nat}
      (hr : a.registry = r) (hs : (a.snapshot line cursor mode).1 = s) (hworld : W a.world) :
      UpdatesIn W r s (a.startUpdate line cursor mode now).1
        (a.startUpdate line cursor mode now).2.1
  | goOn {a b : Assistant ε} {u : Update ε} {now : Nat} (h : UpdatesIn W r s b (.inr u))
      (hworld : W a.world) :
      UpdatesIn W r s (a.continueUpdate u now).1 (a.continueUpdate u now).2.1

/-- Neither a reading of the history nor a source that is asked about the snapshot leads out of the
worlds. -/
structure Registry.StaysIn (W : World ε → Prop) (r : Registry (World ε)) (s : Snapshot) : Prop where
  pruned : ∀ w, W w → W w.pruneHistory
  sources : ∀ source ∈ r.relevant s, source.StaysIn W s

theorem Registry.staysIn_all (r : Registry (World ε)) (s : Snapshot) : r.StaysIn (fun _ => True) s :=
  ⟨fun _ _ => trivial, fun source _ => source.staysIn_all s⟩

namespace Assistant

/-- Making a snapshot reads the history, and leaves the sources as they are. -/
theorem of_snapshot {line : Text} {cursor : Nat} {mode : Mode}
    (h : a.snapshot line cursor mode = (s, b)) :
    b.registry = a.registry ∧ b.world = a.world.pruneHistory := by
  cases h
  exact ⟨rfl, rfl⟩

/-- The end of an update that found the merge of the answers. -/
theorem Yields.of_finish {session : Session} {p : PendingUpdate} {limit : Option Nat}
    {answers : List Answer} (hp : p.snapshot = s) (htrigger : s.trigger.isActive = true)
    (hanswers : AnsweredIn W s (r.relevant s) answers)
    (ha : a.session = (session.finish p (merge limit answers)).1) :
    a.Yields W r s (.inl (session.finish p (merge limit answers)).2) := by
  -- An end that is stale, and one that closes the menu, fill nothing.
  rcases Session.finish_cases (Prod.eta (session.finish p (merge limit answers))).symm with
    ⟨_, ho, _⟩ | ⟨_, _, ho, _⟩ | ⟨_, hfound, ho, ht⟩
  · rw [ho]
    trivial
  · rw [ho]
    trivial
  · rw [ho]
    rw [ht] at ha
    refine ⟨?_, htrigger, ⟨answers, limit, hanswers, ?_⟩, ?_, ?_⟩
    · rw [ha, ← hp]
      rfl
    · rw [ha]
      rfl
    · rw [ha]
      exact hfound
    · rw [ha]
      rfl

theorem Yields.settle (h : u.Asks W r s) : (a.settle u).1.Yields W r s (a.settle u).2 := by
  unfold Assistant.settle
  split
  · rename_i found hfound
    obtain ⟨answers, hanswers, rfl⟩ := h.asks.exists_answers hfound
    rw [h.inquiry] at hanswers
    exact .of_finish h.pending h.triggered hanswers rfl
  · exact h

theorem Yields.update (hstays : r.StaysIn W s) (line : Text) (cursor : Nat) (mode : Mode)
    (hr : a.registry = r) (hs : (a.snapshot line cursor mode).1 = s) (hworld : W a.world) :
    (a.update line cursor mode).1.Yields W r s (.inl (a.update line cursor mode).2.1) := by
  subst hr hs
  unfold Assistant.update
  -- Only a snapshot with a trigger is asked about.
  rcases hsnapshot : a.snapshot line cursor mode with ⟨s, b⟩
  obtain ⟨hregistry, hnext⟩ := of_snapshot hsnapshot
  rw [hsnapshot, ← hregistry] at hstays
  rw [← hregistry]
  have hstart : W b.world := hnext ▸ hstays.pruned _ hworld
  dsimp only at hstays ⊢
  rcases hbegin : b.session.begin s with ⟨session, next⟩
  obtain ⟨_, _, ⟨rfl, htrigger⟩ | ⟨rfl, _⟩, _⟩ := Session.begin_cases hbegin
  · obtain ⟨answers, hanswers, hfound⟩ := Registry.exists_answersIn hstays.sources hstart
    dsimp only
    rw [hfound]
    exact .of_finish rfl htrigger hanswers rfl
  · trivial

theorem Yields.startUpdate (hstays : r.StaysIn W s) (line : Text) (cursor : Nat) (mode : Mode)
    (now : Nat) (hr : a.registry = r) (hs : (a.snapshot line cursor mode).1 = s)
    (hworld : W a.world) :
    (a.startUpdate line cursor mode now).1.Yields W r s
      (a.startUpdate line cursor mode now).2.1 := by
  subst hr hs
  unfold Assistant.startUpdate
  rcases hsnapshot : a.snapshot line cursor mode with ⟨s, b⟩
  obtain ⟨hregistry, hnext⟩ := of_snapshot hsnapshot
  rw [hsnapshot, ← hregistry] at hstays
  rw [← hregistry]
  have hstart : W b.world := hnext ▸ hstays.pruned _ hworld
  dsimp only at hstays ⊢
  rcases hbegin : b.session.begin s with ⟨session, next⟩
  obtain ⟨_, _, ⟨rfl, htrigger⟩ | ⟨rfl, _⟩, _⟩ := Session.begin_cases hbegin
  · exact .settle ⟨rfl, rfl, (Inquiry.Asks.start hstays.sources now hstart).1, htrigger⟩
  · trivial

theorem Yields.continueUpdate (h : u.Asks W r s) (now : Nat) (hworld : W a.world) :
    (a.continueUpdate u now).1.Yields W r s (a.continueUpdate u now).2.1 :=
  .settle ⟨h.pending, h.inquiry, (h.asks.advance now hworld).1, h.triggered⟩

/-- Whatever a step of the update comes to, the sources were asked in the worlds. -/
theorem UpdatesIn.yields (h : UpdatesIn W r s a next) (hstays : r.StaysIn W s) :
    a.Yields W r s next := by
  induction h with
  | alone hr hs hworld => exact .update hstays _ _ _ hr hs hworld
  | start hr hs hworld => exact .startUpdate hstays _ _ _ _ hr hs hworld
  | goOn _ hworld ih => exact .continueUpdate ih _ hworld

theorem UpdatesIn.mono {V : World ε → Prop} (h : UpdatesIn V r s a next) (hVW : ∀ w, V w → W w) :
    UpdatesIn W r s a next := by
  induction h with
  | alone hr hs hworld => exact .alone hr hs (hVW _ hworld)
  | start hr hs hworld => exact .start hr hs (hVW _ hworld)
  | goOn _ hworld ih => exact .goOn ih (hVW _ hworld)

theorem Updates.anywhere (h : Updates r s a next) : UpdatesIn (fun _ => True) r s a next := by
  induction h with
  | alone hr hs => exact .alone hr hs trivial
  | start hr hs => exact .start hr hs trivial
  | goOn _ ih => exact .goOn ih trivial

theorem Updates.yields (h : Updates r s a next) : a.Yields (fun _ => True) r s next :=
  h.anywhere.yields (r.staysIn_all s)

/-- Every candidate in the menu is in an answer that a relevant source gave to the snapshot. -/
theorem Updates.exists_source (h : Updates r s a (.inl (.applied n)))
    (hc : c ∈ a.session.menu.candidates) :
    ∃ source ∈ r.relevant s, ∃ answer, source.Gives s answer ∧ c ∈ answer.toList := by
  obtain ⟨answers, limit, hanswers, hmenu⟩ := h.yields.answered
  rw [hmenu] at hc
  obtain ⟨answer, hanswer, hc⟩ := exists_answer_of_mem_merge hc
  obtain ⟨source, hsource, hgives⟩ := exists_source_of_mem hanswers hanswer
  exact ⟨source, hsource, answer, hgives.gives, hc⟩

end Assistant

end Typeahead
