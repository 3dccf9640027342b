import Mathlib.Data.List.Forall2
import Typeahead.Source.Inquiry

/-!
Waiting for sources. What is found is the merge of the answers that the relevant sources gave, in the
order of registration: how long the sources take and in which order they answer does not matter. As
long as asking does not lead out of some worlds, the answers are given in these.
-/
namespace Typeahead

variable {σ α β γ : Type}

/-! ## Sweeps -/

theorem sweep_cons_fst (act : α → σ → β × σ × List Text) (a : α) (as : List α) (world : σ) :
    (sweep act (a :: as) world).1 = (act a world).1 :: (sweep act as (act a world).2.1).1 := rfl

/-- What an action makes of each element, and of the world, holds of all and of the last world. -/
theorem forall₂_sweep {R : γ → α → Prop} {S : γ → β → Prop} {W : σ → Prop}
    {act : α → σ → β × σ × List Text}
    (h : ∀ c a w, W w → R c a → S c (act a w).1 ∧ W (act a w).2.1) {cs : List γ} {as : List α}
    (hcs : List.Forall₂ R cs as) {world : σ} (hworld : W world) :
    List.Forall₂ S cs (sweep act as world).1 ∧ W (sweep act as world).2.1 := by
  induction hcs generalizing world with
  | nil => exact ⟨.nil, hworld⟩
  | cons hca _ ih =>
    obtain ⟨hhead, hnext⟩ := h _ _ _ hworld hca
    obtain ⟨htail, hlast⟩ := ih hnext
    exact ⟨.cons hhead htail, hlast⟩

theorem countP_sweep_le {p : α → Bool} {q : β → Bool} {act : α → σ → β × σ × List Text}
    (h : ∀ a w, q (act a w).1 = true → p a = true) (as : List α) (world : σ) :
    (sweep act as world).1.countP q ≤ as.countP p := by
  induction as generalizing world with
  | nil => exact Nat.le_refl 0
  | cons a as ih =>
    rw [sweep_cons_fst, List.countP_cons, List.countP_cons]
    have htail := ih (act a world).2.1
    have hhead := h a world
    split
    · rename_i hq
      rw [if_pos (hhead hq)]
      omega
    · omega

theorem countP_sweep_lt {p : α → Bool} {q : β → Bool} {act : α → σ → β × σ × List Text}
    (h : ∀ a w, q (act a w).1 = true → p a = true) {as : List α} {a : α} (ha : a ∈ as)
    (hp : p a = true) (hq : ∀ w, q (act a w).1 = false) (world : σ) :
    (sweep act as world).1.countP q < as.countP p := by
  induction as generalizing world with
  | nil => cases ha
  | cons b as ih =>
    rw [sweep_cons_fst, List.countP_cons, List.countP_cons]
    rcases List.mem_cons.1 ha with rfl | htail
    · have hle := countP_sweep_le h as (act a world).2.1
      rw [hq world, hp]
      simp only [Bool.false_eq_true, if_false, if_true]
      omega
    · have hlt := ih htail (act b world).2.1
      have hhead := h b world
      split
      · rename_i hb
        rw [if_pos (hhead hb)]
        omega
      · omega

/-! ## What a source answers -/

/-- The source answers the snapshot in this way, in some world. -/
def Source.Gives (source : Source σ) (s : Snapshot) (answer : Answer) : Prop :=
  ∃ world, (source.answer s world).1 = answer

/-- The answers of the sources to the snapshot, one of each in their order. -/
abbrev Answered (s : Snapshot) (sources : List (Source σ)) (answers : List Answer) : Prop :=
  List.Forall₂ (fun source answer => source.Gives s answer) sources answers

/-- A source replies to the snapshot in one way, whatever the world. -/
def Source.Replies (reply : Source σ → Answer) (s : Snapshot) (source : Source σ) : Prop :=
  ∀ world, (source.answer s world).1 = reply source

/-- The source answers the snapshot in this way, in one of the worlds. -/
def Source.GivesIn (W : σ → Prop) (source : Source σ) (s : Snapshot) (answer : Answer) : Prop :=
  ∃ world, W world ∧ (source.answer s world).1 = answer

/-- The answers of the sources to the snapshot, each given in one of the worlds. -/
abbrev AnsweredIn (W : σ → Prop) (s : Snapshot) (sources : List (Source σ)) (answers : List Answer) :
    Prop :=
  List.Forall₂ (fun source answer => source.GivesIn W s answer) sources answers

/-- Asking the source about the snapshot does not lead out of the worlds. -/
structure Source.StaysIn (W : σ → Prop) (s : Snapshot) (source : Source σ) : Prop where
  begin : ∀ world, W world → W (source.begin s world).2
  answer : ∀ world, W world → W (source.answer s world).2

theorem Source.GivesIn.gives {W : σ → Prop} {source : Source σ} {s : Snapshot} {answer : Answer}
    (h : source.GivesIn W s answer) : source.Gives s answer := by
  obtain ⟨world, _, hanswer⟩ := h
  exact ⟨world, hanswer⟩

theorem Source.staysIn_all (s : Snapshot) (source : Source σ) : source.StaysIn (fun _ => True) s :=
  ⟨fun _ _ => trivial, fun _ _ => trivial⟩

/-- A question to a source in some worlds. Its answer, once it is there, is one that the source gives
in one of them. -/
structure Question.Asks (W : σ → Prop) (s : Snapshot) (source : Source σ) (q : Question σ) :
    Prop where
  same : q.source = source
  stays : source.StaysIn W s
  gives : ∀ answer, q.answer = some answer → source.GivesIn W s answer

namespace Question

variable {W : σ → Prop} {s : Snapshot} {source : Source σ} {q : Question σ} {world : σ}

theorem Asks.unanswered (h : source.StaysIn W s) (due : Nat) :
    Question.Asks W s source ⟨source, due, none⟩ :=
  ⟨rfl, h, nofun⟩

theorem Asks.take (h : q.Asks W s source) (hworld : W world) :
    (q.take s world).1.Asks W s source ∧ W (q.take s world).2.1 := by
  obtain ⟨rfl, hstays, _⟩ := h
  refine ⟨⟨rfl, hstays, fun answer hanswer => ⟨world, hworld, ?_⟩⟩, hstays.answer world hworld⟩
  exact Option.some.inj hanswer

theorem Asks.ask (h : source.StaysIn W s) (now : Nat) (hworld : W world) :
    (Question.ask source s now world).1.Asks W s source ∧
      W (Question.ask source s now world).2.1 := by
  have hbegin := h.begin world hworld
  unfold Question.ask
  split
  · rename_i w hw
    rw [hw] at hbegin
    exact (Asks.unanswered h now).take hbegin
  · rename_i delay w hw
    rw [hw] at hbegin
    exact ⟨.unanswered h _, hbegin⟩

theorem Asks.poll (h : q.Asks W s source) (now : Nat) (hworld : W world) :
    (q.poll s now world).1.Asks W s source ∧ W (q.poll s now world).2.1 := by
  unfold Question.poll
  split
  · exact h.take hworld
  · exact ⟨h, hworld⟩

/-- An answer that is taken closes the question. -/
theorem isOpen_take (world : σ) : (q.take s world).1.isOpen = false := rfl

theorem isOpen_poll {now : Nat} {world : σ} (h : (q.poll s now world).1.isOpen = true) :
    q.isOpen = true := by
  unfold Question.poll at h
  split at h
  · rw [isOpen_take] at h
    cases h
  · exact h

theorem isOpen_poll_of_due {now : Nat} (h : q.isOpen = true) (hdue : q.due ≤ now) (world : σ) :
    (q.poll s now world).1.isOpen = false := by
  unfold Question.poll
  rw [if_pos (by simp [h, hdue])]
  rfl

end Question

/-! ## Inquiries -/

namespace Inquiry

variable {W : σ → Prop} {sources : List (Source σ)} {i : Inquiry σ} {world : σ}

/-- An inquiry at the given sources, in some worlds. -/
def Asks (W : σ → Prop) (sources : List (Source σ)) (i : Inquiry σ) : Prop :=
  List.Forall₂ (Question.Asks W i.snapshot) sources i.questions

theorem Asks.start {r : Registry σ} {s : Snapshot} (h : ∀ source ∈ r.relevant s, source.StaysIn W s)
    (now : Nat) (hworld : W world) :
    (Inquiry.start r s now world).1.Asks W (r.relevant s) ∧
      W (Inquiry.start r s now world).2.1 := by
  have hsame : List.Forall₂ (fun c a => c = a ∧ a.StaysIn W s) (r.relevant s) (r.relevant s) :=
    List.forall₂_same.2 fun source hsource => ⟨rfl, h source hsource⟩
  refine forall₂_sweep ?_ hsame hworld
  rintro source _ w hw ⟨rfl, hstays⟩
  exact Question.Asks.ask hstays now hw

theorem Asks.advance (h : i.Asks W sources) (now : Nat) (hworld : W world) :
    (i.advance now world).1.Asks W sources ∧ W (i.advance now world).2.1 :=
  forall₂_sweep (fun _ _ _ hw hq => Question.Asks.poll hq now hw) h hworld

/-- Once no question is open, each source has answered in one of the worlds. -/
theorem Asks.answers (h : i.Asks W sources) (hopen : i.questions.countP Question.isOpen = 0) :
    AnsweredIn W i.snapshot sources i.answers := by
  obtain ⟨s, questions⟩ := i
  unfold Asks at h
  unfold Inquiry.answers
  dsimp only at h hopen ⊢
  induction h with
  | nil => exact .nil
  | @cons source q sources questions hq _ ih =>
    rw [List.countP_cons] at hopen
    have htail := ih (by omega)
    rcases hanswer : q.answer with _ | answer
    · have hqopen : q.isOpen = true := by
        unfold Question.isOpen
        rw [hanswer]
        rfl
      rw [if_pos hqopen] at hopen
      omega
    · rw [List.filterMap_cons_some hanswer]
      exact .cons (hq.gives answer hanswer) htail

/-- A round answers at least the question that is due first. -/
theorem countP_advance_lt {due : Nat} (h : i.nextDue? = some due) (now : Nat) (world : σ) :
    (i.advance (max now due) world).1.questions.countP Question.isOpen <
      i.questions.countP Question.isOpen := by
  have hmem := List.min?_mem h
  simp only [List.mem_map, List.mem_filter] at hmem
  obtain ⟨q, ⟨hq, hopen⟩, rfl⟩ := hmem
  refine countP_sweep_lt ?_ hq hopen ?_ world
  · intro q w hq
    exact Question.isOpen_poll hq
  · intro w
    exact Question.isOpen_poll_of_due hopen (Nat.le_max_right _ _) w

/-- With as many rounds as there are open questions, waiting ends with an answer of each source. The
limit has no part in what they answer. -/
theorem Asks.wait (h : i.Asks W sources) {rounds : Nat}
    (hrounds : i.questions.countP Question.isOpen ≤ rounds) (now : Nat) (hworld : W world) :
    ∃ answers, AnsweredIn W i.snapshot sources answers ∧
      ∀ limit, (i.wait limit rounds now world).found = merge limit answers := by
  induction rounds generalizing i now world with
  | zero => exact ⟨i.answers, h.answers (by omega), fun _ => rfl⟩
  | succ rounds ih =>
    unfold Inquiry.wait
    rcases hdue : i.nextDue? with _ | due
    · have hopen : i.questions.countP Question.isOpen = 0 := by
        unfold Inquiry.nextDue? at hdue
        rw [List.min?_eq_none_iff, List.map_eq_nil_iff] at hdue
        rw [List.countP_eq_length_filter, hdue]
        rfl
      exact ⟨i.answers, h.answers hopen, fun _ => rfl⟩
    · -- The round answers at least one question, so the rounds left are enough for the others.
      have hlt := countP_advance_lt hdue now world
      obtain ⟨hasks, hnext⟩ := h.advance (max now due) hworld
      exact ih hasks (by omega) _ hnext

end Inquiry

/-- A query finds the merge of an answer of each relevant source, whatever the limit. In worlds that
asking does not lead out of, the answers are given there. -/
theorem Registry.exists_answersIn {W : σ → Prop} {r : Registry σ} {s : Snapshot} {world : σ}
    (h : ∀ source ∈ r.relevant s, source.StaysIn W s) (hworld : W world) :
    ∃ answers, AnsweredIn W s (r.relevant s) answers ∧
      ∀ limit, (r.query s limit world).found = merge limit answers := by
  obtain ⟨hasks, hnext⟩ := Inquiry.Asks.start h 0 hworld
  exact hasks.wait List.countP_le_length _ hnext

theorem Registry.exists_answers (r : Registry σ) (s : Snapshot) (world : σ) :
    ∃ answers, Answered s (r.relevant s) answers ∧
      ∀ limit, (r.query s limit world).found = merge limit answers := by
  have hstays : ∀ source ∈ r.relevant s, source.StaysIn (fun _ => True) s :=
    fun source _ => source.staysIn_all s
  obtain ⟨answers, hgives, hfound⟩ := Registry.exists_answersIn hstays (trivial : True)
  exact ⟨answers, hgives.imp fun _ _ => Source.GivesIn.gives, hfound⟩

/-- Sources with one reply each answer with these replies. -/
theorem Source.eq_map_of_replies {s : Snapshot} {reply : Source σ → Answer}
    {sources : List (Source σ)} {answers : List Answer}
    (hgives : Answered s sources answers) (h : ∀ source ∈ sources, source.Replies reply s) :
    answers = sources.map reply := by
  induction hgives with
  | nil => rfl
  | cons hgives _ ih =>
    obtain ⟨world, rfl⟩ := hgives
    rw [List.map_cons, ih fun source hs => h source (List.mem_cons_of_mem _ hs),
      h _ List.mem_cons_self world]

/-- When each relevant source has one reply, what is found is the merge of these replies. -/
theorem Registry.query_found {r : Registry σ} {s : Snapshot} {reply : Source σ → Answer}
    (h : ∀ source ∈ r.relevant s, source.Replies reply s) (limit : Option Nat) (world : σ) :
    (r.query s limit world).found = merge limit ((r.relevant s).map reply) := by
  obtain ⟨answers, hgives, hfound⟩ := r.exists_answers s world
  rw [hfound, Source.eq_map_of_replies hgives h]

end Typeahead
