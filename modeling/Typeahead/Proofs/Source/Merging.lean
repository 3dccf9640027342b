import Typeahead.Proofs.Candidate.Ranking
import Typeahead.Proofs.Source.Waiting

/-!
What a query finds: a ranking of what the relevant sources answered. Sources that fail or break down
have no part in it, nor has the order in which the answers come, and a limit keeps the first ones.
-/
namespace Typeahead

variable {σ : Type}

/-! ## Limits and scores -/

theorem merge_some (k : Nat) (answers : List Answer) :
    merge (some k) answers = (merge none answers).take k := rfl

theorem merge_congr {answers answers' : List Answer}
    (h : answers.flatMap Answer.toList = answers'.flatMap Answer.toList) (limit : Option Nat) :
    merge limit answers = merge limit answers' := by
  unfold merge
  rw [h]

/-- Every candidate of the source for the snapshot has a number for its score. -/
def Source.Scores (source : Source σ) (s : Snapshot) : Prop :=
  ∀ answer, source.Gives s answer → ∀ c ∈ answer.toList, c.isScored = true

theorem isScored_of_gives {s : Snapshot} {sources : List (Source σ)} {answers : List Answer}
    (hgives : Answered s sources answers) (h : ∀ source ∈ sources, source.Scores s) :
    ∀ c ∈ answers.flatMap Answer.toList, c.isScored = true := by
  induction hgives with
  | nil => exact nofun
  | cons hgives _ ih =>
    intro c hc
    rcases List.mem_append.1 (List.flatMap_cons ▸ hc) with hhead | htail
    · exact h _ List.mem_cons_self _ hgives c hhead
    · exact ih (fun source hs => h source (List.mem_cons_of_mem _ hs)) c htail

/-! ## Sources without a part -/

/-- The source never answers the snapshot with candidates. -/
def Source.Fails (source : Source σ) (s : Snapshot) : Prop :=
  ∀ cs, ¬ source.Gives s (.candidates cs)

/-- The second list holds the sources of the first one with the same answers, although each may take
another time. Sources that fail may be missing. -/
inductive Survives (s : Snapshot) : List (Source σ) → List (Source σ) → Prop
  | nil : Survives s [] []
  | kept {a b : Source σ} {as bs : List (Source σ)} (answer : Answer)
      (hrelevant : b.relevant s = a.relevant s)
      (hgives : a.relevant s = true → ∀ world,
        (a.answer s world).1 = answer ∧ (b.answer s world).1 = answer)
      (hrest : Survives s as bs) : Survives s (a :: as) (b :: bs)
  | dropped {a : Source σ} {as bs : List (Source σ)} (hfails : a.Fails s)
      (hrest : Survives s as bs) : Survives s (a :: as) bs

theorem Source.Fails.toList {source : Source σ} {s : Snapshot} (h : source.Fails s)
    {answer : Answer} (hgives : source.Gives s answer) : answer.toList = [] := by
  cases answer with
  | candidates cs => exact absurd hgives (h cs)
  | failed e => rfl
  | panicked => rfl

/-- Whatever is asked, the surviving sources answer with the same candidates in the same order. -/
theorem Survives.flatMap_eq {s : Snapshot} {as bs : List (Source σ)} (h : Survives s as bs)
    {answers answers' : List Answer} (hgives : Answered s (as.filter (·.relevant s)) answers)
    (hgives' : Answered s (bs.filter (·.relevant s)) answers') :
    answers.flatMap Answer.toList = answers'.flatMap Answer.toList := by
  -- By induction on what survives, since each of its cases says who is asked in the one and in the
  -- other list.
  induction h generalizing answers answers' with
  | nil =>
    cases hgives
    cases hgives'
    rfl
  | @kept a b as bs answer hrelevant hsame _ ih =>
    by_cases ha : a.relevant s = true
    · rw [List.filter_cons, if_pos ha] at hgives
      rw [List.filter_cons, if_pos (hrelevant.trans ha)] at hgives'
      obtain ⟨_, _, ⟨v, rfl⟩, hrest, rfl⟩ := List.forall₂_cons_left_iff.1 hgives
      obtain ⟨_, _, ⟨w, rfl⟩, hrest', rfl⟩ := List.forall₂_cons_left_iff.1 hgives'
      rw [List.flatMap_cons, List.flatMap_cons, (hsame ha v).1, (hsame ha w).2, ih hrest hrest']
    · rw [List.filter_cons, if_neg ha] at hgives
      rw [List.filter_cons, hrelevant, if_neg ha] at hgives'
      exact ih hgives hgives'
  | @dropped a as bs hfails _ ih =>
    by_cases ha : a.relevant s = true
    · rw [List.filter_cons, if_pos ha] at hgives
      obtain ⟨answer, _, hanswer, hrest, rfl⟩ := List.forall₂_cons_left_iff.1 hgives
      rw [List.flatMap_cons, hfails.toList hanswer, List.nil_append, ih hrest hgives']
    · rw [List.filter_cons, if_neg ha] at hgives
      exact ih hgives hgives'

/-! ## What a query finds -/

/-- A query without a limit finds a ranking of what the relevant sources answered, one after another
in the order of registration; with a limit it finds the first ones of these. Sources that fail may as
well be missing, and it does not matter how long each source takes. -/
theorem a_query_ranks_what_the_sources_answer {r : Registry σ} {s : Snapshot}
    (hscores : ∀ source ∈ r.relevant s, source.Scores s) (world : σ) :
    (∃ answers, Answered s (r.relevant s) answers ∧
        IsRanking (answers.flatMap Answer.toList) (r.query s none world).found) ∧
      (∀ k, (r.query s (some k) world).found = (r.query s none world).found.take k) ∧
      ∀ r' : Registry σ, Survives s r.sources r'.sources →
        ∀ limit world', (r'.query s limit world').found = (r.query s limit world).found := by
  obtain ⟨answers, hgives, hfound⟩ := r.exists_answers s world
  refine ⟨⟨answers, hgives, ?_⟩, ?_, ?_⟩
  · rw [hfound]
    exact isRanking_ranked (isScored_of_gives hgives hscores)
  · intro k
    rw [hfound, hfound, merge_some]
  · intro r' hsurvives limit world'
    obtain ⟨answers', hgives', hfound'⟩ := r'.exists_answers s world'
    rw [hfound, hfound', merge_congr (hsurvives.flatMap_eq hgives hgives')]

/-- A stall on a market, which sells what it has after some time, if it is open. -/
def stall (name : String) (isOpen : Bool) (delay : Option Nat) (answer : Answer) : Source Unit where
  name := name.toList
  relevant := fun _ => isOpen
  begin := fun _ w => (delay, w)
  answer := fun _ w => (answer, w)

def fruit (name : String) (score : Float) : Candidate where
  value := name.toList
  group := .other
  score := score
  source := []

/-- Figs of one score are on sale at both ends of the market. -/
def market : Registry Unit :=
  ⟨[ stall "east" true (some 5) (.candidates [fruit "fig" 1, fruit "pear" 2]),
     stall "broken" true none .panicked,
     stall "closed" false none (.candidates [fruit "nut" 3]),
     stall "west" true (some 1) (.candidates [fruit "plum" 2, fruit "fig" 1]) ]⟩

/-- The market without its broken stall, where the other end is the slow one. -/
def smallMarket : Registry Unit :=
  ⟨[ stall "east" true none (.candidates [fruit "fig" 1, fruit "pear" 2]),
     stall "closed" false none (.candidates [fruit "nut" 3]),
     stall "west" true (some 9) (.candidates [fruit "plum" 2, fruit "fig" 1]) ]⟩

/-- The market offers both figs behind the better fruit, and so does the small one. -/
theorem the_market_keeps_both_figs :
    let s := Snapshot.ofLine [] 0 .shell
    let found := (market.query s none ()).found
    found.map Candidate.value = ["pear".toList, "plum".toList, "fig".toList, "fig".toList] ∧
      (∃ answers, Answered s (market.relevant s) answers ∧
        IsRanking (answers.flatMap Answer.toList) found) ∧
      (market.query s (some 3) ()).found = found.take 3 ∧
      (smallMarket.query s none ()).found = found := by
  intro s found
  have hall : ∀ source ∈ market.relevant s, ∀ c ∈ (source.answer s ()).1.toList,
      c.isScored = true := by decide
  have hscores : ∀ source ∈ market.relevant s, source.Scores s := by
    rintro source hsource _ ⟨_, rfl⟩ c hc
    exact hall source hsource c hc
  have hsurvives : Survives s market.sources smallMarket.sources := by
    refine .kept _ rfl (fun _ _ => ⟨rfl, rfl⟩) (.dropped ?_ (.kept _ rfl (fun _ _ => ⟨rfl, rfl⟩)
      (.kept _ rfl (fun _ _ => ⟨rfl, rfl⟩) .nil)))
    rintro cs ⟨_, h⟩
    cases h
  obtain ⟨hranking, hlimit, hsmall⟩ := a_query_ranks_what_the_sources_answer hscores ()
  exact ⟨by decide, hranking, hlimit 3, hsmall _ hsurvives none ()⟩

end Typeahead
