import Typeahead.Proofs.Candidate.Ranking
import Typeahead.History.Frecency

/-!
Recent use. It lifts candidates and promotes one of them to the top group, if the recent entries use
any at all; in a ranking the promoted one comes first.
-/
namespace Typeahead

variable {entries : List Entry} {now : Instant} {c : Candidate} {cs ds : List Candidate} {P Q : Prop}

/-! ## What stays -/

theorem map_modify_of_forall {α β : Type} {f : α → β} {g : α → α} (h : ∀ a, f (g a) = f a)
    (l : List α) (i : Nat) : (l.modify i g).map f = l.map f := by
  induction l generalizing i with
  | nil => simp
  | cons a l ih => cases i <;> simp [h, ih]

theorem map_zip_of_forall {α β γ : Type} {f : α → β} {g : α × γ → α} (h : ∀ p, f (g p) = f p.1)
    {l : List α} {bs : List γ} (hlength : l.length = bs.length) :
    ((l.zip bs).map g).map f = l.map f := by
  have hfirst : f ∘ g = f ∘ Prod.fst := funext h
  rw [List.map_map, hfirst, ← List.map_map, List.map_fst_zip (Nat.le_of_eq hlength)]

/-- The candidates with their bonuses, before one is promoted. -/
def lifted (entries : List Entry) (now : Instant) (cs : List Candidate) : List Candidate :=
  (cs.zip (cs.map (recencyBonus entries now))).map fun (c, bonus) =>
    match bonus with
    | some b => { c with score := c.score + b }
    | none => c

theorem boost_eq (entries : List Entry) (now : Instant) (cs : List Candidate) :
    boost entries now cs =
      match greatestFrom none 0 (cs.map (recencyBonus entries now)) with
      | some i => (lifted entries now cs).modify i fun c => { c with group := .topSuggestion }
      | none => lifted entries now cs := rfl

theorem length_lifted (entries : List Entry) (now : Instant) (cs : List Candidate) :
    (lifted entries now cs).length = cs.length := by
  unfold lifted
  rw [List.length_map, List.length_zip, List.length_map, Nat.min_self]

/-- What is lifted keeps all but its score. -/
theorem map_lifted {β : Type} {f : Candidate → β} (hscore : ∀ c score, f { c with score } = f c)
    (entries : List Entry) (now : Instant) (cs : List Candidate) :
    (lifted entries now cs).map f = cs.map f := by
  refine map_zip_of_forall ?_ (cs.length_map (recencyBonus entries now)).symm
  rintro ⟨c, _ | b⟩
  · rfl
  · exact hscore c _

/-- Recent use changes nothing but scores and groups. -/
theorem map_boost {β : Type} {f : Candidate → β}
    (hscore : ∀ c score, f { c with score } = f c) (hgroup : ∀ c group, f { c with group } = f c)
    (entries : List Entry) (now : Instant) (cs : List Candidate) :
    (boost entries now cs).map f = cs.map f := by
  rw [boost_eq]
  split
  · rw [map_modify_of_forall fun c => hgroup c _, map_lifted hscore]
  · exact map_lifted hscore entries now cs

/-! ## Uses -/

namespace Candidate

/-- The candidate is in one of the three groups of programs. -/
def IsProgram (c : Candidate) : Prop :=
  c.group = .builtin ∨ c.group = .recommendedCommand ∨ c.group = .otherCommand

instance (c : Candidate) : Decidable c.IsProgram :=
  inferInstanceAs (Decidable (_ ∨ _ ∨ _))

/-- The entry uses the candidate: a program is its first word, anything else is any of its words. -/
def IsUsedBy (e : Entry) (c : Candidate) : Prop :=
  if c.IsProgram then (Text.words e.command).head? = some c.value
  else c.value ∈ Text.words e.command

/-- Some entry uses the candidate. -/
def IsUsed (entries : List Entry) (c : Candidate) : Prop := ∃ e ∈ entries, c.IsUsedBy e

theorem isCommand_group_iff : c.group.isCommand = true ↔ c.IsProgram := by
  simp [Group.isCommand, IsProgram]

/-- The words of an entry that the group of the candidate looks at. -/
theorem uses_eq (c : Candidate) (e : Entry) :
    c.group.uses e =
      if c.IsProgram then (Text.words e.command).head?.toList else Text.words e.command := by
  unfold Group.uses
  simp only [isCommand_group_iff]
  rfl

theorem mem_uses_iff {e : Entry} : c.value ∈ c.group.uses e ↔ c.IsUsedBy e := by
  rw [uses_eq]
  unfold IsUsedBy
  split
  · exact Option.mem_toList
  · rfl

end Candidate

theorem Usage.isSome_record {u? : Option Usage} {count : Nat} {time : Instant} :
    (record u? count time).isSome = true ↔ u?.isSome = true ∨ 0 < count := by
  unfold record
  split
  · rename_i hzero
    simp [hzero]
  · rename_i hne
    have hpos := Nat.pos_of_ne_zero hne
    cases u? <;> simp [hpos]

theorem Usage.isSome_among {uses : Entry → List Text} {value : Text} :
    (among uses entries value).isSome = true ↔ ∃ e ∈ entries, value ∈ uses e := by
  -- By induction on the entries, for any use found before them.
  have hall : ∀ u? : Option Usage,
      (entries.foldl (fun u? e => record u? ((uses e).count value) e.time) u?).isSome = true ↔
        u?.isSome = true ∨ ∃ e ∈ entries, value ∈ uses e := by
    induction entries with
    | nil => simp
    | cons e es ih =>
      intro u?
      rw [List.foldl_cons, ih, isSome_record, List.count_pos_iff, or_assoc]
      simp only [List.mem_cons, exists_eq_or_imp]
  unfold among
  simp [hall none]

theorem isSome_among_iff :
    (Usage.among c.group.uses entries c.value).isSome = true ↔ c.IsUsed entries := by
  rw [Usage.isSome_among]
  simp only [Candidate.mem_uses_iff]
  rfl

theorem isSome_recencyBonus : (recencyBonus entries now c).isSome = true ↔ c.IsUsed entries := by
  unfold recencyBonus
  rw [Option.isSome_map, isSome_among_iff]

/-! ## The greatest bonus -/

theorem isSome_greatestFrom {best : Option (Nat × Float)} {index : Nat}
    {bonuses : List (Option Float)} :
    (greatestFrom best index bonuses).isSome = true ↔
      best.isSome = true ∨ ∃ bonus ∈ bonuses, bonus.isSome = true := by
  induction bonuses generalizing best index with
  | nil => simp [greatestFrom]
  | cons bonus rest ih =>
    rcases bonus with _ | bonus
    · simp [greatestFrom, ih]
    · unfold greatestFrom
      rw [ih]
      rcases best with _ | ⟨i, top⟩
      · simp
      · dsimp only
        split <;> simp

/-- The greatest bonus is among those looked at. -/
theorem lt_of_greatestFrom {best : Option (Nat × Float)} {index i : Nat}
    {bonuses : List (Option Float)} (hbest : ∀ p, best = some p → p.1 < index)
    (h : greatestFrom best index bonuses = some i) : i < index + bonuses.length := by
  induction bonuses generalizing best index with
  | nil =>
    obtain ⟨p, rfl, rfl⟩ := Option.map_eq_some_iff.1 h
    exact hbest p rfl
  | cons bonus rest ih =>
    rw [List.length_cons, Nat.add_comm rest.length, ← Nat.add_assoc]
    rcases bonus with _ | bonus
    · exact ih (fun p hp => Nat.lt_succ_of_lt (hbest p hp)) h
    · unfold greatestFrom at h
      refine ih ?_ h
      intro p hp
      -- The best one now is the one just looked at, or the one from before.
      rcases best with _ | ⟨j, top⟩
      · cases hp
        exact Nat.lt_succ_self index
      · have hj := hbest _ rfl
        dsimp only at hp
        split at hp
        · cases hp
          exact Nat.lt_succ_self index
        · cases hp
          exact Nat.lt_succ_of_lt hj

/-- A bonus is the greatest one if and only if some candidate is used. -/
theorem isSome_greatestFrom_map (now : Instant) :
    (greatestFrom none 0 (cs.map (recencyBonus entries now))).isSome = true ↔
      ∃ c ∈ cs, c.IsUsed entries := by
  rw [isSome_greatestFrom]
  simp [isSome_recencyBonus]

/-- Without entries nothing is lifted. -/
theorem boost_nil (now : Instant) (cs : List Candidate) : boost [] now cs = cs := by
  have hlifted : lifted [] now cs = cs := by
    induction cs with
    | nil => rfl
    | cons c cs ih => exact congrArg (c :: ·) ih
  rw [boost_eq]
  split
  · rename_i i hi
    obtain ⟨_, _, _, he, _⟩ := (isSome_greatestFrom_map now).1 (Option.isSome_of_eq_some hi)
    cases he
  · exact hlifted

/-! ## The promoted candidate -/

/-- Whether the candidate is in the top group. -/
def Candidate.isTop (c : Candidate) : Bool := c.group = .topSuggestion

/-- At most one of the candidates is in the top group, and one is under the condition only. -/
structure Promotes (cs : List Candidate) (P : Prop) : Prop where
  le_one : cs.countP Candidate.isTop ≤ 1
  pos_iff : 0 < cs.countP Candidate.isTop ↔ P

theorem countP_modify {α : Type} {p : α → Bool} {f : α → α} (hf : ∀ a, p (f a) = true)
    {l : List α} (hl : l.countP p = 0) {i : Nat} (hi : i < l.length) :
    (l.modify i f).countP p = 1 := by
  induction l generalizing i with
  | nil => cases hi
  | cons a l ih =>
    rw [List.countP_eq_zero, List.forall_mem_cons, ← List.countP_eq_zero] at hl
    obtain ⟨ha, hl⟩ := hl
    cases i with
    | zero => simp [hf, hl]
    | succ i =>
      rw [List.modify_succ_cons, List.countP_cons, if_neg ha]
      exact ih hl (Nat.lt_of_succ_lt_succ hi)

theorem countP_lifted (entries : List Entry) (now : Instant) (cs : List Candidate) :
    (lifted entries now cs).countP Candidate.isTop = cs.countP Candidate.isTop := by
  have hmap := map_lifted (f := Candidate.isTop) (fun _ _ => rfl) entries now cs
  have hcount := congrArg (List.countP id) hmap
  rwa [List.countP_map, List.countP_map] at hcount

/-- Recent use promotes a candidate if it finds one that is used, and never a second one. -/
theorem promotes_boost (h : cs.countP Candidate.isTop = 0) :
    Promotes (boost entries now cs) (∃ c ∈ cs, c.IsUsed entries) := by
  have hlifted := (countP_lifted entries now cs).trans h
  rw [boost_eq, ← isSome_greatestFrom_map now]
  split
  · rename_i i hi
    have hlt := lt_of_greatestFrom (fun p hp => by cases hp) hi
    rw [List.length_map, Nat.zero_add, ← length_lifted entries now cs] at hlt
    have hone : ((lifted entries now cs).modify i
        fun c => { c with group := .topSuggestion }).countP Candidate.isTop = 1 :=
      countP_modify (fun _ => rfl) hlifted hlt
    constructor <;> simp [hone, hi]
  · rename_i hnone
    constructor <;> simp [hlifted, hnone]

/-- Without a top suggestion the condition must fail. -/
theorem promotes_of_none (h : cs.countP Candidate.isTop = 0) (hP : ¬ P) : Promotes cs P :=
  ⟨by omega, by simp [h, hP]⟩

theorem Promotes.of_countP (h : Promotes cs P)
    (hcount : ds.countP Candidate.isTop = cs.countP Candidate.isTop) : Promotes ds P :=
  ⟨hcount.trans_le h.le_one, hcount ▸ h.pos_iff⟩

theorem Promotes.congr (h : Promotes cs P) (hPQ : P ↔ Q) : Promotes cs Q :=
  ⟨h.le_one, h.pos_iff.trans hPQ⟩

/-! ## The first of a ranking -/

theorem Candidate.isTop_iff : c.isTop = true ↔ c.group.rank = 0 := by
  unfold isTop
  rw [decide_eq_true_iff]
  constructor
  · intro h
    rw [h]
    rfl
  · intro h
    exact Group.rank_injective h

/-- Where the groups rank, only the first candidate may be in the top group. -/
theorem Promotes.of_cons (h : Promotes (c :: cs) P)
    (hranked : (c :: cs).Pairwise fun a b => a.group.rank ≤ b.group.rank) :
    (∀ d ∈ cs, d.isTop = false) ∧ (c.isTop = true ↔ P) := by
  obtain ⟨hone, hpos⟩ := h
  rw [List.countP_cons] at hone hpos
  by_cases hc : c.isTop = true
  · rw [if_pos hc] at hone hpos
    have hnone : cs.countP Candidate.isTop = 0 := by omega
    refine ⟨fun d hd => Bool.eq_false_iff.2 (List.countP_eq_zero.1 hnone d hd), ?_⟩
    simp only [hc, true_iff]
    exact hpos.1 (Nat.succ_pos _)
  · have hnone : ∀ d ∈ cs, d.isTop = false := by
      intro d hd
      rw [Bool.eq_false_iff]
      intro htop
      have hle := (List.pairwise_cons.1 hranked).1 d hd
      rw [Candidate.isTop_iff.1 htop] at hle
      exact hc (Candidate.isTop_iff.2 (Nat.le_zero.1 hle))
    have hcount : cs.countP Candidate.isTop = 0 :=
      List.countP_eq_zero.2 fun d hd => Bool.eq_false_iff.1 (hnone d hd)
    refine ⟨hnone, ?_⟩
    rw [if_neg hc, hcount] at hpos
    exact iff_of_false hc fun hP => absurd (hpos.2 hP) (Nat.lt_irrefl 0)

end Typeahead
