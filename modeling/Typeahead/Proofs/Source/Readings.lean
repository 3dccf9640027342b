import Typeahead.Proofs.History.Retention
import Typeahead.Proofs.Source.Offers

/-!
What reading leaves behind. A session that looks at its history drops what is beyond the limits, and
one that looks for programs keeps what it found; whatever it reads next is the same all the same.
-/
namespace Typeahead

/-! ## Reading twice -/

namespace History

theorem retained_retained (limits : Limits) (now : Instant) (es : List Entry) :
    retained limits now (retained limits now es) = retained limits now es := by
  have hyoung : ∀ e ∈ (es.filter (isYoung limits now)).rtake limits.maxSize,
      isYoung limits now e = true := by
    intro e he
    exact List.of_mem_filter ((List.drop_sublist _ _).mem he)
  rw [retained_eq limits now es, retained_eq, List.filter_eq_self.2 hyoung]
  unfold List.rtake
  rw [List.drop_drop, List.length_drop]
  congr 1
  omega

theorem prune_prune (h : History) (now : Instant) : (h.prune now).prune now = h.prune now := by
  unfold prune
  rw [retained_retained]

end History

/-- What was fetched is fetched again. -/
theorem ProgramCache.fetch_fetch (cache : ProgramCache) (d : Disk) (searchPath : Text)
    (now : Instant) :
    ((cache.fetch d searchPath now).2.fetch d searchPath now).1 =
      (cache.fetch d searchPath now).1 := by
  rcases hget : cache.get? searchPath now with _ | programs
  · rw [cache.fetch_of_none hget]
    -- The scan just made may hold, or it is made again on the same disk.
    unfold fetch
    split
    · rename_i programs hscan
      unfold get? at hscan
      dsimp only at hscan
      split at hscan
      · exact (Option.some.inj hscan).symm
      · cases hscan
    · rfl
  · rw [cache.fetch_of_get? hget, cache.fetch_of_get? hget]

/-! ## Worlds after readings -/

namespace World

variable {ε : Type} {w v : World ε} {s : Snapshot}

/-- Looks for programs, and keeps what was found. -/
def scanPrograms (w : World ε) : World ε :=
  { w with programs := (w.programs.fetch w.disk w.searchPath w.now).2 }

/-- The second world is the first one after its history or its programs were read, any number of
times. -/
inductive Reads (w : World ε) : World ε → Prop
  | same : Reads w w
  | history {v : World ε} (h : Reads w v) : Reads w v.pruneHistory
  | programs {v : World ε} (h : Reads w v) : Reads w v.scanPrograms

/-- The entries of the history that count now, the latest first. -/
def latest (w : World ε) (n : Nat) : List Entry := w.pruneHistory.history.latest n

/-- The programs on the search path. -/
def foundPrograms (w : World ε) : List Text := (w.programs.fetch w.disk w.searchPath w.now).1

theorem Reads.disk (h : w.Reads v) : v.disk = w.disk := by
  induction h with
  | same => rfl
  | history _ ih => exact ih
  | programs _ ih => exact ih

theorem Reads.history_eq (h : w.Reads v) : v.pruneHistory.history = w.pruneHistory.history := by
  induction h with
  | same => rfl
  | history _ ih => exact (History.prune_prune _ _).trans ih
  | programs _ ih => exact ih

theorem Reads.latest (h : w.Reads v) (n : Nat) : v.latest n = w.latest n := by
  unfold World.latest
  rw [h.history_eq]

theorem Reads.foundPrograms (h : w.Reads v) : v.foundPrograms = w.foundPrograms := by
  induction h with
  | same => rfl
  | history _ ih => exact ih
  | programs _ ih => exact (ProgramCache.fetch_fetch _ _ _ _).trans ih

/-- The worlds that readings lead to from the given ones. -/
def ReadFrom (W : World ε → Prop) (v : World ε) : Prop := ∃ w, W w ∧ w.Reads v

variable {W : World ε → Prop}

theorem ReadFrom.same (h : W w) : ReadFrom W w := ⟨w, h, .same⟩

theorem ReadFrom.history (h : ReadFrom W v) : ReadFrom W v.pruneHistory := by
  obtain ⟨w, hw, hreads⟩ := h
  exact ⟨w, hw, hreads.history⟩

theorem ReadFrom.programs (h : ReadFrom W v) : ReadFrom W v.scanPrograms := by
  obtain ⟨w, hw, hreads⟩ := h
  exact ⟨w, hw, hreads.programs⟩

end World

/-! ## Sources that only read -/

namespace Source

variable {ε : Type} {W : World ε → Prop} {s : Snapshot}

theorem staysIn_immediate (name : Text) (relevant : Snapshot → Bool)
    (answer : Snapshot → World ε → Answer) : (immediate name relevant answer).StaysIn W s :=
  ⟨fun _ h => h, fun _ h => h⟩

theorem staysIn_deferred (name : Text) (relevant : Snapshot → Bool)
    (answer : Snapshot → World ε → Answer) : (deferred name relevant answer).StaysIn W s :=
  ⟨fun _ h => h, fun _ h => h⟩

theorem staysIn_commands (hscan : ∀ w, W w → W w.scanPrograms) :
    (commands : Source (World ε)).StaysIn W s := by
  constructor
  · intro w hw
    unfold commands
    dsimp only
    split
    · exact hw
    · exact hw
  · intro w hw
    unfold commands
    dsimp only
    split
    · exact hw
    · exact hscan w hw

theorem StaysIn.boosted {inner : Source (World ε)} (h : inner.StaysIn W s)
    (hprune : ∀ w, W w → W w.pruneHistory) (window : Nat) :
    (boosted window inner).StaysIn W s := by
  refine ⟨h.begin, fun w hw => ?_⟩
  have hnext := h.answer w hw
  unfold Source.boosted
  dsimp only
  rcases hanswer : inner.answer s w with ⟨cs | e | _, v⟩
  · rw [hanswer] at hnext
    dsimp only
    split
    · exact hprune v hnext
    · exact hprune v hnext
  · rw [hanswer] at hnext
    exact hnext
  · rw [hanswer] at hnext
    exact hnext

end Source

/-- The standard sources do nothing but read. -/
theorem staysIn_standard {ε : Type} (W : World ε → Prop) (s : Snapshot) :
    ∀ source ∈ (Registry.ofList Source.standard).relevant s,
      source.StaysIn (World.ReadFrom W) s := by
  have hprune : ∀ w, World.ReadFrom W w → World.ReadFrom W w.pruneHistory := fun _ => .history
  refine Source.forall_standard ?_ ?_ ?_ ?_ ?_
  · intro _ _
    exact (Source.staysIn_commands fun _ => .programs).boosted hprune _
  · intro _
    exact Source.staysIn_immediate _ _ _
  · intro _ _ _
    exact (Source.staysIn_deferred _ _ _).boosted hprune _
  · intro _
    exact Source.staysIn_deferred _ _ _
  · intro _
    exact Source.staysIn_immediate _ _ _

end Typeahead
