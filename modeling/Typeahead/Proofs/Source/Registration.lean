import Mathlib.Data.List.Induction
import Mathlib.Data.List.Nodup
import Typeahead.Source.Basic

/-!
Sources that come and go. However often names are registered and unregistered, each of them is held at
most once, and the names stand in the order in which they were last registered with success.
-/
namespace Typeahead.Registry

variable {σ : Type} {r : Registry σ} {s : Source σ} {name : Text}

/-! ## One call -/

theorem register_of_not_mem (h : s.name ∉ r.names) :
    r.register s = (⟨r.sources ++ [s]⟩, true) := by
  rw [← has_iff_mem_names, Bool.not_eq_true] at h
  simp [register, h]

theorem register_of_mem (h : s.name ∈ r.names) : r.register s = (r, false) := by
  rw [← has_iff_mem_names] at h
  simp [register, h]

theorem registers_iff : (r.register s).2 = true ↔ s.name ∉ r.names := by
  by_cases h : s.name ∈ r.names
  · simp [register_of_mem h, h]
  · simp [register_of_not_mem h, h]

theorem mem_names : name ∈ r.names ↔ ∃ s ∈ r.sources, s.name = name := List.mem_map

theorem filter_eq_self_of_not_mem {sources : List (Source σ)}
    (h : name ∉ sources.map Source.name) : sources.filter (·.name ≠ name) = sources := by
  rw [List.filter_eq_self]
  intro s hs
  have hname : s.name ≠ name := fun heq => h (List.mem_map.2 ⟨s, hs, heq⟩)
  simpa using hname

theorem unregister_of_not_mem (h : name ∉ r.names) : r.unregister name = (r, false) := by
  have hkept := filter_eq_self_of_not_mem h
  rw [← has_iff_mem_names, Bool.not_eq_true] at h
  rw [unregister, hkept, h]

/-- Where no name is held twice, unregistering takes out one source and leaves the others as they
are. -/
theorem sources_unregister (h : r.names.Nodup) {before behind : List (Source σ)}
    (hsources : r.sources = before ++ s :: behind) :
    (r.unregister s.name).1.sources = before ++ behind := by
  rw [names, hsources, List.map_append, List.map_cons, List.nodup_middle, List.nodup_cons,
    List.mem_append, not_or] at h
  obtain ⟨⟨hbefore, hbehind⟩, _⟩ := h
  unfold unregister
  rw [hsources, List.filter_append, List.filter_cons_of_neg (by simp),
    filter_eq_self_of_not_mem hbefore, filter_eq_self_of_not_mem hbehind]

/-! ## Many calls -/

/-- What is asked of a registry. -/
inductive Call (σ : Type) where
  | register (s : Source σ)
  | unregister (name : Text)

/-- The registry after a call, and what the call tells. -/
def call (r : Registry σ) : Call σ → Registry σ × Bool
  | .register s => r.register s
  | .unregister name => r.unregister name

/-- A new registry after some calls. -/
def after (calls : List (Call σ)) : Registry σ := calls.foldl (fun r c => (r.call c).1) {}

theorem after_snoc (calls : List (Call σ)) (c : Call σ) :
    after (calls ++ [c]) = ((after calls).call c).1 := by
  simp [after]

variable {calls : List (Call σ)} {c : Call σ} {i : Nat}

/-- The call of the index registered the source. -/
def Registers (calls : List (Call σ)) (i : Nat) (s : Source σ) : Prop :=
  calls[i]? = some (.register s) ∧ ((after (calls.take i)).register s).2 = true

/-- The call of the index registered the source, and no later one registered its name. -/
structure RegistersLast (calls : List (Call σ)) (i : Nat) (s : Source σ) : Prop where
  registers : Registers calls i s
  last : ∀ j t, Registers calls j t → t.name = s.name → j ≤ i

theorem Registers.lt_length (h : Registers calls i s) : i < calls.length :=
  (List.getElem?_eq_some_iff.1 h.1).1

theorem registers_snoc_iff : Registers (calls ++ [c]) i s ↔
    Registers calls i s ∨ i = calls.length ∧ c = .register s ∧ s.name ∉ (after calls).names := by
  unfold Registers
  rcases Nat.lt_trichotomy i calls.length with hlt | rfl | hgt
  · have hne : i ≠ calls.length := by omega
    simp [List.getElem?_append_left hlt, List.take_append_of_le_length (Nat.le_of_lt hlt), hne]
  · simp [registers_iff]
  · have hnone : calls[i]? = none := by simp; omega
    have hnone' : (calls ++ [c])[i]? = none := by simp; omega
    have hne : i ≠ calls.length := by omega
    simp [hnone, hnone', hne]

/-- While its name is held, a registration stays the last one of it. -/
theorem RegistersLast.snoc (h : RegistersLast calls i s) (hheld : s.name ∈ (after calls).names) :
    RegistersLast (calls ++ [c]) i s := by
  refine ⟨registers_snoc_iff.2 (Or.inl h.registers), ?_⟩
  intro j t ht hname
  rcases registers_snoc_iff.1 ht with ht | ⟨_, _, hnew⟩
  · exact h.last j t ht hname
  · exact absurd (hname ▸ hheld) hnew

theorem registersLast_snoc (h : s.name ∉ (after calls).names) :
    RegistersLast (calls ++ [.register s]) calls.length s := by
  refine ⟨registers_snoc_iff.2 (Or.inr ⟨rfl, rfl, h⟩), ?_⟩
  intro j t ht _
  have hlt := ht.lt_length
  simp at hlt
  omega

/-! ## What every run keeps -/

/-- Each source was registered by the last registration of its name, and they stand in the order of
these registrations. -/
structure InOrder (calls : List (Call σ)) (sources : List (Source σ)) : Prop where
  registered : ∀ s ∈ sources, ∃ i, RegistersLast calls i s
  pairwise : sources.Pairwise fun s t =>
    ∃ i j, RegistersLast calls i s ∧ RegistersLast calls j t ∧ i < j

theorem InOrder.sublist {sources sources' : List (Source σ)} (h : InOrder calls sources)
    (hsub : sources'.Sublist sources) : InOrder calls sources' :=
  ⟨fun s hs => h.registered s (hsub.subset hs), h.pairwise.sublist hsub⟩

/-- The sources that are held stay in order, whatever is called. -/
theorem InOrder.snoc (h : InOrder calls (after calls).sources) (c : Call σ) :
    InOrder (calls ++ [c]) (after calls).sources := by
  have hheld : ∀ s ∈ (after calls).sources, s.name ∈ (after calls).names :=
    fun s hs => mem_names.2 ⟨s, hs, rfl⟩
  constructor
  · intro s hs
    obtain ⟨i, hi⟩ := h.registered s hs
    exact ⟨i, hi.snoc (hheld s hs)⟩
  · apply h.pairwise.imp_of_mem
    rintro s t hs ht ⟨i, j, hi, hj, hlt⟩
    exact ⟨i, j, hi.snoc (hheld s hs), hj.snoc (hheld t ht), hlt⟩

/-- A source that is new is registered behind all others. -/
theorem InOrder.register (h : InOrder calls (after calls).sources)
    (hnew : s.name ∉ (after calls).names) :
    InOrder (calls ++ [.register s]) ((after calls).sources ++ [s]) := by
  have hlast := registersLast_snoc hnew
  have hstays := h.snoc (.register s)
  constructor
  · intro t ht
    rcases List.mem_append.1 ht with ht | ht
    · exact hstays.registered t ht
    · rw [List.mem_singleton.1 ht]
      exact ⟨_, hlast⟩
  · rw [List.pairwise_append]
    refine ⟨hstays.pairwise, List.pairwise_singleton _ _, ?_⟩
    intro t ht u hu
    rw [List.mem_singleton.1 hu]
    obtain ⟨i, hi⟩ := h.registered t ht
    exact ⟨i, _, hi.snoc (mem_names.2 ⟨t, ht, rfl⟩), hlast, hi.registers.lt_length⟩

theorem InOrder.call (h : InOrder calls (after calls).sources) (c : Call σ) :
    InOrder (calls ++ [c]) ((after calls).call c).1.sources := by
  cases c with
  | register s =>
    dsimp only [Registry.call]
    by_cases hname : s.name ∈ (after calls).names
    · rw [register_of_mem hname]
      exact h.snoc _
    · rw [register_of_not_mem hname]
      exact h.register hname
  | unregister name => exact (h.snoc _).sublist List.filter_sublist

theorem inOrder_after (calls : List (Call σ)) : InOrder calls (after calls).sources := by
  induction calls using List.reverseRecOn with
  | nil => exact ⟨nofun, .nil⟩
  | append_singleton calls c ih =>
    rw [after_snoc]
    exact ih.call c

/-- No call makes a registry hold a name twice. -/
theorem nodup_names_call (h : r.names.Nodup) (c : Call σ) : (r.call c).1.names.Nodup := by
  cases c with
  | register s =>
    by_cases hname : s.name ∈ r.names
    · simpa [call, register_of_mem hname] using h
    · simpa [call, register_of_not_mem hname, names] using h.concat hname
  | unregister name =>
    simp only [call, names_unregister]
    exact h.filter _

theorem nodup_names_after (calls : List (Call σ)) : (after calls).names.Nodup := by
  induction calls using List.reverseRecOn with
  | nil => exact List.nodup_nil
  | append_singleton calls c ih =>
    rw [after_snoc]
    exact nodup_names_call ih c

/-- Whatever was called before, a registry holds each name once, in the order of the last registrations.
A source is registered exactly if its name is not held, behind all others, and otherwise nothing changes.
Unregistering a name tells whether it is held, and takes out the one source of that name. -/
theorem each_name_is_held_once (calls : List (Call σ)) :
    let r := after calls
    r.names.Nodup ∧ InOrder calls r.sources ∧
      (∀ s, ((r.register s).2 = true ↔ s.name ∉ r.names) ∧
        ((r.register s).2 = true → (r.register s).1.sources = r.sources ++ [s]) ∧
        ((r.register s).2 = false → (r.register s).1 = r)) ∧
      ∀ name, ((r.unregister name).2 = true ↔ name ∈ r.names) ∧
        ((r.unregister name).2 = true → ∃ before s behind, s.name = name ∧
          r.sources = before ++ s :: behind ∧
          (r.unregister name).1.sources = before ++ behind) ∧
        ((r.unregister name).2 = false → (r.unregister name).1 = r) := by
  intro r
  refine ⟨nodup_names_after calls, inOrder_after calls, fun s => ?_, fun name => ?_⟩
  · by_cases hname : s.name ∈ r.names
    · simp [register_of_mem hname, hname]
    · simp [register_of_not_mem hname, hname]
  · have htells : (r.unregister name).2 = true ↔ name ∈ r.names := has_iff_mem_names r name
    refine ⟨htells, fun h => ?_, fun h => ?_⟩
    · obtain ⟨s, hs, rfl⟩ := mem_names.1 (htells.1 h)
      obtain ⟨before, behind, hsources⟩ := List.append_of_mem hs
      exact ⟨before, s, behind, rfl, hsources, sources_unregister (nodup_names_after calls) hsources⟩
    · rw [unregister_of_not_mem fun hname => ?_]
      rw [htells.2 hname] at h
      cases h

end Typeahead.Registry
