import Typeahead.Proofs.Session.Exchange
import Typeahead.Session.Assistant

/-!
Keys pressed over an open menu, with no update and no reset between them. The selection goes round
the menu until the first key that closes it. After that no key does anything.
-/
namespace Typeahead

/-! ## Strokes -/

/-- A key with the modifiers held down. -/
abbrev Stroke := Key × Modifiers

namespace Stroke

def isNext : Stroke → Bool
  | (.tab, held) => !held.shift
  | (.down, _) => true
  | _ => false

def isPrevious : Stroke → Bool
  | (.tab, held) => held.shift
  | (.backTab, _) | (.up, _) => true
  | _ => false

/-- The stroke closes an open menu. -/
def isClosing : Stroke → Bool
  | (.enter, _) | (.escape, _) => true
  | _ => false

/-- What a stroke that leaves it open does to an open menu. -/
def outcome (k : Stroke) : KeyOutcome :=
  if k.isNext || k.isPrevious then .navigated else .notHandled

theorem outcome_cases (k : Stroke) : k.outcome = .navigated ∨ k.outcome = .notHandled := by
  unfold outcome
  split
  · exact Or.inl rfl
  · exact Or.inr rfl

/-- How far down the strokes move the selection. -/
def shift (ks : List Stroke) : Int := ks.countP isNext - ks.countP isPrevious

/-- The candidate that the strokes lead to, from the first one of a menu of the given size. -/
def landing (size : Nat) (ks : List Stroke) : Nat := (shift ks % size).toNat

theorem shift_cons (k : Stroke) (ks : List Stroke) : shift (k :: ks) = shift [k] + shift ks := by
  simp only [shift, List.countP_cons, List.countP_nil]
  omega

/-- The three ways in which a stroke leaves an open menu open. -/
theorem cases_of_not_closing {k : Stroke} (hk : k.isClosing = false) :
    k.isNext = true ∧ shift [k] = 1 ∨ k.isNext = false ∧ k.isPrevious = true ∧ shift [k] = -1 ∨
      k.isNext = false ∧ k.isPrevious = false ∧ shift [k] = 0 := by
  obtain ⟨key, held⟩ := k
  cases key with
  | tab => cases hshift : held.shift <;> simp [isNext, isPrevious, shift, hshift]
  | backTab | up | down | char _ | other => simp [isNext, isPrevious, shift]
  | enter | escape => cases hk

end Stroke

/-! ## Round the menu -/

namespace Menu

variable {m : Menu} {k : Stroke}

/-- The menu with the candidate of the given index selected. -/
def select (m : Menu) (i : Nat) : Menu := { m with selected := i }

theorem isActive_of_selected_lt (h : m.selected < m.size) : m.isActive = true := by
  unfold isActive
  rw [Bool.not_eq_true', List.isEmpty_eq_false_iff]
  exact List.ne_nil_of_length_pos (Nat.zero_lt_of_lt h)

/-- Behind the last candidate comes the first one. -/
theorem next_eq (h : m.selected < m.size) :
    ∃ i < m.size, (i : Int) = (m.selected + 1) % m.size ∧ m.next = m.select i := by
  unfold next
  rw [if_pos (isActive_of_selected_lt h)]
  exact ⟨_, Nat.mod_lt _ (Nat.zero_lt_of_lt h), Int.natCast_emod _ _, rfl⟩

/-- Before the first candidate comes the last one. -/
theorem previous_eq (h : m.selected < m.size) :
    ∃ i < m.size, (i : Int) = (m.selected + -1) % m.size ∧ m.previous = m.select i := by
  unfold previous
  rw [if_pos (isActive_of_selected_lt h)]
  refine ⟨_, ?_, ?_, rfl⟩
  · split <;> omega
  · split
    · rename_i hfirst
      -- One before the first candidate is the size less one, once round the menu.
      have hround := Int.add_emod_right (0 + -1) m.size
      rw [Int.emod_eq_of_lt (by omega) (by omega)] at hround
      rw [hfirst, Int.natCast_zero, ← hround]
      omega
    · rw [Int.emod_eq_of_lt (by omega) (by omega)]
      omega

theorem press_eq (h : m.selected < m.size) (hk : k.isClosing = false) :
    m.press k.1 k.2 =
      (if k.isNext then m.next else if k.isPrevious then m.previous else m, k.outcome) := by
  have hsel : m.selected? = some m.candidates[m.selected] := List.getElem?_eq_getElem h
  unfold press
  rw [hsel]
  obtain ⟨key, held⟩ := k
  cases key with
  | tab =>
    cases hshift : held.shift <;>
      simp [Stroke.isNext, Stroke.isPrevious, Stroke.outcome, hshift]
  | backTab | up | down | char _ | other => rfl
  | enter | escape => cases hk

/-- A stroke that does not close it moves the selection round the menu. -/
theorem press_browsing (h : m.selected < m.size) (hk : k.isClosing = false) :
    ∃ i < m.size, (i : Int) = (m.selected + Stroke.shift [k]) % m.size ∧
      m.press k.1 k.2 = (m.select i, k.outcome) := by
  rw [press_eq h hk]
  obtain ⟨hnext, hshift⟩ | ⟨hnext, hprevious, hshift⟩ | ⟨hnext, hprevious, hshift⟩ :=
    Stroke.cases_of_not_closing hk
  · obtain ⟨i, hi, hvalue, hmenu⟩ := next_eq h
    rw [hshift, hnext, if_pos rfl, hmenu]
    exact ⟨i, hi, hvalue, rfl⟩
  · obtain ⟨i, hi, hvalue, hmenu⟩ := previous_eq h
    rw [hshift, hnext, hprevious, if_neg Bool.false_ne_true, if_pos rfl, hmenu]
    exact ⟨i, hi, hvalue, rfl⟩
  · rw [hshift, hnext, hprevious, if_neg Bool.false_ne_true, if_neg Bool.false_ne_true]
    refine ⟨m.selected, h, ?_, rfl⟩
    rw [Int.emod_eq_of_lt (by omega) (by omega), Int.add_zero]

end Menu

/-! ## One stroke -/

namespace Session

variable {s : Session} {k : Stroke} {c : Candidate}

/-- The session with the candidate of the given index selected. -/
def select (s : Session) (i : Nat) : Session := { s with menu := s.menu.select i }

theorem press_browsing (h : s.menu.selected < s.menu.size) (hk : k.isClosing = false) :
    ∃ i < s.menu.size, (i : Int) = (s.menu.selected + Stroke.shift [k]) % s.menu.size ∧
      s.press k.1 k.2 = (s.select i, k.outcome) := by
  obtain ⟨i, hi, hvalue, hmenu⟩ := Menu.press_browsing h hk
  refine ⟨i, hi, hvalue, ?_⟩
  unfold press
  rw [hmenu]
  rcases k.outcome_cases with ho | ho <;> rw [ho] <;> rfl

theorem press_enter (hc : s.menu.selected? = some c) (held : Modifiers) :
    s.press .enter held = (s.shut, .accepted c.value (s.origin.bind Snapshot.replaced?)) := by
  unfold press Menu.press
  rw [hc]
  rfl

theorem press_escape (hc : s.menu.selected? = some c) (held : Modifiers) :
    s.press .escape held = (s.shut, .dismissed) := by
  unfold press Menu.press
  rw [hc]
  rfl

/-- Over a closed menu nothing happens. -/
theorem press_closed (h : s.menu = .empty) : s.press k.1 k.2 = (s, .notHandled) := by
  obtain ⟨generation, menu, painter, lastMode, origin⟩ := s
  obtain rfl := h
  rfl

end Session

/-! ## Stroke after stroke -/

/-- A candidate was accepted. -/
def KeyOutcome.isAccepted : KeyOutcome → Bool
  | .accepted _ _ => true
  | _ => false

namespace Assistant

variable {ε : Type} {a b : Assistant ε} {k : Stroke}
  {ks before after : List Stroke} {os : List KeyOutcome} {i : Nat} {c : Candidate}

/-- Applies strokes one after another; gives the outcome of each. -/
def pressAll (a : Assistant ε) : List Stroke → Assistant ε × List KeyOutcome
  | [] => (a, [])
  | k :: ks =>
    let (a, outcome) := a.press k.1 k.2
    let (a, outcomes) := a.pressAll ks
    (a, outcome :: outcomes)

/-- The assistant with the candidate of the given index selected. -/
def select (a : Assistant ε) (i : Nat) : Assistant ε := { a with session := a.session.select i }

/-- The assistant after a key has closed the menu. -/
def shut (a : Assistant ε) : Assistant ε := { a with session := a.session.shut }

/-- What a list of strokes comes to over an open menu with the first candidate selected. -/
inductive Replays (a : Assistant ε) : List Stroke → Assistant ε → List KeyOutcome → Prop
  /-- The menu stays open, and the selection goes round it. -/
  | browsing {ks : List Stroke} : (∀ k ∈ ks, k.isClosing = false) →
      Replays a ks (a.select (Stroke.landing a.session.menu.size ks)) (ks.map Stroke.outcome)
  /-- The first key that closes the menu accepts the candidate selected then. -/
  | accepting {before after : List Stroke} {held : Modifiers} {c : Candidate} :
      (∀ k ∈ before, k.isClosing = false) →
      a.session.menu.candidates[Stroke.landing a.session.menu.size before]? = some c →
      Replays a (before ++ (.enter, held) :: after) a.shut
        (before.map Stroke.outcome ++
          .accepted c.value (a.session.origin.bind Snapshot.replaced?) ::
          List.replicate after.length .notHandled)
  /-- The first key that closes the menu dismisses it. -/
  | dismissing {before after : List Stroke} {held : Modifiers} :
      (∀ k ∈ before, k.isClosing = false) →
      Replays a (before ++ (.escape, held) :: after) a.shut
        (before.map Stroke.outcome ++ .dismissed :: List.replicate after.length .notHandled)

@[simp] theorem select_session (a : Assistant ε) (i : Nat) :
    (a.select i).session = a.session.select i := rfl

theorem pressAll_append (a : Assistant ε) (before after : List Stroke) :
    a.pressAll (before ++ after) =
      (((a.pressAll before).1.pressAll after).1,
        (a.pressAll before).2 ++ ((a.pressAll before).1.pressAll after).2) := by
  induction before generalizing a with
  | nil => rfl
  | cons k before ih =>
    simp only [List.cons_append, pressAll, ih]

/-- Over a closed menu nothing happens. -/
theorem pressAll_closed (h : a.session.menu = .empty) (ks : List Stroke) :
    a.pressAll ks = (a, List.replicate ks.length .notHandled) := by
  induction ks with
  | nil => rfl
  | cons k ks ih =>
    unfold pressAll press
    rw [Session.press_closed h]
    dsimp only
    rw [ih]
    rfl

theorem press_enter (hc : a.session.menu.candidates[i]? = some c) (held : Modifiers) :
    (a.select i).press .enter held =
      (a.shut, .accepted c.value (a.session.origin.bind Snapshot.replaced?)) := by
  have hsel : (a.session.select i).menu.selected? = some c := hc
  unfold press
  rw [select_session, Session.press_enter hsel]
  rfl

theorem press_escape (hc : a.session.menu.candidates[i]? = some c) (held : Modifiers) :
    (a.select i).press .escape held = (a.shut, .dismissed) := by
  have hsel : (a.session.select i).menu.selected? = some c := hc
  unfold press
  rw [select_session, Session.press_escape hsel]
  rfl

/-- A stroke that does not close the menu moves the selection on. -/
theorem press_browsing (h : a.session.menu.selected < a.session.menu.size)
    (hk : k.isClosing = false) :
    ∃ i < a.session.menu.size,
      (i : Int) = (a.session.menu.selected + Stroke.shift [k]) % a.session.menu.size ∧
      a.press k.1 k.2 = (a.select i, k.outcome) := by
  obtain ⟨i, hi, hvalue, hpress⟩ := Session.press_browsing h hk
  refine ⟨i, hi, hvalue, ?_⟩
  unfold press
  rw [hpress]
  rfl

/-- Strokes that do not close the menu move the selection on from whichever candidate it is on. -/
theorem pressAll_browsing (h : a.session.menu.selected < a.session.menu.size)
    (hks : ∀ k ∈ ks, k.isClosing = false) :
    ∃ i < a.session.menu.size,
      (i : Int) = (a.session.menu.selected + Stroke.shift ks) % a.session.menu.size ∧
      a.pressAll ks = (a.select i, ks.map Stroke.outcome) := by
  induction ks generalizing a with
  | nil =>
    refine ⟨a.session.menu.selected, h, ?_, rfl⟩
    have hshift : Stroke.shift [] = 0 := rfl
    rw [hshift, Int.add_zero, Int.emod_eq_of_lt (by omega) (by omega)]
  | cons k ks ih =>
    obtain ⟨i, hi, hvalue, hpress⟩ := press_browsing h (hks k List.mem_cons_self)
    obtain ⟨j, hj, hlanding, hrest⟩ :=
      ih (a := a.select i) hi fun k hk => hks k (List.mem_cons_of_mem _ hk)
    refine ⟨j, hj, ?_, ?_⟩
    · have hstart : ((a.select i).session.menu.selected : Int) = i := rfl
      have hsize : (a.select i).session.menu.size = a.session.menu.size := rfl
      rw [hlanding, hstart, hsize, hvalue, Int.emod_add_emod, Int.add_assoc, ← Stroke.shift_cons]
    · unfold pressAll
      rw [hpress]
      dsimp only
      rw [hrest]
      rfl

/-! ## The whole list -/

/-- From the first candidate the selection comes to the landing of the strokes. -/
theorem pressAll_landing (hopen : 0 < a.session.menu.size) (hfirst : a.session.menu.selected = 0)
    (hks : ∀ k ∈ ks, k.isClosing = false) :
    Stroke.landing a.session.menu.size ks < a.session.menu.size ∧
      a.pressAll ks =
        (a.select (Stroke.landing a.session.menu.size ks), ks.map Stroke.outcome) := by
  have hsel : a.session.menu.selected < a.session.menu.size := by
    rw [hfirst]
    exact hopen
  obtain ⟨i, hi, hvalue, hall⟩ := pressAll_browsing hsel hks
  rw [hfirst, Int.natCast_zero, Int.zero_add] at hvalue
  have hlanding : Stroke.landing a.session.menu.size ks = i := by
    unfold Stroke.landing
    rw [← hvalue, Int.toNat_natCast]
  rw [hlanding]
  exact ⟨hi, hall⟩

/-- A stroke that closes the menu ends what the strokes before it have begun. -/
theorem pressAll_closing {outcome : KeyOutcome} (h : a.pressAll before = (b, os))
    (hk : b.press k.1 k.2 = (a.shut, outcome)) :
    a.pressAll (before ++ k :: after) =
      (a.shut, os ++ outcome :: List.replicate after.length .notHandled) := by
  rw [pressAll_append, h]
  unfold pressAll
  rw [hk]
  dsimp only
  rw [pressAll_closed rfl]

/-- Every list of strokes comes to something. -/
theorem exists_replays (hopen : 0 < a.session.menu.size) (hfirst : a.session.menu.selected = 0)
    (ks : List Stroke) : ∃ b os, Replays a ks b os := by
  -- The list is cut at the first key that closes the menu.
  rcases hfind : ks.find? Stroke.isClosing with _ | ⟨key, held⟩
  · refine ⟨_, _, .browsing fun k hk => ?_⟩
    exact Bool.eq_false_iff.2 (List.find?_eq_none.1 hfind k hk)
  · obtain ⟨hclosing, before, after, rfl, hbefore⟩ := List.find?_eq_some_iff_append.1 hfind
    have hbrowsing : ∀ k ∈ before, k.isClosing = false := by simpa using hbefore
    have hlanding := (pressAll_landing hopen hfirst hbrowsing).1
    cases key with
    | enter => exact ⟨_, _, .accepting hbrowsing (List.getElem?_eq_getElem hlanding)⟩
    | escape => exact ⟨_, _, .dismissing hbrowsing⟩
    | tab | backTab | up | down | char _ | other => cases hclosing

theorem Replays.pressAll_eq (h : a.Replays ks b os) (hopen : 0 < a.session.menu.size)
    (hfirst : a.session.menu.selected = 0) : a.pressAll ks = (b, os) := by
  cases h with
  | browsing hks => exact (pressAll_landing hopen hfirst hks).2
  | @accepting before after held c hbefore hc =>
    exact pressAll_closing (pressAll_landing hopen hfirst hbefore).2 (press_enter hc held)
  | @dismissing before after held hbefore =>
    obtain ⟨hlanding, hall⟩ := pressAll_landing hopen hfirst hbefore
    exact pressAll_closing hall (press_escape (List.getElem?_eq_getElem hlanding) held)

theorem countP_map_outcome (ks : List Stroke) :
    (ks.map Stroke.outcome).countP KeyOutcome.isAccepted = 0 := by
  rw [List.countP_map, List.countP_eq_zero]
  intro k _
  rcases k.outcome_cases with ho | ho <;> simp [ho, KeyOutcome.isAccepted]

/-- At most one outcome is that of an accepted candidate. -/
theorem Replays.countP_accepted_le (h : a.Replays ks b os) :
    os.countP KeyOutcome.isAccepted ≤ 1 := by
  cases h with
  | browsing =>
    rw [countP_map_outcome]
    exact Nat.zero_le 1
  | accepting | dismissing =>
    rw [List.countP_append, countP_map_outcome]
    simp [List.countP_cons, List.countP_replicate, KeyOutcome.isAccepted]

/-! ## The law -/

/-- Over an open menu with the first candidate selected, the selection goes round the menu until the
first key that closes it. Enter accepts the candidate selected then, and after that key nothing
happens. So no list of keys accepts more than one candidate. -/
theorem the_first_closing_key_ends_the_replay (hopen : 0 < a.session.menu.size)
    (hfirst : a.session.menu.selected = 0) (ks : List Stroke) :
    (∀ b os, Replays a ks b os ↔ a.pressAll ks = (b, os)) ∧
      (a.pressAll ks).2.countP KeyOutcome.isAccepted ≤ 1 := by
  obtain ⟨b, os, hreplays⟩ := exists_replays hopen hfirst ks
  have hall := hreplays.pressAll_eq hopen hfirst
  refine ⟨fun b' os' => ⟨fun h => h.pressAll_eq hopen hfirst, fun h => ?_⟩, ?_⟩
  · obtain ⟨rfl, rfl⟩ := Prod.mk.inj (hall.symm.trans h)
    exact hreplays
  · rw [hall]
    exact hreplays.countP_accepted_le

/-- Above the first candidate is the last one, and a letter does not move the selection. Enter
accepts the candidate, and a second Enter comes too late. -/
theorem the_last_candidate_is_accepted_from_the_first :
    let named := fun name : String =>
      (⟨name.toList, .recommendedCommand, 80, [], none, none, none⟩ : Candidate)
    let a : Assistant Unit :=
      { registry := {}, directory := []
        session := Session.fill {} (.ofLine ['g'] 1 .shell) [named "git", named "gcc", named "grep"]
        world :=
          { disk := ⟨.directory .nil, []⟩, home := [], searchPath := [], now := 0,
            programs := ⟨0, none⟩, more := () } }
    let ks : List Stroke := [(.up, {}), (.char 'x', {}), (.enter, {}), (.enter, {})]
    0 < a.session.menu.size ∧ a.session.menu.selected = 0 ∧
      a.pressAll ks =
        (a.shut, [.navigated, .notHandled, .accepted "grep".toList (some (0, 1)), .notHandled]) ∧
      (a.pressAll ks).2.countP KeyOutcome.isAccepted ≤ 1 := by
  intro named a ks
  have hopen : 0 < a.session.menu.size := by decide
  obtain ⟨hlaw, honce⟩ := the_first_closing_key_ends_the_replay (a := a) hopen rfl ks
  let before : List Stroke := [(.up, {}), (.char 'x', {})]
  have hbefore : ∀ k ∈ before, k.isClosing = false := by decide
  have hlast : a.session.menu.candidates[Stroke.landing a.session.menu.size before]? =
      some (named "grep") := rfl
  have hreplays : Replays a ks a.shut
      [.navigated, .notHandled, .accepted "grep".toList (some (0, 1)), .notHandled] :=
    Replays.accepting hbefore hlast
  exact ⟨hopen, rfl, (hlaw _ _).1 hreplays, honce⟩

end Assistant

end Typeahead
