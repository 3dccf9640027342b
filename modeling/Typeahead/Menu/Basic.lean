import Typeahead.Candidate

/-!
The completion menu: ranked candidates and which of them is selected.
-/
namespace Typeahead

/-- Candidates and the index of the selected one. The menu is active while it holds a candidate. -/
structure Menu where
  candidates : List Candidate := []
  selected : Nat := 0

namespace Menu

/-- A menu without candidates. -/
def empty : Menu := {}

/-- A menu over the candidates, the first one selected. -/
def ofList (candidates : List Candidate) : Menu := { candidates }

variable (m : Menu)

def size : Nat := m.candidates.length

def isActive : Bool := !m.candidates.isEmpty

/-- The selected candidate, if the menu is active. -/
def selected? : Option Candidate := m.candidates[m.selected]?

/-- Selects the next candidate, after the last one the first. -/
def next : Menu :=
  if m.isActive then { m with selected := (m.selected + 1) % m.size } else m

/-- Selects the previous candidate, before the first one the last. -/
def previous : Menu :=
  if m.isActive then
    { m with selected := if m.selected = 0 then m.size - 1 else m.selected - 1 }
  else m

@[simp] theorem isActive_empty : empty.isActive = false := rfl

@[simp] theorem size_next : m.next.size = m.size := by
  unfold next; split <;> rfl

@[simp] theorem size_previous : m.previous.size = m.size := by
  unfold previous; split <;> rfl

@[simp] theorem candidates_next : m.next.candidates = m.candidates := by
  unfold next; split <;> rfl

@[simp] theorem candidates_previous : m.previous.candidates = m.candidates := by
  unfold previous; split <;> rfl

/-- A selection that is on a candidate stays on one. -/
theorem selected_next_lt (h : m.selected < m.size) : m.next.selected < m.next.size := by
  rw [size_next]
  unfold next
  split
  · exact Nat.mod_lt _ (by omega)
  · exact h

theorem selected_previous_lt (h : m.selected < m.size) :
    m.previous.selected < m.previous.size := by
  rw [size_previous]
  unfold previous
  split
  · dsimp only
    split <;> omega
  · exact h

end Menu

end Typeahead
