import Typeahead.Text.Lowercase

/-!
Candidates for completion: what they hold, how well they match what was typed, and how they are
ranked.
-/
namespace Typeahead

/-! ## Groups -/

/-- Priority bucket of a candidate. The order of the constructors is the order of ranking. -/
inductive Group where
  | topSuggestion
  | internalCommand
  | builtin
  | recommendedCommand
  | otherCommand
  | file
  | gitRef
  | entity
  | other
  deriving DecidableEq, Repr

namespace Group

def all : List Group :=
  [ topSuggestion, internalCommand, builtin, recommendedCommand, otherCommand, file, gitRef,
    entity, other ]

/-- The place of a group in the ranking, the best one first. -/
def rank : Group → Nat
  | topSuggestion => 0
  | internalCommand => 1
  | builtin => 2
  | recommendedCommand => 3
  | otherCommand => 4
  | file => 5
  | gitRef => 6
  | entity => 7
  | other => 8

/-- The name used in every output. -/
def name : Group → String
  | topSuggestion => "TopSuggestion"
  | internalCommand => "InternalCommand"
  | builtin => "Builtin"
  | recommendedCommand => "RecommendedCommand"
  | otherCommand => "OtherCommand"
  | file => "File"
  | gitRef => "GitRef"
  | entity => "Entity"
  | other => "Other"

/-- The group with the given name. -/
def ofName? (n : String) : Option Group := all.find? (·.name == n)

/-- Whether candidates of the group are programs, which recent commands name by their first
word. -/
def isCommand (g : Group) : Bool := g ∈ [builtin, recommendedCommand, otherCommand]

theorem rank_injective {a b : Group} (h : a.rank = b.rank) : a = b := by
  cases a <;> cases b <;> simp_all [rank]

end Group

/-! ## Candidates -/

/-- One suggestion. -/
structure Candidate where
  /-- The text that replaces what was typed. -/
  value : Text
  group : Group
  /-- Within a group the higher score comes first. -/
  score : Float
  /-- Name of the source that made the candidate. -/
  source : Text
  /-- Shown in place of the value. -/
  display : Option Text := none
  description : Option Text := none
  icon : Option Text := none

namespace Candidate

/-- The text shown in the menu. -/
def label (c : Candidate) : Text := c.display.getD c.value

/-- The ranking of two candidates: by group, then by score with the higher one first. Scores that
cannot be compared rank alike. -/
def compareRank (a b : Candidate) : Ordering :=
  if a.group.rank < b.group.rank then .lt
  else if b.group.rank < a.group.rank then .gt
  else if b.score < a.score then .lt
  else if a.score < b.score then .gt
  else .eq

/-- Whether the first candidate ranks before the second one. -/
def ranksBefore (a b : Candidate) : Bool := a.compareRank b = .lt

end Candidate

/-! ## Ranking -/

/-- Puts an element into a list that is sorted from last to first, behind all that it does not come
before. -/
def insertFromEnd {α : Type} (before : α → α → Bool) (x : α) : List α → List α
  | [] => [x]
  | y :: ys => if before x y then y :: insertFromEnd before x ys else x :: y :: ys

/-- Sorts a list by moving each element, one after another, to the left past those that it comes
before. Elements of which neither comes before the other keep their order. -/
def stableSort {α : Type} (before : α → α → Bool) (xs : List α) : List α :=
  (xs.foldl (fun sorted x => insertFromEnd before x sorted) []).reverse

/-- Candidates by rank; those of equal rank keep their order. -/
def ranked (cs : List Candidate) : List Candidate := stableSort Candidate.ranksBefore cs

/-! ## Matching -/

/-- How well a candidate matches what was typed: an exact match is best, then one that goes on with
the typed text, the less the better, then one that does so up to capitals. Nothing typed matches
everything alike, and zero is no match. -/
def matchScore (candidate typed : Text) : Nat :=
  if typed.isEmpty then 50
  else if candidate = typed then 100
  else if typed.isPrefixOf candidate then 80 - min (candidate.length - typed.length) 10
  else if (Text.lower typed).isPrefixOf (Text.lower candidate) then 60
  else 0

theorem insertFromEnd_perm {α : Type} (before : α → α → Bool) (x : α) (xs : List α) :
    (insertFromEnd before x xs).Perm (x :: xs) := by
  induction xs with
  | nil => exact List.Perm.refl _
  | cons y ys ih =>
    simp only [insertFromEnd]
    split
    · exact (List.Perm.cons y ih).trans (List.Perm.swap x y ys)
    · exact List.Perm.refl _

theorem foldl_insertFromEnd_perm {α : Type} (before : α → α → Bool) (sorted xs : List α) :
    (xs.foldl (fun sorted x => insertFromEnd before x sorted) sorted).Perm (sorted ++ xs) := by
  induction xs generalizing sorted with
  | nil => simp
  | cons x xs ih =>
    simp only [List.foldl_cons]
    refine (ih _).trans ?_
    refine ((insertFromEnd_perm before x sorted).append_right xs).trans ?_
    have middle : (sorted ++ x :: xs).Perm (x :: (sorted ++ xs)) := List.perm_middle
    simpa using middle.symm

/-- Sorting loses nothing and adds nothing. -/
theorem stableSort_perm {α : Type} (before : α → α → Bool) (xs : List α) :
    (stableSort before xs).Perm xs := by
  simpa [stableSort] using
    (List.reverse_perm _).trans (foldl_insertFromEnd_perm before [] xs)

end Typeahead
