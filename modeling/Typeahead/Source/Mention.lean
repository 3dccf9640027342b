import Typeahead.Source.Basic

/-!
Things that can be mentioned with an at sign, such as files or symbols that a session knows of.
-/
namespace Typeahead

/-- Something to mention. -/
structure Mention where
  name : Text
  description : Option Text := none
  icon : Option Text := none
  deriving DecidableEq, Repr

/-- The candidate for something to mention. -/
def Mention.candidate (m : Mention) (score : Nat) : Candidate where
  value := m.name
  group := .entity
  score := Float.ofNat score
  source := "entity".toList
  display := some ('@' :: m.name)
  description := m.description
  icon := m.icon

/-- The candidates among the things that match what was typed, in their order. -/
def mentionCandidates (known : List Mention) (typed : Text) : List Candidate :=
  known.filterMap fun m =>
    let score := matchScore m.name typed
    if 0 < score then some (m.candidate score) else none

end Typeahead
