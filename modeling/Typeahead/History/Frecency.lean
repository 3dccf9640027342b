import Typeahead.Candidate
import Typeahead.Decimal.Logarithm
import Typeahead.History.Basic

/-!
How often and how recently a value was used, and the lift that this gives to candidates.
-/
namespace Typeahead

/-! ## Uses -/

/-- How often a value occurs, and when it was last used. -/
structure Usage where
  count : Nat
  last : Instant
  deriving DecidableEq, Repr

namespace Usage

/-- The weight of the age of the last use: within an hour, a day, a week, or longer ago. -/
def weight (seconds : Nat) : Float :=
  if seconds < 3600 then 8.0
  else if seconds < 86400 then 4.0
  else if seconds < 604800 then 2.0
  else 1.0

/-- Frequency and recency in one number. A use in the future counts as one just now. -/
def frecency (u : Usage) (now : Instant) : Float :=
  Decimal.logOnePlus u.count * weight (Instant.secondsSince now u.last).toNat

/-- Adds the uses at one time. -/
def record (u? : Option Usage) (count : Nat) (time : Instant) : Option Usage :=
  if count = 0 then u?
  else
    match u? with
    | some u => some ⟨u.count + count, max u.last time⟩
    | none => some ⟨count, time⟩

/-- The use of a value among the words that each entry counts as its uses. -/
def among (uses : Entry → List Text) (entries : List Entry) (value : Text) : Option Usage :=
  entries.foldl (fun u? e => record u? ((uses e).count value) e.time) none

end Usage

/-! ## Lifting candidates -/

/-- The words of an entry that count as uses of a candidate: the first one for a program, every one
for anything else. -/
def Group.uses (g : Group) (e : Entry) : List Text :=
  if g.isCommand then e.program?.toList else Text.words e.command

/-- The bonus that recent entries give a candidate, if they use it. -/
def recencyBonus (entries : List Entry) (now : Instant) (c : Candidate) : Option Float :=
  (Usage.among c.group.uses entries c.value).map (·.frecency now)

/-- The index of the first of the greatest bonuses, counted from `index` on; `best` is the one found
before. -/
def greatestFrom (best : Option (Nat × Float)) (index : Nat) : List (Option Float) → Option Nat
  | [] => best.map Prod.fst
  | none :: rest => greatestFrom best (index + 1) rest
  | some bonus :: rest =>
    let best :=
      match best with
      | some (i, top) => if top < bonus then some (index, bonus) else some (i, top)
      | none => some (index, bonus)
    greatestFrom best (index + 1) rest

/-- Lifts the candidates that the entries use by their bonus, and promotes the first one with the
greatest bonus to the top group. -/
def boost (entries : List Entry) (now : Instant) (cs : List Candidate) : List Candidate :=
  let bonuses := cs.map (recencyBonus entries now)
  let lifted := (cs.zip bonuses).map fun (c, bonus) =>
    match bonus with
    | some b => { c with score := c.score + b }
    | none => c
  match greatestFrom none 0 bonuses with
  | some i => lifted.modify i fun c => { c with group := .topSuggestion }
  | none => lifted

end Typeahead
