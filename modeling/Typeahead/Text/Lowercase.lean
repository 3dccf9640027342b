import Typeahead.Text.Basic
import Typeahead.Text.Lowercase.Table

/-!
Lower-casing of a whole text by the full Unicode mapping. Two letters need more than their own
code point: the capital I with a dot becomes two characters, and a capital sigma at the end of a
word becomes the final sigma.
-/
namespace Typeahead.Text

namespace Lowercase

/-- The small letter of one character, the sigma taken as not final. -/
def simple (c : Char) : Char :=
  match runs.find? fun (first, last, step, _) =>
      first ≤ c.toNat && c.toNat ≤ last && (c.toNat - first) % step == 0 with
  | some (first, _, _, small) => Char.ofNat (small + (c.toNat - first))
  | none => c

/-- Whether the first character that is not case-ignorable is a cased one. -/
def meetsCased (t : Text) : Bool :=
  match t.dropWhile (inRanges caseIgnorable) with
  | [] => false
  | c :: _ => inRanges cased c

/-- Lower-cases the rest of a text whose beginning, last character first, is `before`. -/
def rest (before : Text) : Text → Text
  | [] => []
  | c :: cs =>
    let small : Text :=
      if c = 'Σ' then [if meetsCased before && !meetsCased cs then 'ς' else 'σ']
      else if c = 'İ' then ['i', Char.ofNat 0x307]
      else [simple c]
    small ++ rest (c :: before) cs

end Lowercase

/-- The text in small letters. -/
def lower (t : Text) : Text := Lowercase.rest [] t

end Typeahead.Text
