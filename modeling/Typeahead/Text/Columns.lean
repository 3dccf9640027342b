import Typeahead.Text.Basic
import Typeahead.Text.Columns.Table

/-!
How many terminal columns a text takes. A single character has a fixed width: by the East Asian Width
property of Unicode two columns if it is wide or full-width and one if it is not, where an ambiguous one
counts as narrow; marks that extend what stands before them, default ignorables and the later jamo of
a Hangul syllable take none.

In a text some sequences count as one sign. These are a line break of two controls, emoji with a
presentation selector, a skin tone or joiners between them, and the ligatures of Arabic lam with alef,
Buginese, Hebrew, Khmer, Lisu, Old Turkic and Tifinagh. The text is measured from its end, so that each
character knows what stands right of it. Left out are flags, keycaps and tag sequences that a joiner
(U+200D) ties to another emoji, and the vowel signs of Kirat Rai that combine: their parts count one by
one.
-/
namespace Typeahead.Text

namespace Columns

/-! ## Classes of characters -/

/-- Zero-width joiner. -/
def joiner : Char := Char.ofNat 0x200D

/-- Asks for the text form of the emoji before it. -/
def textSelector : Char := Char.ofNat 0xFE0E

/-- Asks for the emoji form of the character before it. -/
def emojiSelector : Char := Char.ofNat 0xFE0F

/-- The letters and signs that open a ligature, seen from its right end. -/
inductive Ligature where
  | alef
  | lamed
  | khmerLetter
  | bugineseYa
  | bugineseVowelYa
  | tifinaghLetter
  | tifinaghJoined
  | lisuTone
  | turkicI
  deriving DecidableEq, Repr

/-- What stands directly right of the character being measured. -/
inductive Ahead where
  /-- Nothing that matters. -/
  | plain
  | lineFeed
  /-- An emoji, which a joiner can tie to the one before it. -/
  | emoji
  | skinTone
  /-- A joiner followed by an emoji. -/
  | joined
  /-- The emoji selector; `tied` when a joined emoji follows it. -/
  | emojiForm (tied : Bool)
  | textForm
  /-- A letter that may close a ligature; `zwj` when a joiner stands before it. -/
  | ligature (letter : Ligature) (zwj : Bool)
  deriving DecidableEq, Repr

/-- Whether the code point lies between the two, ends included. -/
def within (c : Char) (first last : Nat) : Bool := first ≤ c.toNat && c.toNat ≤ last

def isSkinTone (c : Char) : Bool := within c 0x1F3FB 0x1F3FF

def isTifinaghLetter (c : Char) : Bool := within c 0x2D31 0x2D65 || c.toNat == 0x2D6F

/-- Khmer letters that hang below another one when the coeng sign stands before them. -/
def isKhmerLetter (c : Char) : Bool :=
  inRanges
    [ (0x1780, 0x1782), (0x1784, 0x1787), (0x1789, 0x178C), (0x178E, 0x1793), (0x1795, 0x1798),
      (0x179B, 0x179D), (0x17A0, 0x17A0), (0x17A2, 0x17A2), (0x17A7, 0x17A7), (0x17AB, 0x17AC),
      (0x17AF, 0x17AF) ] c

/-- Arabic letters of the joining group lam. -/
def isLam (c : Char) : Bool :=
  inRanges [(0x644, 0x644), (0x6B5, 0x6B8), (0x76A, 0x76A), (0x8A6, 0x8A6), (0x8C7, 0x8C7)] c

/-- Default-ignorable marks, which do not break a ligature. -/
def isTransparent (c : Char) : Bool :=
  inRanges
    [ (0x34F, 0x34F), (0x17B4, 0x17B5), (0x180B, 0x180D), (0x180F, 0x180F), (0xFE00, 0xFE0F),
      (0xE0100, 0xE01EF) ] c

/-! ## Measuring from the end -/

/-- Columns of a character that is no control. -/
def ofPrintable (c : Char) : Nat :=
  if c.toNat ≤ 0xA0 then 1
  else if c.toNat = 0x17D8 then 3
  else if inRanges zeroWidth c then 0
  else if inRanges doubleWidth c then 2
  else 1

/-- What the character means for the one left of it, if no sequence has taken it. -/
def announce (c : Char) : Ahead :=
  if c = '\n' then .lineFeed
  else if c = emojiSelector then .emojiForm false
  else if c = textSelector then .textForm
  else if isSkinTone c then .skinTone
  else if inRanges emojiPresentation c then .emoji
  else if inRanges arabicAlef c then .ligature .alef false
  else if c.toNat = 0x5DC then .ligature .lamed false
  else if isKhmerLetter c then .ligature .khmerLetter false
  else if c.toNat = 0x1A10 then .ligature .bugineseYa false
  else if isTifinaghLetter c then .ligature .tifinaghLetter false
  else if within c 0xA4FC 0xA4FD then .ligature .lisuTone false
  else if c.toNat = 0x10C03 then .ligature .turkicI false
  else .plain

/-- The columns that the character adds left of a possible end of a ligature, and what then stands
ahead; none where it does not take part. -/
def ligate (c : Char) : Ligature → Bool → Option (Int × Ahead)
  | .alef, _ =>
    if isLam c then some (0, .plain)
    else if inRanges zeroWidth c && c ≠ joiner && c.toNat ≠ 0x200C then
      some (0, .ligature .alef false)
    else none
  | letter, zwj =>
    if c = joiner then some (0, .ligature letter true)
    else if isTransparent c then some (0, .ligature letter zwj)
    else
      match letter with
      | .alef => none
      | .lamed => if zwj && c.toNat == 0x5D0 then some (0, .plain) else none
      | .khmerLetter => if c.toNat = 0x17D2 then some (-1, .plain) else none
      | .bugineseYa =>
        if zwj && c.toNat == 0x1A17 then some (0, .ligature .bugineseVowelYa false) else none
      | .bugineseVowelYa => if c.toNat = 0x1A15 then some (0, .plain) else none
      | .tifinaghLetter =>
        if c.toNat = 0x2D7F then some (1, .ligature .tifinaghJoined false)
        else if zwj && isTifinaghLetter c then some (0, .plain)
        else none
      | .tifinaghJoined => if isTifinaghLetter c then some (-1, .plain) else none
      | .lisuTone => if within c 0xA4F8 0xA4FB then some (0, .plain) else none
      | .turkicI => if zwj && c.toNat == 0x10C32 then some (0, .plain) else none

/-- A character that no sequence has taken. -/
def alone (c : Char) : Int × Ahead :=
  if c.toNat < 0x20 || within c 0x7F 0x9F then (1, announce c)
  else (ofPrintable c, announce c)

/-- A character left of something that can form a sequence with it. -/
def beside (c : Char) (ahead : Ahead) : Int × Ahead :=
  if c = emojiSelector then (0, .emojiForm (ahead = .joined))
  else if c = textSelector then (0, .textForm)
  else
    match ahead with
    | .textForm => if inRanges textOnRequest c then (1, .plain) else alone c
    | .skinTone =>
      if c = joiner then (0, .joined)
      else if inRanges modifierBase c then (0, .emoji)
      else alone c
    | .emoji => if c = joiner then (0, .joined) else alone c
    | .joined =>
      if isSkinTone c then (0, .skinTone)
      else if inRanges emojiPresentation c then (0, .emoji)
      else alone c
    | .ligature letter zwj => (ligate c letter zwj).getD (alone c)
    | _ => alone c

/-- The columns that the character adds, and what it leaves ahead for the one left of it. -/
def measure (c : Char) (ahead : Ahead) : Int × Ahead :=
  match ahead with
  | .emojiForm tied =>
    if inRanges emojiOnRequest c then (if tied then 0 else 2, .emoji)
    else if c.toNat ≤ 0xA0 then alone c
    else beside c .plain
  -- Below U+00A1 only a carriage return takes part in a sequence, with the line feed after it.
  | .lineFeed => if c = '\r' then (0, .plain) else alone c
  | .plain => alone c
  | other => if c.toNat ≤ 0xA0 then alone c else beside c other

/-- The columns of a text and what its first character leaves ahead. -/
def scan : Text → Int × Ahead
  | [] => (0, .plain)
  | c :: cs =>
    let (columns, ahead) := scan cs
    let (more, ahead) := measure c ahead
    (columns + more, ahead)

end Columns

/-! ## Characters and texts -/

/-- The columns of a single character; none for a control, which has no picture. -/
def charColumns? (c : Char) : Option Nat :=
  if c.toNat < 0x20 || Columns.within c 0x7F 0x9F then none else some (Columns.ofPrintable c)

/-- The columns of a whole text. A control counts as one column. -/
def columns (t : Text) : Nat := (Columns.scan t).1.toNat

end Typeahead.Text
