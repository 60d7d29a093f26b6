import CodeQuality.Text.ColumnTable

/-!
# Terminal columns

How many columns of a terminal a text takes. Most characters take one, wide ones two and combining
ones none; what a character takes can also hang on what follows it, so a text is read from its end:
a line end made of two characters takes one column, emoji joined to one picture take two, and so
does an emoji with its skin tone or its variation selector. Control characters count one each.
-/

namespace CodeQuality
namespace Text
namespace Columns

/-- What stands behind a character, as far as it matters for the width. -/
inductive Behind where
  | plain
  | lineFeed
  /-- a variation selector that asks for an emoji; `joined` when a joined emoji follows it -/
  | selector (joined : Bool)
  | emoji
  /-- a joiner with an emoji behind it -/
  | joinedEmoji
  | skinTone
  | alef
deriving DecidableEq, Repr

/-- The letters that make one sign with an Arabic alef behind them. -/
def isLam (c : Char) : Bool :=
  inRanges [(0x644, 0x644), (0x6B5, 0x6B8), (0x76A, 0x76A), (0x8A6, 0x8A6), (0x8C7, 0x8C7)] c

/-- The letters of the Arabic alef group. -/
def isAlef (c : Char) : Bool :=
  inRanges [(0x622, 0x623), (0x625, 0x625), (0x627, 0x627), (0x671, 0x673), (0x675, 0x675),
    (0x773, 0x774), (0x870, 0x882)] c

def isSkinTone (c : Char) : Bool := inRanges [(0x1F3FB, 0x1F3FF)] c

def isEmoji (c : Char) : Bool := inRanges emojiRanges c

/-- Can a variation selector behind `c` ask for an emoji? -/
def takesSelector (c : Char) : Bool := isEmoji c || inRanges styledRanges c

/-- The columns of `c` on its own, and what it is to the character before it. -/
def alone (c : Char) : Nat × Behind :=
  if c = '\uFE0F' then (0, .selector false)
  else if inRanges zeroRanges c then (0, .plain)
  else if isSkinTone c then (2, .skinTone)
  else if isEmoji c then (2, .emoji)
  else if inRanges wideRanges c || c = '\u17A4' then (2, .plain)
  else if c = '\u17D8' then (3, .plain)
  else if isAlef c then (1, .alef)
  else (1, .plain)

/-- The columns of `c` in front of `behind`, unless a selector behind `c` has decided already. -/
def besides (behind : Behind) (c : Char) : Nat × Behind :=
  if c.toNat ≤ 0xA0 then
    if c = '\n' then (1, .lineFeed)
    else if c = '\r' && behind = .lineFeed then (0, .plain)
    else (1, .plain)
  else
    match behind with
    | .plain | .lineFeed => alone c
    | .selector joined => if c = '\uFE0F' then (0, .selector joined) else alone c
    | .alef =>
      if isLam c then (0, .plain)
      else if inRanges zeroRanges c then (0, .alef)
      else alone c
    | .skinTone =>
      if inRanges tonedRanges c then (0, .emoji)
      else if c = '\u200D' then (0, .joinedEmoji)
      else if c = '\uFE0F' then (0, .selector false)
      else alone c
    | .emoji => if c = '\u200D' then (0, .joinedEmoji) else alone c
    | .joinedEmoji =>
      if c = '\uFE0F' then (0, .selector true)
      else if isSkinTone c then (0, .skinTone)
      else if isEmoji c then (0, .emoji)
      else alone c

/-- The columns of `c` in front of `behind`. -/
def inFrontOf (behind : Behind) (c : Char) : Nat × Behind :=
  match behind with
  | .selector joined =>
    if takesSelector c then (if joined then 0 else 2, .emoji) else besides .plain c
  | _ => besides behind c

/-- The columns of a text. -/
def ofChars (cs : List Char) : Nat × Behind :=
  cs.foldr (fun c rest =>
    let (width, behind) := inFrontOf rest.2 c
    (width + rest.1, behind)) (0, .plain)

end Columns

/-- How many terminal columns `s` takes. -/
def columns (s : String) : Nat := (Columns.ofChars s.toList).1

end Text
end CodeQuality
