import CodeQuality.Decimal.Binary64
import CodeQuality.Text.Numeral
import CodeQuality.Time.Calendar
import CodeQuality.Toml.Table

/-!
# Reading TOML documents

A document is a list of lines: headers, pairs and comments. A value may be a text in one of four
forms, an integer in one of four bases, a number with a fraction, a point in time, a truth value, a
list, which may run over several lines, or a table on one line. A document that breaks the grammar
or defines a key twice is no document.
-/

namespace CodeQuality
namespace Toml

/-- A reader of the front of a text. -/
abbrev Scan := StateT (List Char) Option

namespace Scan

/-! ### Characters -/

/-- The next character, which is not read yet. -/
def peek : Scan (Option Char) := fun cs => some (cs.head?, cs)

/-- The next character. -/
def next : Scan Char
  | c :: cs => some (c, cs)
  | [] => none

/-- A character that satisfies `p`. -/
def satisfying (p : Char → Bool) : Scan Char
  | c :: cs => if p c then some (c, cs) else none
  | [] => none

/-- The characters at the front that satisfy `p`. -/
def span (p : Char → Bool) : Scan (List Char) := fun cs => some (cs.takeWhile p, cs.dropWhile p)

/-- The characters `word`. -/
def word (word : List Char) : Scan Unit := fun cs =>
  if word.isPrefixOf cs then some ((), cs.drop word.length) else none

/-- Do the characters `word` come next? They are read if they do. -/
def accept (word : List Char) : Scan Bool := fun cs =>
  if word.isPrefixOf cs then some (true, cs.drop word.length) else some (false, cs)

def isSpace (c : Char) : Bool := c = ' ' || c = '\t'

def spaces : Scan Unit := discard (span isSpace)

/-- Is a line break read? -/
def acceptLineBreak : Scan Bool
  | '\n' :: cs => some (true, cs)
  | '\r' :: '\n' :: cs => some (true, cs)
  | cs => some (false, cs)

/-- May `c` stand in a comment? -/
def inComment (c : Char) : Bool := c = '\t' || (0x20 ≤ c.toNat && c.toNat ≠ 0x7F)

/-- A line break or the end of the document. -/
def lineEnd : Scan Unit := do
  if (← peek).isNone then return ()
  if ← acceptLineBreak then return () else failure

/-- What may follow on a line: blanks, a comment, and the line break. -/
def lineTail : Scan Unit := do
  spaces
  if ← accept ['#'] then discard (span inComment)
  lineEnd

/-! ### Texts -/

/-- The character whose number is written in `count` hexadecimal digits. -/
def numbered (count : Nat) : Scan Char := fun cs => do
  let ds := cs.take count
  if ds.length < count then none
  let n ← ds.foldlM (fun n d => do
    let v ← hexValue? d
    return 16 * n + v) 0
  if n.isValidChar then some (Char.ofNat n, cs.drop count) else none
where
  /-- The value of a hexadecimal digit. -/
  hexValue? (c : Char) : Option Nat :=
    if c.isDigit then some (c.toNat - '0'.toNat)
    else if 'a' ≤ c && c ≤ 'f' then some (c.toNat - 'a'.toNat + 10)
    else if 'A' ≤ c && c ≤ 'F' then some (c.toNat - 'A'.toNat + 10)
    else none

/-- The character behind a backslash. -/
def escaped : Scan Char := do
  match ← next with
  | 'b' => return '\x08'
  | 't' => return '\t'
  | 'n' => return '\n'
  | 'f' => return '\x0c'
  | 'r' => return '\r'
  | '"' => return '"'
  | '\\' => return '\\'
  | 'u' => numbered 4
  | 'U' => numbered 8
  | _ => failure

/-- May `c` stand for itself in a text on one line between the marks `quote`? -/
def inText (quote c : Char) : Bool := inComment c && c ≠ quote && !(quote = '"' && c = '\\')

/-- A text on one line up to the quote that closes it. -/
def basicBody : (fuel : Nat) → (read : List Char) → Scan (List Char)
  | 0, _ => failure
  | fuel + 1, read => do
    match ← next with
    | '"' => return read.reverse
    | '\\' => basicBody fuel ((← escaped) :: read)
    | c => if inText '"' c then basicBody fuel (c :: read) else failure

/-- A text without escapes on one line up to the quote that closes it. -/
def literalBody : Scan (List Char) := do
  let cs ← span (inText '\'')
  word ['\'']
  return cs

/-- Passes over the blanks and line breaks behind a backslash at the end of a line. -/
def foldedLines : Scan Unit := do
  spaces
  if !(← acceptLineBreak) then failure
  fun cs => some ((), dropLines cs)
where
  /-- `cs` without its leading blanks and line breaks. -/
  dropLines : List Char → List Char
    | ' ' :: cs => dropLines cs
    | '\t' :: cs => dropLines cs
    | '\n' :: cs => dropLines cs
    | '\r' :: '\n' :: cs => dropLines cs
    | cs => cs

/-- A text on several lines up to the three quotes that close it; one or two more quotes before them
belong to the text. -/
def linesBody (quote : Char) : (fuel : Nat) → (read : List Char) → Scan (List Char)
  | 0, _ => failure
  | fuel + 1, read => do
    if (← peek) = some quote then
      let quotes := (← span (· = quote)).length
      if quotes ≤ 2 then linesBody quote fuel (List.replicate quotes quote ++ read)
      else if quotes ≤ 5 then return (List.replicate (quotes - 3) quote ++ read).reverse
      else failure
    else if ← acceptLineBreak then linesBody quote fuel ('\n' :: read)
    else
      let c ← next
      if c = '\\' && quote = '"' then
        if (← peek).any fun c => isSpace c || c = '\n' || c = '\r' then
          foldedLines
          linesBody quote fuel read
        else linesBody quote fuel ((← escaped) :: read)
      else if inText quote c then linesBody quote fuel (c :: read)
      else failure

/-- A text on several lines behind the quotes that open it; a line break there does not count. -/
def linesText (quote : Char) : Scan (List Char) := do
  discard acceptLineBreak
  let cs ← get
  linesBody quote (cs.length + 1) []

/-- A text on one line. -/
def lineText : Scan (List Char) := do
  if ← accept ['"'] then
    let cs ← get
    basicBody (cs.length + 1) []
  else
    word ['\'']
    literalBody

/-- A text in any form. -/
def text : Scan String := do
  if ← accept ['"', '"', '"'] then return String.ofList (← linesText '"')
  else if ← accept ['\'', '\'', '\''] then return String.ofList (← linesText '\'')
  else return String.ofList (← lineText)

/-! ### Keys -/

/-- How many parts a dotted key may have, and how deep lists and tables may be nested. -/
def maxDepth : Nat := 79

def isBareKeyChar (c : Char) : Bool := c.isAlphanum || c = '_' || c = '-'

/-- One part of a key. -/
def keyPart : Scan String := do
  match ← peek with
  | some '"' => return String.ofList (← lineText)
  | some '\'' => return String.ofList (← lineText)
  | _ =>
    let cs ← span isBareKeyChar
    if cs.isEmpty then failure
    return String.ofList cs

/-- The parts of a key, of which there are at most `fuel`. -/
def keyParts : (fuel : Nat) → Scan (List String)
  | 0 => failure
  | fuel + 1 => do
    spaces
    let part ← keyPart
    spaces
    if ← accept ['.'] then return part :: (← keyParts fuel) else return [part]

/-- A key: the parts that lead to it, and its last part. -/
def key : Scan (List String × String) := do
  let parts ← keyParts maxDepth
  match parts.getLast? with
  | some last => return (parts.dropLast, last)
  | none => failure

/-! ### Numbers and points in time -/

/-- Digits that satisfy `p`, between which single underscores may stand. -/
def digits (p : Char → Bool) : Scan (List Char) := do
  let cs ← span fun c => p c || c = '_'
  if separated cs then return cs.filter (· ≠ '_') else failure
where
  /-- Is every underscore between two digits? -/
  separated : List Char → Bool
    | [] => false
    | ['_'] => false
    | '_' :: _ => false
    | c :: '_' :: cs => c ≠ '_' && separated cs
    | _ :: [] => true
    | _ :: c :: cs => separated (c :: cs)

/-- The integers that fit into 64 bits. -/
def fits (n : Int) : Bool := -0x8000000000000000 ≤ n && n < 0x8000000000000000

/-- An integer in a base behind the letter that names it. -/
def based (base : Nat) (p : Char → Bool) : Scan Value := do
  let ds ← digits p
  let n := ds.foldl (fun n d => base * n + (numbered.hexValue? d).getD 0) 0
  if fits n then return .integer n else failure

/-- Is a run of digits without leading zeros? -/
def isPlainNumeral : List Char → Bool
  | '0' :: _ :: _ => false
  | _ => true

/-- Is `ds · 10 ^ exponent` too large for a number with a fraction? -/
def isInfinite (ds : List Char) (exponent : Int) : Bool :=
  let n := Text.numeralValue ds
  if n = 0 then false
  else
    let size : Int := (Text.numeral n).length + exponent
    if size < 300 then false
    else if 400 < size then true
    else
      (if 0 ≤ exponent then Binary64.ofRatio false (n * Nat.pow 10 exponent.toNat) 1
        else Binary64.ofRatio false n (Nat.pow 10 exponent.natAbs)).isNone

/-- The exponent behind its letter. -/
def exponent : Scan Int := do
  let negative ← accept ['-']
  if !negative then discard (accept ['+'])
  let n := Text.numeralValue (← digits Char.isDigit)
  return if negative then -(n : Int) else n

/-- A number in decimal behind its sign. -/
def decimal (negative : Bool) : Scan Value := do
  let whole ← digits Char.isDigit
  if !isPlainNumeral whole then failure
  let fraction ← if ← accept ['.'] then digits Char.isDigit else pure []
  let hasExponent := (← peek).any fun c => c = 'e' || c = 'E'
  let exponent ←
    if hasExponent then
      discard next
      exponent
    else pure 0
  if fraction.isEmpty && !hasExponent then
    let n : Int := Text.numeralValue whole
    let n := if negative then -n else n
    if fits n then return .integer n else failure
  else if !negative && isInfinite (whole ++ fraction) (exponent - fraction.length) then failure
  else return .real

/-- `count` digits. -/
def exactly (count : Nat) : Scan Nat := do
  let (ds, rest) := Text.splitDigits count (← get)
  if ds.length < count then failure
  set rest
  return Text.numeralValue ds

/-- A day. -/
def day : Scan Unit := do
  let year ← exactly 4
  word ['-']
  let month ← exactly 2
  word ['-']
  let day ← exactly 2
  if Calendar.Date.valid ⟨year, month, day⟩ then return () else failure

/-- A time of day. -/
def clock : Scan Unit := do
  let hour ← exactly 2
  word [':']
  let minute ← exactly 2
  word [':']
  let second ← exactly 2
  if 23 < hour || 59 < minute || 60 < second then failure
  if ← accept ['.'] then
    if (← span Char.isDigit).isEmpty then failure

/-- The offset behind a time, if there is one. -/
def offset : Scan Unit := do
  match ← peek with
  | some 'Z' => discard next
  | some 'z' => discard next
  | some '+' => numeric
  | some '-' => numeric
  | _ => return ()
where
  /-- A sign, hours and minutes. -/
  numeric : Scan Unit := do
    discard next
    let hour ← exactly 2
    word [':']
    let minute ← exactly 2
    if 23 < hour || 59 < minute then failure

/-- The time that may follow a day. -/
def clockBehindDay : Scan Unit := fun cs =>
  match cs with
  | c :: h :: h' :: ':' :: _ =>
    if (c = 'T' || c = 't' || c = ' ') && h.isDigit && h'.isDigit then
      (do
        discard next
        clock
        offset : Scan Unit) cs
    else some ((), cs)
  | _ => some ((), cs)

/-- A number or a point in time, as its first characters tell. -/
def number : Scan Value := fun cs =>
  match cs with
  | '0' :: 'x' :: cs => based 16 (fun c => (numbered.hexValue? c).isSome) cs
  | '0' :: 'o' :: cs => based 8 (fun c => '0' ≤ c && c ≤ '7') cs
  | '0' :: 'b' :: cs => based 2 (fun c => c = '0' || c = '1') cs
  | '+' :: cs => signed false cs
  | '-' :: cs => signed true cs
  | 'i' :: 'n' :: 'f' :: cs => some (.real, cs)
  | 'n' :: 'a' :: 'n' :: cs => some (.real, cs)
  | cs =>
    let ds := cs.takeWhile Char.isDigit
    match cs.dropWhile Char.isDigit with
    | '-' :: _ =>
      (do
        day
        clockBehindDay
        return .moment : Scan Value) cs
    | ':' :: _ =>
      if ds.length = 2 then
        (do
          clock
          return .moment : Scan Value) cs
      else none
    | _ => decimal false cs
where
  /-- A number behind its sign. -/
  signed (negative : Bool) : Scan Value
    | 'i' :: 'n' :: 'f' :: cs => some (.real, cs)
    | 'n' :: 'a' :: 'n' :: cs => some (.real, cs)
    | cs => decimal negative cs

/-! ### Values -/

/-- Passes over blanks, line breaks and comments. -/
def filler : (fuel : Nat) → Scan Unit
  | 0 => return ()
  | fuel + 1 => do
    spaces
    if ← acceptLineBreak then filler fuel
    else if ← accept ['#'] then
      discard (span inComment)
      if ← acceptLineBreak then filler fuel else failure
    else return ()

/-- Passes over blanks, line breaks and comments. -/
def betweenItems : Scan Unit := do
  let cs ← get
  filler (cs.length + 1)

/-- The items of a list up to its bracket. -/
def items (item : Scan Value) : (fuel : Nat) → (read : List Value) → Scan (List Value)
  | 0, _ => failure
  | fuel + 1, read => do
    betweenItems
    if ← accept [']'] then return read.reverse
    let v ← item
    betweenItems
    if ← accept [','] then items item fuel (v :: read)
    else
      word [']']
      return (v :: read).reverse

/-- The pairs of a table on one line up to its brace. -/
def pairs (item : Scan Value) : (fuel : Nat) → (defined : Entries) → Scan Entries
  | 0, _ => failure
  | fuel + 1, defined => do
    let (path, last) ← key
    word ['=']
    spaces
    let v ← item
    spaces
    match defined.define path last v with
    | none => failure
    | some defined =>
      if ← accept [','] then pairs item fuel defined
      else
        word ['\x7d']
        return defined

/-- A value in which lists and tables are nested at most `depth` deep. -/
def value (depth : Nat) : Scan Value := do
  match ← peek with
  | some '"' => return .text (← text)
  | some '\'' => return .text (← text)
  | some 't' => do
    word ['t', 'r', 'u', 'e']
    return .flag true
  | some 'f' => do
    word ['f', 'a', 'l', 's', 'e']
    return .flag false
  | some '[' =>
    match depth with
    | 0 => failure
    | depth + 1 => do
      discard next
      let cs ← get
      return .list (← items (value depth) (cs.length + 1) [])
  | some '\x7b' =>
    match depth with
    | 0 => failure
    | depth + 1 => do
      discard next
      spaces
      if ← accept ['\x7d'] then return .table []
      let cs ← get
      return .table (Node.entryValues (← pairs (value depth) (cs.length + 1) []))
  | _ => number

/-! ### Documents -/

/-- Where a document stands: all that is defined, and the table that pairs belong to. -/
structure State where
  entries : Entries
  table : List String

/-- A line of a document. -/
def line (s : State) : Scan State := do
  match ← peek with
  | some '[' =>
    if ← accept ['[', '['] then
      let (path, last) ← key
      word [']', ']']
      lineTail
      let entries ← (s.entries.appendTable path last : Option Entries)
      return ⟨entries, path ++ [last]⟩
    else
      discard next
      let (path, last) ← key
      word [']']
      lineTail
      let entries ← (s.entries.openTable path last : Option Entries)
      return ⟨entries, path ++ [last]⟩
  | some '#' => do
    lineTail
    return s
  | some c =>
    if c = '\n' || c = '\r' then do
      lineEnd
      return s
    else do
      let (path, last) ← key
      word ['=']
      spaces
      let v ← value maxDepth
      lineTail
      let define (_ : Bool) (inner : Entries) := inner.define path last v
      let entries ← (s.entries.change false define false s.table : Option Entries)
      return { s with entries }
  | none => return s

/-- The lines of a document, of which there are at most `fuel`. -/
def lines : (fuel : Nat) → State → Scan State
  | 0, s => return s
  | fuel + 1, s => do
    spaces
    if (← peek).isNone then return s
    else lines fuel (← line s)

/-- A whole document. -/
def document : Scan Value := do
  discard (accept ['\uFEFF'])
  let cs ← get
  let s ← lines (cs.length + 1) ⟨[], []⟩
  return .table (Node.entryValues s.entries)

end Scan

/-- The table that a document defines, if it is one. -/
def Value.read? (s : String) : Option Value :=
  match Scan.document s.toList with
  | some (v, []) => some v
  | _ => none

end Toml
end CodeQuality
