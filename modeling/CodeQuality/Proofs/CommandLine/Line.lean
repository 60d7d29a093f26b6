import CodeQuality.CommandLine.Level

/-!
# What stands on a command line

Whatever the commands inside each other are, a command line holds words, which are names of commands
or operands, and options. An option has its value behind an equals sign, in the same argument behind
its letter, or in the next argument, and letters of options that take nothing may share an argument.
Behind two hyphens everything is a word.

* `Mode.items` — the words and options of a line in their order.
* `Line.read` — the words of a line, and its options.
-/

namespace CodeQuality
namespace CommandLine

/-- A part of a command line. -/
inductive Item where
  /-- the name of a command, or an operand -/
  | word (text : String)
  /-- an option with its value, if it has one -/
  | option (o : OptionSpec) (value : Option String)
deriving DecidableEq, Repr

namespace Item

def word? : Item → Option String
  | word text => some text
  | option _ _ => none

def option? : Item → Option (OptionSpec × Option String)
  | word _ => none
  | option o value => some (o, value)

end Item

/-- What an argument looks like. -/
inductive Shape where
  | hyphens
  | long (body : String)
  | letters (cs : List Char)
  | plain

namespace Shape

/-- One hyphen alone is no option. -/
def ofChars : List Char → Shape
  | ['-', '-'] => hyphens
  | '-' :: '-' :: body => long (String.ofList body)
  | '-' :: c :: cs => letters (c :: cs)
  | _ => plain

def of (argument : String) : Shape := ofChars argument.toList

end Shape

/-- What the next argument can be. -/
inductive Mode where
  /-- options or a word -/
  | any
  /-- the value of an option, unless it begins with a hyphen -/
  | awaiting (o : OptionSpec)
  /-- nothing but a word -/
  | word
deriving DecidableEq, Repr

namespace Mode

variable (table : List OptionSpec)

/-- What stands behind two hyphens. -/
def long (body : String) : List Item × Mode :=
  let (name, value) := Level.cutAtEquals body
  match table.find? (·.long = name), value with
  | none, _ => ([], any)
  | some o, some value => ([.option o (some value)], any)
  | some o, none => if o.takesValue then ([], .awaiting o) else ([.option o none], any)

/-- The value of an option that stands behind its letter, perhaps with an equals sign between. -/
def attached : List Char → String
  | '=' :: value => String.ofList value
  | value => String.ofList value

/-- What stands behind one hyphen. -/
def letters : List Char → List Item × Mode
  | [] => ([], any)
  | c :: cs =>
    match table.find? (·.letter? = some c) with
    | none => ([], any)
    | some o =>
      if o.takesValue then
        if cs.isEmpty then ([], .awaiting o) else ([.option o (some (attached cs))], any)
      else
        let (items, mode) := letters cs
        (.option o none :: items, mode)

/-- What an argument adds to a line, and what the next one can be. -/
def read : Mode → String → List Item × Mode
  | word, argument => ([.word argument], word)
  | mode, argument =>
    match Shape.of argument with
    | .hyphens => ([], word)
    | .long body => long table body
    | .letters cs => letters table cs
    | .plain =>
      match mode with
      | awaiting o => ([.option o (some argument)], any)
      | _ => ([.word argument], any)

/-- The words and options of a line. -/
def items : Mode → List String → List Item
  | _, [] => []
  | mode, argument :: arguments =>
    (mode.read table argument).1 ++ items (mode.read table argument).2 arguments

end Mode

/-- Is an option one of the table, and has it a value if it takes one? -/
def Item.Fits (table : List OptionSpec) : Item → Prop
  | .word _ => True
  | .option o value => o ∈ table ∧ (value = none → o.takesValue = false)

namespace Mode

variable {table : List OptionSpec} {mode : Mode}

/-- Is the option that waits for its value one of the table? -/
def Fits (table : List OptionSpec) : Mode → Prop
  | awaiting o => o ∈ table
  | any | word => True

theorem fits_long (table : List OptionSpec) (body : String) :
    (∀ item ∈ (long table body).1, item.Fits table) ∧ (long table body).2.Fits table := by
  unfold long
  dsimp only
  split
  · exact ⟨nofun, trivial⟩
  · next o _ hfind _ =>
    exact ⟨List.forall_mem_singleton.mpr ⟨List.mem_of_find?_eq_some hfind, nofun⟩, trivial⟩
  · next o hfind _ =>
    have ho := List.mem_of_find?_eq_some hfind
    split
    · exact ⟨nofun, ho⟩
    · next htakes =>
      exact ⟨List.forall_mem_singleton.mpr ⟨ho, fun _ => by simpa using htakes⟩, trivial⟩

theorem attached_of_ne {cs : List Char} (h : ∀ value, cs ≠ '=' :: value) :
    attached cs = String.ofList cs := by
  unfold attached
  split
  · exact absurd rfl (h _)
  · rfl

theorem fits_letters (table : List OptionSpec) (cs : List Char) :
    (∀ item ∈ (letters table cs).1, item.Fits table) ∧ (letters table cs).2.Fits table := by
  induction cs with
  | nil => exact ⟨nofun, trivial⟩
  | cons c cs ih =>
    unfold letters
    split
    · exact ⟨nofun, trivial⟩
    · next o hfind =>
      have ho := List.mem_of_find?_eq_some hfind
      split
      · split
        · exact ⟨nofun, ho⟩
        · exact ⟨List.forall_mem_singleton.mpr ⟨ho, nofun⟩, trivial⟩
      · next htakes =>
        exact ⟨List.forall_mem_cons.mpr ⟨⟨ho, fun _ => by simpa using htakes⟩, ih.1⟩, ih.2⟩

theorem fits_read (h : mode.Fits table) (argument : String) :
    (∀ item ∈ (mode.read table argument).1, item.Fits table) ∧
      (mode.read table argument).2.Fits table := by
  have hword (text : String) : ∀ item ∈ [Item.word text], item.Fits table :=
    List.forall_mem_singleton.mpr trivial
  unfold read
  split
  · exact ⟨hword argument, trivial⟩
  · split
    · exact ⟨nofun, trivial⟩
    · exact fits_long table _
    · exact fits_letters table _
    · split
      · exact ⟨List.forall_mem_singleton.mpr ⟨h, nofun⟩, trivial⟩
      · exact ⟨hword argument, trivial⟩

theorem fits_items (h : mode.Fits table) (arguments : List String) :
    ∀ item ∈ mode.items table arguments, item.Fits table := by
  induction arguments generalizing mode with
  | nil => exact nofun
  | cons argument arguments ih =>
    obtain ⟨hitems, hnext⟩ := fits_read h argument
    intro item hitem
    rw [items] at hitem
    rcases List.mem_append.mp hitem with hitem | hitem
    · exact hitems item hitem
    · exact ih hnext item hitem

end Mode

/-- The words of a command line, and its options with their values. -/
structure Line where
  words : List String
  options : List (OptionSpec × Option String)
deriving DecidableEq, Repr

namespace Line

def ofItems (items : List Item) : Line :=
  { words := items.filterMap Item.word?, options := items.filterMap Item.option? }

/-- The line that the arguments make, where `table` holds all options. -/
def read (table : List OptionSpec) (arguments : List String) : Line :=
  ofItems (Mode.any.items table arguments)

/-- The values of an option as they stand on the line. -/
def values (line : Line) (o : OptionSpec) : List String :=
  (line.options.filter (·.1.long = o.long)).filterMap (·.2)

/-- Does the option stand on the line? -/
def has (line : Line) (o : OptionSpec) : Bool := line.options.any (·.1.long = o.long)

/-- The options of a line are in the table, and those that take a value have one. -/
theorem fits_read (table : List OptionSpec) (arguments : List String) :
    ∀ given ∈ (read table arguments).options,
      given.1 ∈ table ∧ (given.2 = none → given.1.takesValue = false) := by
  intro given hgiven
  obtain ⟨item, hitem, hoption⟩ := List.mem_filterMap.mp hgiven
  cases item with
  | word => nomatch hoption
  | option o value =>
    cases hoption
    have hany : Mode.any.Fits table := trivial
    exact Mode.fits_items hany arguments _ hitem

end Line

/-- The commands that words lead to, as far as they name any, and the words behind them. -/
def CommandSpec.resolve (c : CommandSpec) : List String → List String × List String
  | [] => ([], [])
  | word :: words =>
    match c.find? word with
    | some inner =>
      let (names, operands) := inner.resolve words
      (inner.name :: names, operands)
    | none => ([], word :: words)

end CommandLine
end CodeQuality
