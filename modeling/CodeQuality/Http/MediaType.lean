/-!
# Media types

The type of a body, as its header gives it: two names with a slash between them and parameters
behind semicolons. Only the parameter that names the character encoding is of interest here; a
header that breaks the grammar names none.
-/

namespace CodeQuality
namespace Http
namespace MediaType

/-- The characters of names and of values without quotes. -/
def isTokenChar (c : Char) : Bool :=
  c.isAlphanum || c ∈ ['!', '#', '$', '%', '&', '*', '+', '-', '.', '^', '_', '|', '~'] ||
    c.toNat ∈ [0x27, 0x60]

/-- The characters of values between quotes. -/
def isQuotedChar (c : Char) : Bool := 0x20 < c.toNat && c.toNat ≠ 0x7F && c ≠ '"' || c = ' '

/-- The name of a parameter, and what stands behind its equals sign. -/
def splitName (cs : List Char) : Option (List Char × List Char) :=
  let cs := cs.dropWhile (· = ' ')
  match cs.takeWhile isTokenChar, cs.dropWhile isTokenChar with
  | [], _ => none
  | name, '=' :: rest => some (name, rest)
  | _, _ => none

/-- The value of a parameter, and what stands behind it. -/
def splitValue : List Char → Option (List Char × List Char)
  | '"' :: cs =>
    match cs.dropWhile isQuotedChar with
    | '"' :: rest => some (cs.takeWhile isQuotedChar, rest.dropWhile (· = ' '))
    | _ => none
  | cs => some (cs.takeWhile isTokenChar, cs.dropWhile isTokenChar)

/-- The parameters in `cs`, of which there are at most `fuel`. -/
def parameters : (fuel : Nat) → List Char → Option (List (List Char × List Char))
  | _, [] => some []
  | 0, _ => none
  | fuel + 1, c :: cs => do
    if c ≠ ';' then none
    if cs.isEmpty then return []
    let (name, cs) ← splitName cs
    let (value, cs) ← splitValue cs
    return (name, value) :: (← parameters fuel cs)

/-- The character encoding that a header names. -/
def charset? (header : String) : Option String :=
  let cs := header.toList
  match cs.takeWhile isTokenChar, cs.dropWhile isTokenChar with
  | _ :: _, '/' :: rest =>
    match rest.takeWhile isTokenChar, rest.dropWhile isTokenChar with
    | _ :: _, rest => do
      let ps ← parameters rest.length rest
      let p ← ps.find? fun p => p.1.map Char.toLower = "charset".toList
      return String.ofList p.2
    | _, _ => none
  | _, _ => none

example : charset? "text/html; charset=iso-8859-1" = some "iso-8859-1" := by decide +kernel
example : charset? "a/b;x=1;Charset=\"utf-16le\" " = some "utf-16le" := by decide +kernel
example : charset? "garbage" = none := by decide +kernel

end MediaType
end Http
end CodeQuality
