import CodeQuality.Decimal.Shortest
import CodeQuality.Json.Value
import CodeQuality.Text.Quoted

/-!
# Why a document is refused

The causes fall into three groups: the text breaks the grammar, a value is not of the kind that was
expected, or a record has not the members it should have. `Cause.message` words each of them.
-/

namespace CodeQuality
namespace Json

/-- How floating point numbers are laid out. -/
def numberLayout : Decimal.Layout := ⟨-5, 15, true⟩

/-- The text of a number. -/
def Number.text : Number → String
  | .integer n => toString n
  | .float x => numberLayout.text x

/-- What stood in the document. -/
inductive Found where
  | null
  | flag (b : Bool)
  | number (n : Number)
  | text (s : String)
  | list
  | object
deriving DecidableEq, Repr

namespace Found

def describe : Found → String
  | null => "null"
  | flag b => s!"boolean `{b}`"
  | number (.integer n) => s!"integer `{n}`"
  | number (.float x) => "floating point `" ++ numberLayout.text x ++ "`"
  | text s => "string " ++ Text.quoted s
  | list => "sequence"
  | object => "map"

end Found

/-- What was expected instead. -/
inductive Expected where
  | text
  | flag
  | count
  | signed
  | list
  | record (name : String)
  /-- a record written as the list of its members -/
  | elements (name : String) (count : Nat)
  | tagName
  | tag
  | soleMember
  | nothing
  | fewerElements
deriving DecidableEq, Repr

namespace Expected

def describe : Expected → String
  | text => "a string"
  | flag => "a boolean"
  | count => "u32"
  | signed => "i32"
  | list => "a sequence"
  | record name => s!"struct {name}"
  | elements name 1 => s!"struct {name} with 1 element"
  | elements name n => s!"struct {name} with {n} elements"
  | tagName => "variant identifier"
  | tag => "string or map"
  | soleMember => "map with a single key"
  | nothing => "unit"
  | fewerElements => "fewer elements in array"

end Expected

/-- Why a document is refused. -/
inductive Cause where
  | endInList
  | endInObject
  | endInText
  | endInValue
  | colonExpected
  | listCommaExpected
  | objectCommaExpected
  | nameExpected
  | valueExpected
  | badEscape
  | badNumber
  | numberTooLarge
  | controlInText
  | keyNotText
  | loneSurrogate
  | trailingComma
  | trailingCharacters
  | surrogateUnpaired
  | tooDeep
  | wrongKind (found : Found) (expected : Expected)
  | wrongValue (found : Found) (expected : Expected)
  | wrongLength (length : Nat) (expected : Expected)
  | missingMember (name : String)
  | repeatedMember (name : String)
  | badDate (text : String)
  /-- the record that the value was taken for has a fault of its own -/
  | badRecord (noun : String) (cause : Cause)
deriving DecidableEq, Repr

namespace Cause

def message : Cause → String
  | endInList => "EOF while parsing a list"
  | endInObject => "EOF while parsing an object"
  | endInText => "EOF while parsing a string"
  | endInValue => "EOF while parsing a value"
  | colonExpected => "expected `:`"
  | listCommaExpected => "expected `,` or `]`"
  | objectCommaExpected => "expected `,` or `\x7d`"
  | nameExpected => "expected ident"
  | valueExpected => "expected value"
  | badEscape => "invalid escape"
  | badNumber => "invalid number"
  | numberTooLarge => "number out of range"
  | controlInText => "control character (\\u0000-\\u001F) found while parsing a string"
  | keyNotText => "key must be a string"
  | loneSurrogate => "lone leading surrogate in hex escape"
  | trailingComma => "trailing comma"
  | trailingCharacters => "trailing characters"
  | surrogateUnpaired => "unexpected end of hex escape"
  | tooDeep => "recursion limit exceeded"
  | wrongKind found expected => "invalid type: " ++ found.describe ++ ", expected " ++ expected.describe
  | wrongValue found expected => "invalid value: " ++ found.describe ++ ", expected " ++ expected.describe
  | wrongLength length expected => s!"invalid length {length}, expected " ++ expected.describe
  | missingMember name => s!"missing field `{name}`"
  | repeatedMember name => s!"duplicate field `{name}`"
  | badDate text => s!"invalid date '{text}'"
  | badRecord noun cause => s!"invalid {noun}: " ++ cause.message

end Cause

/-- What a value is, in the words of an error. -/
def Value.found : Value → Found
  | .null => .null
  | .flag b => .flag b
  | .number n => .number n
  | .text s => .text s
  | .list _ => .list
  | .object _ => .object

end Json
end CodeQuality
