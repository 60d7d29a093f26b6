import CodeQuality.Text.Parts
import CodeQuality.Url.Percent

/-!
# Forms

A list of names and values written as one text, as queries and request bodies hold it: names and
values are separated by an equals sign and pairs by ampersands. Letters, digits and four marks stand
for themselves, a blank is a plus sign, and every other octet is escaped.
-/

namespace CodeQuality
namespace Form

/-- The characters that stand for themselves. -/
def isPlain (c : Char) : Bool :=
  c.isAlphanum || c = '*' || c = '-' || c = '.' || c = '_'

def encodeChar (c : Char) : List Char :=
  if c = ' ' then ['+']
  else if isPlain c then [c]
  else (String.utf8EncodeChar c).flatMap Percent.escape

/-- A name or a value. -/
def encodePart (s : String) : List Char := s.toList.flatMap encodeChar

def encodePair (p : String × String) : List Char := encodePart p.1 ++ '=' :: encodePart p.2

/-- The form that holds `pairs`. -/
def encode : List (String × String) → List Char
  | [] => []
  | [p] => encodePair p
  | p :: ps => encodePair p ++ '&' :: encode ps

/-- The form that holds `pairs`. -/
def text (pairs : List (String × String)) : String := String.ofList (encode pairs)

/-! ### Reading -/

/-- What a name or a value stands for. -/
def decodePart (cs : List Char) : String :=
  String.ofList (Text.ofOctetsLossy (Percent.decode (cs.map fun c => if c = '+' then ' ' else c)))

/-- `cs` up to the first `separator`, and what follows it. -/
def cut (separator : Char) (cs : List Char) : List Char × List Char :=
  (cs.takeWhile (· ≠ separator), (cs.dropWhile (· ≠ separator)).drop 1)

/-- The pair that a part of a form holds. -/
def decodePair (cs : List Char) : String × String :=
  let (name, value) := cut '=' cs
  (decodePart name, decodePart value)

/-- The pairs that a form holds; empty parts hold none. -/
def decode (cs : List Char) : List (String × String) :=
  ((Text.split '&' cs).filter (!·.isEmpty)).map decodePair

end Form
end CodeQuality
