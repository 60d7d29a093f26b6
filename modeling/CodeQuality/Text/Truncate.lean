/-!
# Cutting a text to a length

A text that is too long keeps its beginning and shows by three dots that more followed. Where not
even the dots would leave room for anything, the text is cut without them.
-/

namespace CodeQuality
namespace Text

/-- `s` cut to at most `max` characters. -/
def truncate (s : String) (max : Nat) : String :=
  let cs := s.toList
  if cs.length ≤ max then s
  else if 3 < max then String.ofList (cs.take (max - 3) ++ ['.', '.', '.'])
  else String.ofList (cs.take max)

end Text
end CodeQuality
