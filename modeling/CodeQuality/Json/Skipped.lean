import CodeQuality.Json.Container
import CodeQuality.Json.NumberText

/-!
# Passing over a value

A value that nobody needs is checked for its syntax only. It may be nested to any depth: the
containers that are open are kept as a list, the innermost first.
-/

namespace CodeQuality
namespace Json
namespace Skipped

open Reader

/-- A container that is open. -/
inductive Frame where
  | list
  | object
deriving DecidableEq, Repr

namespace Frame

def close : Frame → Char
  | list => ']'
  | object => '}'

def atEnd : Frame → Cause
  | list => .endInList
  | object => .endInObject

def commaExpected : Frame → Cause
  | list => .listCommaExpected
  | object => .objectCommaExpected

/-- Passes over what stands before a value: name and colon in an object, nothing in a list. -/
def lead : Frame → Reader Unit
  | list => return ()
  | object => do
    match ← peekBehindSpace with
    | some '"' => skip
    | some _ => failAhead .keyNotText
    | none => failHere .endInObject
    Quoted.skipBody
    Container.colon

end Frame

/-- Passes over a value that holds no others, or over the bracket that opens a container. -/
def leaf : Reader (Option Frame) := do
  match ← peekBehindSpace with
  | none => failHere .endInValue
  | some 'n' => do
    skip
    letters ['u', 'l', 'l']
    return none
  | some 't' => do
    skip
    letters ['r', 'u', 'e']
    return none
  | some 'f' => do
    skip
    letters ['a', 'l', 's', 'e']
    return none
  | some '"' => do
    skip
    Quoted.skipBody
    return none
  | some '[' => do
    skip
    return some .list
  | some '{' => do
    skip
    return some .object
  | some c =>
    if c = '-' || c.isDigit then do
      NumberText.skipNumber
      return none
    else failAhead .valueExpected

/-- Passes over closing brackets up to the next value. `behindValue` tells whether a value of the
innermost container has just ended, so that a comma may come. The result is what is still open. -/
def closings : (behindValue : Bool) → (frames : List Frame) → Reader (List Frame)
  | _, [] => return []
  | behindValue, frame :: frames => do
    match ← peekBehindSpace with
    | none => failHere frame.atEnd
    | some c =>
      if c = ',' && behindValue then
        skip
        frame.lead
        return frame :: frames
      else if c = frame.close then
        skip
        closings true frames
      else if behindValue then failAhead frame.commaExpected
      else
        frame.lead
        return frame :: frames

/-- Passes over values, at most `fuel`, until all containers are closed. -/
def values : (fuel : Nat) → (frames : List Frame) → Reader Unit
  | 0, _ => failHere .endInValue
  | fuel + 1, frames => do
    let opened ← leaf
    let frames ←
      match opened with
      | some frame => closings false (frame :: frames)
      | none => closings true frames
    if frames.isEmpty then return () else values fuel frames

/-- Passes over a value. -/
def value : Reader Unit := do
  let c ← get
  values (c.rest.length + 1) []

end Skipped
end Json
end CodeQuality
