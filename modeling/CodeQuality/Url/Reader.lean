import CodeQuality.Url.Basic

/-!
# Reading URLs

A text is read from its front: the scheme up to the first colon, the server behind two slashes with
user information, host and port, the path, the query and the fragment. Blanks and controls around
the text and line breaks inside it do not count. Segments `.` and `..` of a path are resolved, and
each part is written with the escapes it needs, so that what is read is what the URL's own text
says.
-/

namespace CodeQuality
namespace Url

/-- The characters of a text that count. -/
def significant (s : String) : List Char :=
  let isEdge (c : Char) : Bool := c.toNat ≤ 0x20
  let cs := ((s.toList.dropWhile isEdge).reverse.dropWhile isEdge).reverse
  cs.filter fun c => !(c = '\t' || c = '\n' || c = '\r')

def isSchemeChar (c : Char) : Bool := c.isAlphanum || c = '+' || c = '-' || c = '.'

/-- The scheme in small letters, and what follows its colon. -/
def splitScheme (cs : List Char) : Option (List Char × List Char) :=
  if (cs.head?).any Char.isAlpha then
    match cs.dropWhile isSchemeChar with
    | ':' :: rest => some ((cs.takeWhile isSchemeChar).map Char.toLower, rest)
    | _ => none
  else none

/-- A slash; for special schemes a backslash is one too. -/
def isSlash (special : Bool) (c : Char) : Bool := c = '/' || (special && c = '\\')

/-- Does `c` end the server? -/
def endsServer (special : Bool) (c : Char) : Bool := isSlash special c || c = '?' || c = '#'

/-! ### Path, query and fragment -/

/-- Does a segment mean the same as a point? -/
def isHere (segment : List Char) : Bool :=
  segment.map Char.toLower ∈ [".", "%2e"].map String.toList

/-- Does a segment mean the segment above? -/
def isAbove (segment : List Char) : Bool :=
  segment.map Char.toLower ∈ ["..", "%2e.", ".%2e", "%2e%2e"].map String.toList

/-- The parts of `cs` between slashes. -/
def splitSegments (special : Bool) : List Char → List (List Char)
  | [] => [[]]
  | c :: cs =>
    if isSlash special c then [] :: splitSegments special cs
    else
      match splitSegments special cs with
      | [] => [[c]]
      | part :: parts => (c :: part) :: parts

/-- Is `segment` a letter with a colon or a bar, which names a drive in a file URL? -/
def isDrive (segment : List Char) : Bool :=
  match segment with
  | [c, d] => c.isAlpha && (d = ':' || d = '|')
  | _ => false

/-- The segments without the last one; in a file URL a drive that stands alone is kept. -/
def shorten (file : Bool) (read : List (List Char)) : List (List Char) :=
  match read with
  | [] => []
  | [segment] => if file && isDrive segment then [segment] else []
  | _ :: rest => rest

/-- Appends segments to those in `read`, which holds the last one first. -/
def appendSegments (file : Bool) : (read : List (List Char)) → List (List Char) → List (List Char)
  | read, [] => read.reverse
  | read, segment :: segments =>
    let isLast := segments.isEmpty
    if isAbove segment then
      let read := shorten file read
      appendSegments file (if isLast then [] :: read else read) segments
    else if isHere segment then
      appendSegments file (if isLast then [] :: read else read) segments
    else
      let segment :=
        if file && read.isEmpty && isDrive segment then segment.take 1 ++ [':'] else segment
      appendSegments file (segment :: read) segments

/-- The segments that `cs` spells behind its first slash. -/
def readSegments (special file : Bool) (cs : List Char) : List (List Char) :=
  let segments := appendSegments file [] ((splitSegments special cs).map (Percent.encode Percent.inPath))
  if file then
    match segments.dropWhile List.isEmpty with
    | [] => [[]]
    | segments => segments
  else segments

/-- What a URL has behind its server or scheme: the path, and from the first question mark or hash
on the rest. -/
def splitPath (cs : List Char) : List Char × List Char :=
  let inside (c : Char) : Bool := c ≠ '?' && c ≠ '#'
  (cs.takeWhile inside, cs.dropWhile inside)

/-- Query and fragment of `u`, as `cs` spells them. -/
def withTail (u : Url) (cs : List Char) : Url :=
  let encodeQuery :=
    Percent.encode (if isSpecialScheme u.scheme then Percent.inSpecialQuery else Percent.inQuery)
  let encodeFragment := Percent.encode Percent.inFragment
  match cs with
  | '?' :: cs =>
    let query := cs.takeWhile (· ≠ '#')
    match cs.dropWhile (· ≠ '#') with
    | '#' :: fragment =>
      { u with query := some (encodeQuery query), fragment := some (encodeFragment fragment) }
    | _ => { u with query := some (encodeQuery query) }
  | '#' :: fragment => { u with fragment := some (encodeFragment fragment) }
  | _ => u

/-- The path behind a server. -/
def readPath (scheme : List Char) (cs : List Char) : UrlPath :=
  let special := isSpecialScheme scheme
  match cs with
  | [] => if special then .segments [[]] else .segments []
  | c :: rest =>
    .segments (readSegments special (isFileScheme scheme) (if isSlash special c then rest else cs))

/-! ### Server -/

/-- The host of a special scheme. -/
def readHost (cs : List Char) : Except UrlError Host :=
  match cs with
  | '[' :: rest =>
    if rest.getLast? = some ']' then
      match Address.long? rest.dropLast with
      | some groups => .ok (.long groups)
      | none => .error .badLongAddress
    else .error .badLongAddress
  | _ =>
    match Domain.ofOctets? (Percent.decode cs) with
    | none => .error .badDomain
    | some [] => .error .emptyHost
    | some name =>
      if Address.endsInNumber name then
        match Address.short? name with
        | some address => .ok (.short address)
        | none => .error .badShortAddress
      else .ok (.domain name)

/-- The characters that no host of a scheme that is not special holds. -/
def isForbiddenInHost (c : Char) : Bool :=
  c = '\x00' || c = '\t' || c = '\n' || c = '\r' || c = ' ' || c = '#' || c = '/' || c = ':' ||
    c = '<' || c = '>' || c = '?' || c = '@' || c = '[' || c = '\\' || c = ']' || c = '^' || c = '|'

/-- The host of a scheme that is not special. -/
def readOpaqueHost (cs : List Char) : Except UrlError Host :=
  match cs with
  | '[' :: _ => readHost cs
  | [] => .ok .empty
  | _ =>
    if cs.any isForbiddenInHost then .error .badHostCharacter
    else .ok (.opaqueName (Percent.encode Percent.isControl cs))

/-- The host at the front of `cs`, which a colon ends outside brackets, and what follows it. -/
def splitHost (special : Bool) : (inBrackets : Bool) → List Char → List Char × List Char
  | _, [] => ([], [])
  | inBrackets, c :: cs =>
    if endsServer special c || (c = ':' && !inBrackets) then ([], c :: cs)
    else
      let (host, rest) := splitHost special (c = '[' || (inBrackets && c ≠ ']')) cs
      (c :: host, rest)

/-- The port at the front of `cs`, which stands behind a colon, and what follows it. No digits at
all are no port. -/
def readPort (scheme : List Char) (cs : List Char) : Except UrlError (Option Nat × List Char) :=
  let ds := cs.takeWhile Char.isDigit
  let rest := cs.dropWhile Char.isDigit
  let port := Text.numeralValue ds
  if 65535 < port then .error .badPort
  else if (rest.head?).any fun c => !endsServer true c then .error .badPort
  else if ds.isEmpty || defaultPort? scheme = some port then .ok (none, rest)
  else .ok (some port, rest)

/-- What stands before the last `@` in the server, if there is one, and what follows. -/
def splitUser (special : Bool) (cs : List Char) : Option (List Char) × List Char :=
  let server := cs.takeWhile (!endsServer special ·)
  if server.contains '@' then
    let host := (server.reverse.takeWhile (· ≠ '@')).reverse
    (some (server.take (server.length - host.length - 1)), cs.drop (server.length - host.length))
  else (none, cs)

/-- User name and password. -/
def readUser (cs : List Char) : List Char × List Char :=
  let encode := Percent.encode Percent.inUserInfo
  (encode (cs.takeWhile (· ≠ ':')), encode ((cs.dropWhile (· ≠ ':')).drop 1))

/-- A URL whose server is at the front of `cs`. -/
def readServer (scheme : List Char) (cs : List Char) : Except UrlError Url := do
  let special := isSpecialScheme scheme
  let (user, cs) := splitUser special cs
  if user = some [] && (cs.head?).any (endsServer special) then throw .emptyHost
  let (username, password) := readUser (user.getD [])
  let (name, cs) := splitHost special false cs
  if special && name.isEmpty then throw .emptyHost
  let host ← if special then readHost name else readOpaqueHost name
  if host = .empty && cs.head? = some ':' then throw .emptyHost
  let (port, cs) ←
    match cs with
    | ':' :: cs => readPort scheme cs
    | cs => pure (none, cs)
  if host = .empty && !(username.isEmpty && password.isEmpty) then throw .emptyHost
  let (path, tail) := splitPath cs
  return withTail { scheme, username, password, host := some host, port, path := readPath scheme path } tail

/-- A file URL behind its scheme. -/
def readFile (scheme : List Char) (cs : List Char) : Except UrlError Url := do
  let file (host : Host) (cs : List Char) : Url :=
    let (path, tail) := splitPath cs
    withTail { scheme, host := some host, path := readPath scheme path } tail
  match cs with
  | c :: d :: rest =>
    if isSlash true c && isSlash true d then
      let name := rest.takeWhile (!endsServer true ·)
      if name.isEmpty || isDrive name then return file .empty rest
      else
        let host ← readHost name
        let u := file host (rest.dropWhile (!endsServer true ·))
        let isDropped :=
          host = .domain "localhost".toList ||
            match u.path with
            | .segments (segment :: _) => isDrive segment
            | _ => false
        return if isDropped then { u with host := some .empty } else u
    else return file .empty cs
  | _ => return file .empty cs

/-- The URL that a text spells. -/
def read (s : String) : Except UrlError Url :=
  match splitScheme (significant s) with
  | none => .error .relative
  | some (scheme, rest) =>
    if isFileScheme scheme then readFile scheme rest
    else if isSpecialScheme scheme then readServer scheme (rest.dropWhile (isSlash true))
    else
      match rest with
      | '/' :: '/' :: rest => readServer scheme rest
      | '/' :: rest =>
        let (path, tail) := splitPath rest
        .ok (withTail { scheme, host := none, path := .segments (readSegments false false path) } tail)
      | _ =>
        let (path, tail) := splitPath rest
        .ok (withTail
          { scheme, host := none, path := .whole (Percent.encode Percent.isControl path) } tail)

end Url
end CodeQuality
