import CodeQuality.Url.Address
import CodeQuality.Url.Domain

/-!
# URLs

The parts of an absolute URL, and its text. The schemes of the web and of files are special: their
paths are lists of segments and are never empty, and the ports that go without saying are left out.
-/

namespace CodeQuality

/-- Why a text is no absolute URL. -/
inductive UrlError where
  | relative
  | emptyHost
  | badDomain
  | badPort
  | badShortAddress
  | badLongAddress
  | badHostCharacter
deriving DecidableEq, Repr

namespace UrlError

def message : UrlError → String
  | relative => "relative URL without a base"
  | emptyHost => "empty host"
  | badDomain => "invalid international domain name"
  | badPort => "invalid port number"
  | badShortAddress => "invalid IPv4 address"
  | badLongAddress => "invalid IPv6 address"
  | badHostCharacter => "invalid domain character"

end UrlError

/-- The server that a URL names. -/
inductive Host where
  | empty
  | domain (name : List Char)
  | short (address : Nat)
  | long (groups : List Nat)
  /-- the host of a scheme that is not special -/
  | opaqueName (name : List Char)
deriving DecidableEq, Repr

/-- What comes behind the server. -/
inductive UrlPath where
  /-- the rest of a URL without a server and without a slash -/
  | whole (chars : List Char)
  | segments (segments : List (List Char))
deriving DecidableEq, Repr

/-- An absolute URL. -/
structure Url where
  scheme : List Char
  username : List Char := []
  password : List Char := []
  /-- the server; nothing if the URL has no place for one -/
  host : Option Host
  port : Option Nat := none
  path : UrlPath
  query : Option (List Char) := none
  fragment : Option (List Char) := none
deriving DecidableEq, Repr

namespace Host

def chars : Host → List Char
  | empty => []
  | domain name => name
  | short address => Address.shortChars address
  | long groups => '[' :: Address.longChars groups ++ [']']
  | opaqueName name => name

end Host

namespace UrlPath

def chars : UrlPath → List Char
  | whole cs => cs
  | segments parts => parts.flatMap ('/' :: ·)

end UrlPath

namespace Url

/-- The schemes that are special, with the ports that go without saying. -/
def specialSchemes : List (List Char × Option Nat) :=
  [("http".toList, some 80), ("https".toList, some 443), ("ws".toList, some 80),
    ("wss".toList, some 443), ("ftp".toList, some 21), ("file".toList, none)]

def isSpecialScheme (scheme : List Char) : Bool := specialSchemes.any (·.1 = scheme)

/-- The port that goes without saying. -/
def defaultPort? (scheme : List Char) : Option Nat := (specialSchemes.lookup scheme).join

def isFileScheme (scheme : List Char) : Bool := scheme = "file".toList

/-- User name and password as they stand before the host. -/
def userChars (u : Url) : List Char :=
  if u.username.isEmpty && u.password.isEmpty then []
  else
    u.username ++ (if u.password.isEmpty then [] else ':' :: u.password) ++ ['@']

def portChars (u : Url) : List Char :=
  match u.port with
  | some p => ':' :: Text.numeral p
  | none => []

/-- What stands between scheme and path. A path that begins with two slashes and has no server
before it is marked by a point, so that it is not taken for one. -/
def serverChars (u : Url) : List Char :=
  match u.host with
  | some host => '/' :: '/' :: (u.userChars ++ host.chars ++ u.portChars)
  | none =>
    match u.path with
    | .segments ([] :: _ :: _) => ['/', '.']
    | _ => []

def queryChars (u : Url) : List Char := (u.query.map ('?' :: ·)).getD []

def fragmentChars (u : Url) : List Char := (u.fragment.map ('#' :: ·)).getD []

def chars (u : Url) : List Char :=
  u.scheme ++ ':' :: (u.serverChars ++ u.path.chars ++ u.queryChars ++ u.fragmentChars)

def text (u : Url) : String := String.ofList u.chars

/-- Is `u` a URL of the web? -/
def isWeb (u : Url) : Bool := u.scheme = "http".toList || u.scheme = "https".toList

end Url
end CodeQuality
