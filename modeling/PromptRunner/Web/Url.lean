import PromptRunner.Web.Host

/-!
# Addresses

An address is read the way browsers read it. Blanks around it and line breaks in it are dropped; a
web address may write its slashes either way; dots in the path are resolved; and every part is
percent-encoded as far as it has to be. What is answered is the normal form, which is what goes
over the wire and what the user is shown.

A name and password in an address are not kept: they are no part of what is shown.

Names of hosts are read as far as the old code goes (`webHost?`). What else a client makes of a host
is its own affair, and it may read addresses in its own way altogether.
-/

namespace PromptRunner.Web

open PromptRunner.Text

/-- An address in its normal form. An address without a host may still have the place of one, which
is empty then; where it has no such place, it keeps its path as one piece. -/
structure Url where
  scheme : List Char
  host : Option (List Char)
  port : Option Nat
  path : List Char
  query : Option (List Char)
  fragment : Option (List Char)
  deriving DecidableEq, Repr

/-- The schemes whose addresses are read as web addresses, with the port that goes without
saying. -/
def webPort? (scheme : List Char) : Option Nat :=
  if scheme = "http".toList || scheme = "ws".toList then some 80
  else if scheme = "https".toList || scheme = "wss".toList then some 443
  else if scheme = "ftp".toList then some 21
  else none

def fileScheme : List Char := "file".toList

/-- The text without the controls and spaces around it, and without tabs and line breaks. -/
def cleaned (s : List Char) : List Char :=
  let isEdge (c : Char) : Bool := c.toNat ≤ 0x20
  let inner := ((s.dropWhile isEdge).reverse.dropWhile isEdge).reverse
  inner.filter fun c => !(c = '\t' || c = '\n' || c = '\r')

/-- The scheme in small letters, and the text behind its colon. -/
def cutScheme? (s : List Char) : Option (List Char × List Char) :=
  let scheme := s.takeWhile fun c => c.isAlphanum || c = '+' || c = '-' || c = '.'
  match scheme, s.drop scheme.length with
  | c :: _, ':' :: rest => if c.isAlpha then some (scheme.map Char.toLower, rest) else none
  | _, _ => none

def isDot (segment : List Char) : Bool :=
  let s := segment.map Char.toLower
  s = ['.'] || s = "%2e".toList

def isDoubleDot (segment : List Char) : Bool :=
  let s := segment.map Char.toLower
  [['.', '.'], ".%2e".toList, "%2e.".toList, "%2e%2e".toList].contains s

/-- The name of a drive: a letter and a colon, or a bar for it. -/
def isDrive (segment : List Char) : Bool :=
  match segment with
  | [c, d] => c.isAlpha && (d = ':' || d = '|')
  | _ => false

/-- The segments above a path, the last one first. There is nothing above a drive. -/
def above (done : List (List Char)) : List (List Char) :=
  match done with
  | [] => []
  | segment :: rest => if isDrive segment then segment :: rest else rest

/-- Segments with the dots resolved; `done` are those before, the last one first. -/
def resolveDots (done : List (List Char)) : List (List Char) → List (List Char)
  | [] => done.reverse
  | segment :: rest =>
    let done :=
      if isDoubleDot segment then
        if rest.isEmpty then [] :: above done else above done
      else if isDot segment then
        if rest.isEmpty then [] :: done else done
      else percentEncode pathSet segment :: done
    resolveDots done rest

/-- A path with its dots resolved, and every segment behind a slash. -/
def normalPath (path : List Char) : List Char :=
  match path with
  | [] => []
  | _ => (resolveDots [] (cutAt '/' (path.drop 1))).flatMap ('/' :: ·)

/-- The part before a character, and the part behind it if it is there. -/
def cutOnce (sep : Char) (s : List Char) : List Char × Option (List Char) :=
  match s.dropWhile (· ≠ sep) with
  | [] => (s, none)
  | _ :: rest => (s.takeWhile (· ≠ sep), some rest)

/-- A port: none when it is left out or goes without saying. -/
def port? (standard : Option Nat) (s : Option (List Char)) : Option (Option Nat) :=
  match s with
  | none => some none
  | some [] => some none
  | some digits =>
    if digits.all fun c => '0' ≤ c && c ≤ '9' then
      match numberOf? 10 digits with
      | some n =>
        if 65535 < n then none else some (if some n = standard then none else some n)
      | none => none
    else none

/-- The host and the text of the port, of an authority without name and password. -/
def cutPort (s : List Char) : List Char × Option (List Char) :=
  match s with
  | '[' :: _ =>
    let inner := s.takeWhile (· ≠ ']')
    match s.drop inner.length with
    | ']' :: ':' :: rest => (inner ++ [']'], some rest)
    | ']' :: rest => (inner ++ ']' :: rest, none)
    | _ => (s, none)
  | s => cutOnce ':' s

def withoutUser (authority : List Char) : List Char :=
  ((cutAt '@' authority).getLast?).getD []

/-- A slash of a web address, which may lean either way. -/
def forward (c : Char) : Char := if c = '\\' then '/' else c

/-- An address from its scheme and what follows two slashes. Only an address that is none of the web
may leave its host out. -/
def ofAuthority (scheme : List Char) (web : Option Nat) (s : List Char) : Option Url :=
  let (s, fragment) := cutOnce '#' s
  let (s, query) := cutOnce '?' s
  let s := if web.isSome then s.map forward else s
  let authority := s.takeWhile (· ≠ '/')
  let path := s.drop authority.length
  let (host, portText) := cutPort (withoutUser authority)
  let host? :=
    if web.isSome then webHost? host
    else if authority.isEmpty then some []
    else plainHost? host
  match host?, port? web portText with
  | some host, some port =>
    some
      { scheme
        host := some host
        port
        path := if web.isSome && path.isEmpty then ['/'] else normalPath path
        query := query.map (percentEncode (if web.isSome then webQuerySet else querySet))
        fragment := fragment.map (percentEncode fragmentSet) }
  | _, _ => none

/-- An address without a host, from its scheme and what follows it. -/
def ofPath (scheme s : List Char) : Url :=
  let (s, fragment) := cutOnce '#' s
  let (s, query) := cutOnce '?' s
  { scheme
    host := none
    port := none
    path :=
      match s with
      | '/' :: _ => normalPath s
      | _ => percentEncode controlSet s
    query := query.map (percentEncode querySet)
    fragment := fragment.map (percentEncode fragmentSet) }

/-- The host of a file, as far as it is named, and the path behind it. -/
def cutFile (s : List Char) : List Char × List Char :=
  match s with
  | '/' :: '/' :: rest =>
    let host := rest.takeWhile (· ≠ '/')
    if isDrive host then ([], rest) else (host, rest.drop host.length)
  | path => ([], path)

/-- The segments of the path of a file; a drive in front has its colon. -/
def fileSegments (path : List Char) : List (List Char) :=
  match cutAt '/' (if path.head? = some '/' then path.tail else path) with
  | [] => []
  | segment :: rest => (if isDrive segment then segment.take 1 ++ [':'] else segment) :: rest

/-- An address of a file, from what follows its scheme. Neither the own machine nor one with drives
is named in it. -/
def ofFile (s : List Char) : Option Url :=
  let (s, fragment) := cutOnce '#' s
  let (s, query) := cutOnce '?' s
  let (authority, path) := cutFile (s.map forward)
  let segments := fileSegments path
  match if authority.isEmpty then some [] else webHost? authority with
  | some host =>
    some
      { scheme := fileScheme
        host := some (if host = "localhost".toList || segments.head?.any isDrive then [] else host)
        port := none
        path := '/' :: ((resolveDots [] segments).flatMap ('/' :: ·)).dropWhile (· = '/')
        query := query.map (percentEncode webQuerySet)
        fragment := fragment.map (percentEncode fragmentSet) }
  | none => none

namespace Url

def parse? (text : String) : Option Url :=
  match cutScheme? (cleaned text.toList) with
  | none => none
  | some (scheme, rest) =>
    match webPort? scheme with
    | some port =>
      ofAuthority scheme (some port) (rest.dropWhile fun c => c = '/' || c = '\\')
    | none =>
      if scheme = fileScheme then ofFile rest
      else
        match rest with
        | '/' :: '/' :: rest => ofAuthority scheme none rest
        | rest => some (ofPath scheme rest)

/-- The path and the query, as they go over the wire. -/
def target (u : Url) : List Char :=
  u.path ++
    match u.query with
    | none => []
    | some q => '?' :: q

def text (u : Url) : List Char :=
  u.scheme ++ ':' ::
    (match u.host with
      | none => []
      | some host => '/' :: '/' :: host) ++
    (match u.port with
      | none => []
      | some port => ':' :: Nat.toDigits 10 port) ++
    u.target ++
    match u.fragment with
    | none => []
    | some f => '#' :: f

/-- The address with a name and a value added to its query. -/
def addQuery (u : Url) (name value : String) : Url :=
  let pair := formEncode name.toList ++ '=' :: formEncode value.toList
  let before :=
    match u.query with
    | none => []
    | some [] => []
    | some q => q ++ ['&']
  { u with query := some (before ++ pair) }

def isWeb (u : Url) : Bool := u.scheme = "http".toList || u.scheme = "https".toList

/-- Whether there is somebody to ask at an address. -/
def hasHost (u : Url) : Bool := u.host.any (!·.isEmpty)

/-- Whether an address can be sent to: it is one of the web, it is not too long, and its host has
none of the marks that may be read in a host but not sent in one. -/
def isSendable (u : Url) : Bool :=
  u.isWeb && u.text.length ≤ 65534 &&
    !(u.host.getD []).any fun c => "\"`\x7b\x7d".toList.contains c

end Url

end PromptRunner.Web
