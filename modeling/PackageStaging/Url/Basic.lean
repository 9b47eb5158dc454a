import PackageStaging.Url.Host

/-!
URLs by the WHATWG rules, read without a base, but for one thing: a drive letter in a path is
never taken back, whatever the scheme. The written form of a URL is normal: its scheme and domain
are lower case, a default port is left out, dots in the path are resolved, and what may not stand
for itself is percent-encoded.
-/

namespace PackageStaging

structure Url where
  scheme : String
  username : String
  password : Option String
  host : Option Host
  hasAuthority : Bool
  port : Option Nat
  path : String
  query : Option String
  fragment : Option String
  deriving DecidableEq, Repr

namespace Url

def defaultPort? : String → Option Nat
  | "http" | "ws" => some 80
  | "https" | "wss" => some 443
  | "ftp" => some 21
  | _ => none

/-- The schemes that have their own rules: those with a default port, and files. -/
def isSpecial (scheme : String) : Bool := (defaultPort? scheme).isSome || scheme == "file"

def userinfo (u : Url) : String :=
  if u.username.isEmpty ∧ u.password.isNone then ""
  else u.username ++ (u.password.elim "" (":" ++ ·)) ++ "@"

def authority (u : Url) : String :=
  if u.hasAuthority then
    "//" ++ u.userinfo ++ u.host.elim "" Host.render ++ u.port.elim "" (":" ++ toString ·)
  else if u.path.startsWith "//" then "/."
  else ""

/-- Path and query: what a request for the URL asks its server for. -/
def target (u : Url) : String := u.path ++ u.query.elim "" ("?" ++ ·)

def render (u : Url) : String :=
  u.scheme ++ ":" ++ u.authority ++ u.target ++ u.fragment.elim "" ("#" ++ ·)

/-- The text without controls and spaces at its ends, and without tabs and line ends. -/
def strip (cs : List Char) : List Char :=
  let isEdge (c : Char) : Bool := c.toNat ≤ 0x20
  let trimmed := ((cs.dropWhile isEdge).reverse.dropWhile isEdge).reverse
  trimmed.filter fun c ↦ !(c == '\t' || c == '\n' || c == '\r')

def readScheme? (cs : List Char) : Option (String × List Char) :=
  let isPart (c : Char) : Bool := c.isAlphanum || c == '+' || c == '-' || c == '.'
  match cs with
  | c :: _ =>
    match cs.dropWhile isPart with
    | ':' :: rest =>
      if c.isAlpha then some (String.ofList ((cs.takeWhile isPart).map Char.toLower), rest)
      else none
    | _ => none
  | [] => none

def isSlash (special : Bool) (c : Char) : Bool := c == '/' || (special && c == '\\')

def isPathEnd (c : Char) : Bool := c == '?' || c == '#'

def endsAuthority (special : Bool) (c : Char) : Bool := isSlash special c || isPathEnd c

def splitLastAt? (cs : List Char) : Option (List Char × List Char) :=
  match cs.reverse.dropWhile (· != '@') with
  | [] => none
  | _ :: before => some (before.reverse, cs.drop (before.length + 1))

def readUserinfo (cs : List Char) : String × Option String :=
  let encode (cs : List Char) : String := Percent.encode Percent.keepInUserinfo (String.ofList cs)
  let password := (cs.dropWhile (· != ':')).drop 1
  (encode (cs.takeWhile (· != ':')), if password.isEmpty then none else some (encode password))

/-- The characters of a host, which ends at a colon outside brackets. -/
def hostLength (special : Bool) : (inBrackets : Bool) → List Char → Nat
  | _, [] => 0
  | inBrackets, c :: cs =>
    if (c == ':' && !inBrackets) || endsAuthority special c then 0
    else hostLength special (if c = '[' then true else if c = ']' then false else inBrackets) cs + 1

def readPort (defaultPort : Option Nat) (cs : List Char) :
    Except UrlFault (Option Nat × List Char) :=
  let digits := cs.takeWhile Char.isDigit
  let port := (Host.digitsIn 10 digits).getD 0
  if 65535 < port then .error .invalidPort
  else
    let port := if digits.isEmpty ∨ some port = defaultPort then none else some port
    match cs.dropWhile Char.isDigit with
    | [] => .ok (port, [])
    | c :: rest =>
      if endsAuthority true c then .ok (port, c :: rest) else .error .invalidPort

def isSingleDot (segment : List Char) : Bool :=
  [".", "%2e"].contains (String.ofList (segment.map Char.toLower))

def isDoubleDot (segment : List Char) : Bool :=
  ["..", ".%2e", "%2e.", "%2e%2e"].contains (String.ofList (segment.map Char.toLower))

def isDriveLetter : List Char → Bool
  | [c, d] => c.isAlpha && (d == ':' || d == '|')
  | _ => false

/-- The segments, held in reverse, without the last one; a drive letter stays. -/
def dropSegment : List (List Char) → List (List Char)
  | [] => []
  | last :: outer => if isDriveLetter last then last :: outer else outer

/-- Adds segments to those found so far, which are held in reverse. -/
def resolveDots (isFile : Bool) (found : List (List Char)) : List (List Char) → List (List Char)
  | [] => found
  | segment :: rest =>
    let found :=
      if isDoubleDot segment then
        let outer := dropSegment found
        if rest.isEmpty then [] :: outer else outer
      else if isSingleDot segment then if rest.isEmpty then [] :: found else found
      else if isFile && found.isEmpty && isDriveLetter segment then [segment.take 1 ++ [':']]
      else segment :: found
    resolveDots isFile found rest

def readPath (special isFile : Bool) (cs : List Char) : String :=
  let segments := (cs.splitOnP (isSlash special)).map fun segment ↦
    segment.flatMap (Percent.ofChar Percent.keepInPath)
  let segments := (resolveDots isFile [] segments).reverse
  let segments := if isFile then segments.dropWhile List.isEmpty else segments
  "/" ++ "/".intercalate (segments.map String.ofList)

def readPathAfterAuthority (special isFile : Bool) (cs : List Char) : String :=
  match cs with
  | [] => if special then "/" else ""
  | c :: rest => readPath special isFile (if isSlash special c then rest else c :: rest)

def readTail (special : Bool) (cs : List Char) : Option String × Option String :=
  let keep := if special then Percent.keepInSpecialQuery else Percent.keepInQuery
  let fragment := match cs.dropWhile (· != '#') with
    | [] => none
    | _ :: text => some (Percent.encode Percent.keepInFragment (String.ofList text))
  match cs.takeWhile (· != '#') with
  | '?' :: text => (some (Percent.encode keep (String.ofList text)), fragment)
  | _ => (none, fragment)

def readPlain (scheme : String) (cs : List Char) : Url :=
  let text := cs.takeWhile (!isPathEnd ·)
  let (query, fragment) := readTail false (cs.dropWhile (!isPathEnd ·))
  let path := match text with
    | '/' :: rest => readPath false false rest
    | text => Percent.encode Percent.isPrintable (String.ofList text)
  ⟨scheme, "", none, none, false, none, path, query, fragment⟩

def readUser (special : Bool) (cs : List Char) :
    Except UrlFault ((String × Option String) × List Char) :=
  let authority := cs.takeWhile (!endsAuthority special ·)
  match splitLastAt? authority with
  | none => .ok (("", none), cs)
  | some (user, _) =>
    let rest := cs.drop (user.length + 1)
    match user, rest with
    | [], c :: _ => if endsAuthority special c then .error .emptyHost else .ok (("", none), rest)
    | user, rest => .ok (readUserinfo user, rest)

def readWithAuthority (scheme : String) (cs : List Char) : Except UrlFault Url := do
  let special := isSpecial scheme
  let ((username, password), cs) ← readUser special cs
  let length := hostLength special false cs
  let hostText := cs.take length
  let rest := cs.drop length
  if special && hostText.isEmpty then throw .emptyHost
  let host ← if special then Host.readSpecial hostText else Host.readPlain hostText
  let host := if host = .domain "" then none else some host
  if host.isNone && rest.head? == some ':' then throw .emptyHost
  let (port, rest) ← match rest with
    | ':' :: rest => readPort (defaultPort? scheme) rest
    | rest => pure (none, rest)
  if host.isNone && !(username.isEmpty && password.isNone) then throw .emptyHost
  let path := readPathAfterAuthority special false (rest.takeWhile (!isPathEnd ·))
  let (query, fragment) := readTail special (rest.dropWhile (!isPathEnd ·))
  return ⟨scheme, username, password, host, true, port, path, query, fragment⟩

def readFileHost (cs : List Char) : Except UrlFault (Option Host × List Char) :=
  let text := cs.takeWhile (!endsAuthority true ·)
  if isDriveLetter text then .ok (none, cs)
  else
    let rest := cs.drop text.length
    if text.isEmpty then .ok (none, rest)
    else (Host.readSpecial text).map fun host ↦
      (if host = .domain "localhost" then none else some host, rest)

def readFile (cs : List Char) : Except UrlFault Url := do
  let (host, rest) ← match cs with
    | a :: b :: rest =>
      if isSlash true a && isSlash true b then readFileHost rest else pure (none, cs)
    | cs => pure (none, cs)
  let path := readPathAfterAuthority true true (rest.takeWhile (!isPathEnd ·))
  let (query, fragment) := readTail true (rest.dropWhile (!isPathEnd ·))
  return ⟨"file", "", none, host, true, none, path, query, fragment⟩

def read (text : String) : Except UrlFault Url :=
  match readScheme? (strip text.toList) with
  | none => .error .relative
  | some (scheme, rest) =>
    if scheme = "file" then readFile rest
    else if isSpecial scheme then readWithAuthority scheme (rest.dropWhile (isSlash true))
    else
      match rest with
      | '/' :: '/' :: rest => readWithAuthority scheme rest
      | rest => .ok (readPlain scheme rest)

end Url

end PackageStaging
