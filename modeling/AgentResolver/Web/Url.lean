import AgentResolver.Web.Host

/-!
# URLs

The basic URL parser of the URL standard, without state override, and the members of the `URL`
class that are built on it. The states of the parser that read a component are functions on the
rest of the input; a state that accumulates a buffer up to a delimiter is written as a split at
that delimiter. `none` is failure, which the constructor turns into an exception.
-/

namespace Web

open JavaScript

inductive UrlPath where
  | segments (list : List ScalarString)
  | flat (path : ScalarString)
  deriving DecidableEq

/-- A URL record. `flat` paths are the opaque ones of the standard. -/
structure Url where
  scheme : ScalarString
  username : ScalarString
  password : ScalarString
  host : Option Host
  port : Option Nat
  path : UrlPath
  query : Option ScalarString
  fragment : Option ScalarString
  deriving DecidableEq

/-- A record with a scheme and nothing else. -/
def Url.ofScheme (scheme : ScalarString) : Url where
  scheme := scheme
  username := []
  password := []
  host := none
  port := none
  path := .segments []
  query := none
  fragment := none

/-- The special schemes with their default ports; `file` has none. -/
def specialSchemes : List (ScalarString × Option Nat) :=
  [("ftp".toList, some 21), ("file".toList, none), ("http".toList, some 80),
    ("https".toList, some 443), ("ws".toList, some 80), ("wss".toList, some 443)]

def isSpecialScheme (scheme : ScalarString) : Bool := specialSchemes.any (·.1 == scheme)

def defaultPort (scheme : ScalarString) : Option Nat := (specialSchemes.lookup scheme).join

def Url.isSpecial (url : Url) : Bool := isSpecialScheme url.scheme

/-! ## Path, query and fragment -/

def isSingleDot (segment : ScalarString) : Bool :=
  (segment.map asciiLowerChar) ∈ [".".toList, "%2e".toList]

def isDoubleDot (segment : ScalarString) : Bool :=
  (segment.map asciiLowerChar) ∈
    ["..".toList, ".%2e".toList, "%2e.".toList, "%2e%2e".toList]

def isAlphaChar (c : Char) : Bool := ('a' ≤ c && c ≤ 'z') || ('A' ≤ c && c ≤ 'Z')

def isWindowsDriveLetter : ScalarString → Bool
  | [letter, mark] => isAlphaChar letter && (mark == ':' || mark == '|')
  | _ => false

def isNormalizedWindowsDriveLetter (segment : ScalarString) : Bool :=
  isWindowsDriveLetter segment && segment.getLast? == some ':'

/-- The input starts with a Windows drive letter that ends there or at a path delimiter. -/
def startsWithWindowsDriveLetter : ScalarString → Bool
  | letter :: mark :: rest =>
      isWindowsDriveLetter [letter, mark] &&
        (rest.isEmpty || rest.head?.any fun c => c == '/' || c == '\\' || c == '?' || c == '#')
  | _ => false

/-- Shorten a URL's path. -/
def shortenPath (scheme : ScalarString) (path : List ScalarString) : List ScalarString :=
  match path with
  | [only] => if scheme = "file".toList && isNormalizedWindowsDriveLetter only then path else []
  | _ => path.dropLast

/-- What the path state does with a complete, encoded segment; `last` says that no separator
follows it. -/
def addSegment (scheme : ScalarString) (path : List ScalarString) (segment : ScalarString)
    (last : Bool) : List ScalarString :=
  if isDoubleDot segment then
    if last then shortenPath scheme path ++ [[]] else shortenPath scheme path
  else if isSingleDot segment then
    if last then path ++ [[]] else path
  else if scheme = "file".toList && path.isEmpty && isWindowsDriveLetter segment then
    path ++ [segment.take 1 ++ [':']]
  else path ++ [segment]

/-- The path state over the segments of its input. -/
def walkPath (scheme : ScalarString) (path : List ScalarString) :
    List ScalarString → List ScalarString
  | [] => path
  | [segment] => addSegment scheme path (percentEncode inPathSet segment) true
  | segment :: rest =>
      walkPath scheme (addSegment scheme path (percentEncode inPathSet segment) false) rest

/-- A path delimiter: `/`, and `\` in special URLs. -/
def isSlash (special : Bool) (c : Char) : Bool := c == '/' || (special && c == '\\')

/-- The fragment state. -/
def parseFragment (url : Url) (input : ScalarString) : Url :=
  { url with fragment := some (percentEncode inFragmentSet input) }

/-- The query state. -/
def parseQuery (url : Url) (input : ScalarString) : Url :=
  let set := if url.isSpecial then inSpecialQuerySet else inQuerySet
  let query := input.takeWhile (· != '#')
  let url := { url with query := some (percentEncode set query) }
  match input.dropWhile (· != '#') with
  | [] => url
  | _ :: fragment => parseFragment url fragment

/-- What follows a path: nothing, a query or a fragment. -/
def parseAfterPath (url : Url) : ScalarString → Url
  | [] => url
  | c :: rest => if c = '?' then parseQuery url rest else parseFragment url rest

/-- The path state, appending to `path`. -/
def parsePath (url : Url) (path : List ScalarString) (input : ScalarString) : Url :=
  let inPath (c : Char) : Bool := c != '?' && c != '#'
  let segments := (input.takeWhile inPath).splitOnP (isSlash url.isSpecial)
  parseAfterPath { url with path := .segments (walkPath url.scheme path segments) }
    (input.dropWhile inPath)

/-- The path start state. -/
def parsePathStart (url : Url) (input : ScalarString) : Url :=
  match input with
  | [] => if url.isSpecial then parsePath url [] [] else url
  | c :: rest =>
      if isSlash url.isSpecial c then parsePath url [] rest
      else if !url.isSpecial && (c = '?' || c = '#') then parseAfterPath url input
      else parsePath url [] input

/-- The opaque path state. -/
def parseFlatPath (url : Url) (input : ScalarString) : Url :=
  let inPath (c : Char) : Bool := c != '?' && c != '#'
  parseAfterPath
    { url with path := .flat (percentEncode inC0ControlSet (input.takeWhile inPath)) }
    (input.dropWhile inPath)

/-! ## Authority -/

/-- The text before and after the last `@`. -/
def splitCredentials (authority : ScalarString) : Option ScalarString × ScalarString :=
  match (authority.splitOn '@').reverse with
  | last :: rest@(_ :: _) => (some (['@'].intercalate rest.reverse), last)
  | _ => (none, authority)

/-- The host text and, after a `:` outside brackets, the port text. -/
def splitPort (inBrackets : Bool) : ScalarString → ScalarString × Option ScalarString
  | [] => ([], none)
  | c :: rest =>
      if c = ':' && !inBrackets then ([], some rest)
      else
        let (host, port) :=
          splitPort (if c = '[' then true else if c = ']' then false else inBrackets) rest
        (c :: host, port)

/-- The port state: failure, no port, or a port that is not the default one. -/
def parsePort (scheme digits : ScalarString) : Option (Option Nat) :=
  if !digits.all isDigit then none
  else if digits.isEmpty then some none
  else
    match digitsValue 10 digits with
    | none => none
    | some port =>
        if port > 65535 then none
        else if defaultPort scheme = some port then some none
        else some (some port)

/-- The authority, host and port states, then the path start state. -/
def parseAuthority (idna : Idna) (url : Url) (input : ScalarString) : Option Url :=
  let inAuthority (c : Char) : Bool := !(isSlash url.isSpecial c || c == '?' || c == '#')
  let authority := input.takeWhile inAuthority
  let rest := input.dropWhile inAuthority
  let (credentials, hostPort) := splitCredentials authority
  let (hostText, portText) := splitPort false hostPort
  if credentials.isSome && hostPort.isEmpty then none
  else if hostText.isEmpty && (url.isSpecial || portText.isSome) then none
  else do
    let host ← parseHost idna url.isSpecial hostText
    let port ← parsePort url.scheme (portText.getD [])
    let login := credentials.getD []
    let username := login.takeWhile (· != ':')
    let password := (login.dropWhile (· != ':')).drop 1
    return parsePathStart
      { url with
        username := percentEncode inUserinfoSet username
        password := percentEncode inUserinfoSet password
        host := some host
        port := port } rest

/-! ## Relative references and files -/

/-- The segments of a path that has them. -/
def pathSegments : UrlPath → List ScalarString
  | .segments list => list
  | .flat _ => []

/-- The copy of the base that a relative reference starts from. -/
def Url.withoutTail (base : Url) : Url := { base with query := none, fragment := none }

/-- The relative slash state; `input` follows the first slash. -/
def parseRelativeSlash (idna : Idna) (base : Url) (input : ScalarString) : Option Url :=
  match input with
  | [] => some (parsePath base.withoutTail [] [])
  | c :: rest =>
      if base.isSpecial && isSlash true c then
        parseAuthority idna (.ofScheme base.scheme) (rest.dropWhile (isSlash true))
      else if c = '/' then parseAuthority idna (.ofScheme base.scheme) rest
      else some (parsePath base.withoutTail [] input)

/-- The relative state. -/
def parseRelative (idna : Idna) (base : Url) (input : ScalarString) : Option Url :=
  match input with
  | [] => some { base with fragment := none }
  | c :: rest =>
      if isSlash base.isSpecial c then parseRelativeSlash idna base rest
      else if c = '?' then some (parseQuery base.withoutTail rest)
      else if c = '#' then some (parseFragment base rest)
      else
        some (parsePath base.withoutTail (shortenPath base.scheme (pathSegments base.path)) input)

/-- A `file` record without a host name. -/
def emptyFile : Url := { Url.ofScheme "file".toList with host := some (.nonSpecial []) }

/-- The file host state. -/
def parseFileHost (idna : Idna) (url : Url) (input : ScalarString) : Option Url :=
  let inHost (c : Char) : Bool := !(isSlash true c || c == '?' || c == '#')
  let hostText := input.takeWhile inHost
  if isWindowsDriveLetter hostText then some (parsePath url [] input)
  else if hostText.isEmpty then some (parsePathStart url (input.dropWhile inHost))
  else do
    let host ← parseHost idna true hostText
    let host := if host = .domain "localhost".toList then .nonSpecial [] else host
    return parsePathStart { url with host := some host } (input.dropWhile inHost)

/-- The file slash state; `base` is a `file` base, if there is one. -/
def parseFileSlash (idna : Idna) (base : Option Url) (input : ScalarString) : Option Url :=
  if input.head?.any (isSlash true) then parseFileHost idna emptyFile (input.drop 1)
  else
    match base with
    | none => some (parsePath emptyFile [] input)
    | some base =>
        let drive := (pathSegments base.path).take 1
        let path :=
          if !startsWithWindowsDriveLetter input && drive.any isNormalizedWindowsDriveLetter then
            drive
          else []
        some (parsePath { emptyFile with host := base.host } path input)

/-- The file state. -/
def parseFile (idna : Idna) (base : Option Url) (input : ScalarString) : Option Url :=
  let base := base.filter fun base => base.scheme = "file".toList
  if input.head?.any (isSlash true) then parseFileSlash idna base (input.drop 1)
  else
    match base, input with
    | none, _ => some (parsePath emptyFile [] input)
    | some base, [] => some { base with fragment := none }
    | some base, c :: rest =>
        if c = '?' then some (parseQuery base.withoutTail rest)
        else if c = '#' then some (parseFragment base rest)
        else
          let path :=
            if startsWithWindowsDriveLetter input then []
            else shortenPath base.scheme (pathSegments base.path)
          some (parsePath base.withoutTail path input)

/-! ## The parser -/

/-- Leading and trailing C0 controls and spaces, and all tabs and newlines, are removed. -/
def stripInput (input : ScalarString) : ScalarString :=
  let isC0OrSpace (c : Char) : Bool := isC0Control c || c == ' '
  ((input.dropWhile isC0OrSpace).rdropWhile isC0OrSpace).filter
    fun c => !(c == '\t' || c == '\n' || c == '\r')

/-- The scheme states: the lower-cased scheme and the text after its colon. -/
def splitScheme : ScalarString → Option (ScalarString × ScalarString)
  | [] => none
  | c :: rest =>
      let inScheme (d : Char) : Bool :=
        isAlphaChar d || isDigit d || d == '+' || d == '-' || d == '.'
      if isAlphaChar c then
        match rest.dropWhile inScheme with
        | ':' :: remaining => some ((c :: rest.takeWhile inScheme).map asciiLowerChar, remaining)
        | _ => none
      else none

/-- The states that follow a scheme and its colon. -/
def parseAfterScheme (idna : Idna) (base : Option Url) (scheme input : ScalarString) :
    Option Url :=
  if scheme = "file".toList then parseFile idna base input
  else if isSpecialScheme scheme then
    match base.filter fun base => base.scheme = scheme with
    | some base =>
        if "//".toList.isPrefixOf input then
          parseAuthority idna (.ofScheme scheme) (input.dropWhile (isSlash true))
        else parseRelative idna base input
    | none => parseAuthority idna (.ofScheme scheme) (input.dropWhile (isSlash true))
  else
    match input with
    | '/' :: '/' :: rest => parseAuthority idna (.ofScheme scheme) rest
    | '/' :: rest => some (parsePath (.ofScheme scheme) [] rest)
    | _ => some (parseFlatPath (.ofScheme scheme) input)

/-- The no scheme state. -/
def parseNoScheme (idna : Idna) (base : Option Url) (input : ScalarString) : Option Url :=
  match base with
  | none => none
  | some base =>
      match base.path with
      | .flat _ =>
          if input.head? = some '#' then some (parseFragment base (input.drop 1)) else none
      | .segments _ =>
          if base.scheme = "file".toList then parseFile idna (some base) input
          else parseRelative idna base input

/-- The basic URL parser. -/
def parseUrl (idna : Idna) (base : Option Url) (input : ScalarString) : Option Url :=
  let input := stripInput input
  match splitScheme input with
  | some (scheme, rest) => parseAfterScheme idna base scheme rest
  | none => parseNoScheme idna base input

/-! ## Serialization -/

def serializePath : UrlPath → ScalarString
  | .flat path => path
  | .segments list => list.flatMap fun segment => '/' :: segment

def serializePort (port : Option Nat) : ScalarString :=
  match port with
  | none => []
  | some port => ':' :: Nat.toDigits 10 port

def Url.serializeAuthority (url : Url) : ScalarString :=
  match url.host with
  | some host =>
      let login :=
        if url.username.isEmpty && url.password.isEmpty then []
        else url.username ++ (if url.password.isEmpty then [] else ':' :: url.password) ++ ['@']
      "//".toList ++ login ++ serializeHost host ++ serializePort url.port
  | none =>
      match url.path with
      | .segments ([] :: _ :: _) => "/.".toList
      | _ => []

/-- The URL serializer. -/
def Url.serialize (url : Url) : ScalarString :=
  url.scheme ++ ':' :: url.serializeAuthority ++ serializePath url.path ++
    (url.query.elim [] fun query => '?' :: query) ++
    (url.fragment.elim [] fun fragment => '#' :: fragment)

/-- `new URL(input)`, `none` standing for the exception. -/
def newUrl (idna : Idna) (input : JSString) : Option Url := parseUrl idna none (toScalars input)

/-- `new URL(input, base)`. -/
def newUrlWithBase (idna : Idna) (input base : JSString) : Option Url :=
  match newUrl idna base with
  | none => none
  | some base => parseUrl idna (some base) (toScalars input)

/-- `url.toString()` and `url.href`. -/
def Url.href (url : Url) : JSString := ofScalars url.serialize

def Url.protocol (url : Url) : JSString := ofScalars (url.scheme ++ [':'])

def Url.hostname (url : Url) : JSString := ofScalars (url.host.elim [] serializeHost)

/-- `url.host`: the host with the port. -/
def Url.hostPort (url : Url) : JSString :=
  ofScalars (url.host.elim [] fun host => serializeHost host ++ serializePort url.port)

def Url.portText (url : Url) : JSString := ofScalars ((serializePort url.port).drop 1)

def Url.pathname (url : Url) : JSString := ofScalars (serializePath url.path)

def Url.search (url : Url) : JSString :=
  match url.query with
  | none => []
  | some query => if query.isEmpty then [] else ofScalars ('?' :: query)

/-- `url.origin` of a URL with a host whose scheme is special and not `file`. Other URLs have
opaque origins, except `blob` ones, whose origin is not modelled. -/
def Url.origin (url : Url) : JSString :=
  if url.isSpecial && url.scheme != "file".toList then
    ofScalars (url.scheme ++ "://".toList ++ url.host.elim [] serializeHost ++
      serializePort url.port)
  else text "null"

/-! ## Query parameters -/

/-- The `application/x-www-form-urlencoded` parser on the query of a URL. -/
def parseUrlencoded (query : ScalarString) : List (ScalarString × ScalarString) :=
  let unescape (s : ScalarString) : ScalarString :=
    decode (percentDecode (encode (s.map fun c => if c = '+' then ' ' else c)))
  ((query.splitOn '&').filter fun sequence => !sequence.isEmpty).map fun sequence =>
    (unescape (sequence.takeWhile (· != '=')),
      unescape ((sequence.dropWhile (· != '=')).drop 1))

/-- `url.searchParams.get(name)`. -/
def Url.searchParam (url : Url) (name : JSString) : Option JSString :=
  ((parseUrlencoded (url.query.getD [])).lookup (toScalars name)).map ofScalars

end Web
