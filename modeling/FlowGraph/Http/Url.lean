import FlowGraph.Http.Host

/-!
# Addresses

`Url.read` reads an address as browsers do, forgiving what it can: small letters for scheme and
host, no default port, no dots in the path, and percent signs for characters that may not stand
where they stand. `Url.text` writes the address in that form.
-/

namespace FlowGraph.Http

/-- The path of an address. -/
inductive UrlPath where
  /-- Names with slashes before them. -/
  | names (parts : List String)
  /-- Text without structure. -/
  | plain (text : String)
deriving DecidableEq, Repr

/-- An address. -/
structure Url where
  scheme : String
  userName : String := ""
  passWord : Option String := none
  host : Option Host
  port : Option Nat
  path : UrlPath
  query : Option String
  fragment : Option String
deriving DecidableEq, Repr

namespace Url

/-- The schemes that the web knows, with their default ports. -/
def webSchemes : List (String × Option Nat) :=
  [("http", some 80), ("https", some 443), ("ws", some 80), ("wss", some 443),
    ("ftp", some 21), ("file", none)]

/-- Whether a scheme is one of the web's. -/
def isWeb (scheme : String) : Bool := webSchemes.any fun s => s.1 = scheme

/-! ## Percent signs -/

/-- A byte as two digits after a percent sign. -/
def percentByte (b : UInt8) : List Char :=
  let digit (n : Nat) : Char := if n < 10 then Char.ofNat (48 + n) else Char.ofNat (55 + n)
  ['%', digit (b.toNat / 16), digit (b.toNat % 16)]

/-- A text in which characters beyond ASCII, controls and the given ones are written with percent
signs. -/
def percentEncode (extra : List Char) (text : List Char) : List Char :=
  text.flatMap fun c =>
    if c.toNat < 32 ∨ 126 < c.toNat ∨ extra.contains c then
      (String.singleton c).toUTF8.toList.flatMap percentByte
    else [c]

/-- Characters that are encoded in the parts of an address. -/
def fragmentMarks : List Char := [' ', '"', '<', '>', '\x60']
def pathMarks : List Char := fragmentMarks ++ ['#', '?', '{', '}']
def queryMarks : List Char := [' ', '"', '#', '<', '>']
def userMarks : List Char := pathMarks ++ ['/', ':', ';', '=', '@', '[', '\\', ']', '^', '|']

/-! ## Parts -/

/-- Split a text before the first of some marks. -/
def splitBefore (isMark : Char → Bool) (text : List Char) : List Char × List Char :=
  (text.takeWhile fun c => !isMark c, text.dropWhile fun c => !isMark c)

/-- Take a scheme and its colon. -/
def takeScheme (text : List Char) : Option (String × List Char) :=
  match text with
  | [] => none
  | c :: _ =>
    if c.isAlpha then
      let scheme := text.takeWhile fun c => c.isAlphanum || c = '+' || c = '-' || c = '.'
      match text.drop scheme.length with
      | ':' :: rest => some (String.ofList (scheme.map Char.toLower), rest)
      | _ => none
    else none

/-- Whether a part of a path is one dot, or two. -/
def isDot (part : List Char) : Bool :=
  part = ['.'] || part.map Char.toLower = ['%', '2', 'e']

def isDoubleDot (part : List Char) : Bool :=
  let part := part.map Char.toLower
  part = ['.', '.'] || part = ['.', '%', '2', 'e'] || part = ['%', '2', 'e', '.']
    || part = ['%', '2', 'e', '%', '2', 'e']

/-- The names of a path from its parts: dots are followed, and a dot at the end leaves an empty
name. -/
def pathNames : List (List Char) → List String → List String
  | [], names => names
  | part :: parts, names =>
    let last := parts.isEmpty
    if isDoubleDot part then
      pathNames parts (names.dropLast ++ if last then [""] else [])
    else if isDot part then pathNames parts (names ++ if last then [""] else [])
    else pathNames parts (names ++ [String.ofList (percentEncode pathMarks part)])

/-- Read a path that begins with a slash. -/
def readPath (web : Bool) (text : List Char) : UrlPath :=
  let text := if web then text.map fun c => if c = '\\' then '/' else c else text
  match text with
  | '/' :: rest => .names (pathNames (splitAt '/' rest) [])
  | rest => .names (pathNames (splitAt '/' rest) [])

/-- Split query and fragment off. -/
def splitTail (text : List Char) : List Char × Option (List Char) × Option (List Char) :=
  let (before, fragment) := splitBefore (· = '#') text
  let (path, query) := splitBefore (· = '?') before
  (path, query.tail?, fragment.tail?)

/-- Read a port: nothing, or a number that fits sixteen bits. -/
def readPort (text : List Char) : Option (Option Nat) :=
  if text.isEmpty then some none
  else
    match Text.digitsValue? text with
    | some n => if n < 65536 then some (some n) else none
    | none => none

/-- Split a host from the port after it. A colon between brackets belongs to the host. -/
def splitPort : Bool → List Char → List Char × Option (List Char)
  | _, [] => ([], none)
  | inside, c :: rest =>
    if c = ':' ∧ ¬inside then ([], some rest)
    else
      let (host, port) := splitPort (if c = '[' then true else if c = ']' then false else inside) rest
      (c :: host, port)

/-- Split a name and what follows it from the host: at the last at sign. -/
def splitUser (text : List Char) : Option (List Char) × List Char :=
  match splitAt '@' text with
  | [] => (none, text)
  | [host] => (none, host)
  | parts =>
    (some ((parts.dropLast.intersperse ['@']).flatten), (parts.getLast?).getD [])

/-- The parts of an address that say where it is. -/
structure Authority where
  userName : String
  passWord : Option String
  host : Host
  port : Option Nat

/-- Read an authority. -/
def readAuthority (scheme : String) (text : List Char) : Option Authority := do
  let (user, text) := splitUser text
  let (name, pass) := splitPort false (user.getD [])
  let (hostText, portText) := splitPort false text
  let host ← if isWeb scheme then Host.read hostText
    else if hostText.any fun c => Host.isForbidden c ∧ c ≠ '%' ∧ c ≠ '[' ∧ c ≠ ':' ∧ c ≠ ']' then none
    else some (.foreign (String.ofList (percentEncode [] hostText)))
  let port ← readPort (portText.getD [])
  let encode (text : List Char) : String := String.ofList (percentEncode userMarks text)
  some {
    userName := encode name
    passWord := if pass = some [] then none else pass.map encode
    host
    port := if port = ((webSchemes.lookup scheme).getD none) then none else port }

/-- Read an address that stands on its own. -/
def read (text : String) : Option Url := do
  let isEdge (c : Char) : Bool := c.toNat ≤ 32
  let text := ((text.toList.dropWhile isEdge).reverse.dropWhile isEdge).reverse
  let text := text.filter fun c => c ≠ '\t' ∧ c ≠ '\n' ∧ c ≠ '\r'
  let (scheme, rest) ← takeScheme text
  let web := isWeb scheme
  let (before, query, fragment) := splitTail rest
  let query := query.map fun q =>
    String.ofList (percentEncode (if web then queryMarks ++ ['\''] else queryMarks) q)
  let fragment := fragment.map fun f => String.ofList (percentEncode fragmentMarks f)
  let located (text : List Char) : Option Url := do
    let isSlash (c : Char) : Bool := c = '/' || (web && c = '\\')
    let (place, path) := splitBefore isSlash text
    let a ← readAuthority scheme place
    let path := if path.isEmpty ∧ ¬web then .names [] else readPath web path
    some {
      scheme, userName := a.userName, passWord := a.passWord, host := some a.host,
      port := a.port, path, query, fragment }
  if scheme = "file" then
    let path := match before with
      | '/' :: '/' :: rest => rest
      | rest => rest
    some { scheme, host := none, port := none, path := readPath true path, query, fragment }
  else if web then located (before.dropWhile fun c => c = '/' || c = '\\')
  else match before with
    | '/' :: '/' :: rest => located rest
    | '/' :: _ =>
      some { scheme, host := none, port := none, path := readPath false before, query, fragment }
    | _ =>
      some {
        scheme, host := none, port := none,
        path := .plain (String.ofList (percentEncode [] before)), query, fragment }

/-! ## Writing -/

/-- The path as written. -/
def pathText : UrlPath → String
  | .names parts => String.join (parts.map ("/" ++ ·))
  | .plain text => text

/-- An optional part after its mark. -/
def marked (mark : String) : Option String → String
  | some text => mark ++ text
  | none => ""

/-- The scheme and host of an address, with its port. -/
def origin (u : Url) : String :=
  let port := match u.port with
    | some n => ":" ++ toString n
    | none => ""
  match u.host with
  | some host =>
    let pass := marked ":" u.passWord
    let user := if u.userName = "" ∧ pass = "" then "" else u.userName ++ pass ++ "@"
    u.scheme ++ "://" ++ user ++ host.text ++ port
  | none => if u.scheme = "file" then "file://" else u.scheme ++ ":"

/-- The address in its usual form. -/
def text (u : Url) : String :=
  u.origin ++ pathText u.path ++ marked "?" u.query ++ marked "#" u.fragment

/-! ## Queries -/

/-- A text as a part of a form: blanks become plus signs. -/
def formEncode (text : String) : String :=
  let plain (c : Char) : Bool := c.isAlphanum || c = '*' || c = '-' || c = '.' || c = '_'
  String.ofList (text.toList.flatMap fun c =>
    if c = ' ' then ['+']
    else if plain c then [c]
    else (String.singleton c).toUTF8.toList.flatMap percentByte)

/-- Add pairs to the query; an empty query is dropped. -/
def addQuery (u : Url) (pairs : List (String × String)) : Url :=
  let added := pairs.map fun p => formEncode p.1 ++ "=" ++ formEncode p.2
  let parts := match u.query with
    | some q => if q = "" then added else q :: added
    | none => added
  let query := String.intercalate "&" parts
  { u with query := if query = "" then none else some query }

/-- The address that a reference stands for when it is found at an address of the web. -/
def resolve (base : Url) (reference : String) : Option Url :=
  match takeScheme reference.toList with
  | some _ => read reference
  | none =>
    let root := { base with query := none, fragment := none }
    match reference.toList with
    | [] => some { base with fragment := none }
    | '/' :: '/' :: _ => read (base.scheme ++ ":" ++ reference)
    | '/' :: _ => read (base.origin ++ reference)
    | '?' :: _ => read (root.text ++ reference)
    | '#' :: _ => read ({ base with fragment := none }.text ++ reference)
    | _ =>
      let folder := match root.path with
        | .names parts => pathText (.names parts.dropLast)
        | .plain _ => ""
      read (base.origin ++ folder ++ "/" ++ reference)

end Url

end FlowGraph.Http
