import FlowGraph.Http.Url
import FlowGraph.Json.Printer

/-!
# Requests

A node asks for a request with a `HttpCall`, whose parts are any texts and values.
`HttpCall.request` makes a well-formed `HttpRequest` of it or says what is wrong: the method comes
first, then the address, then each header.
-/

namespace FlowGraph.Http

/-- A request as a node asks for it. -/
structure HttpCall where
  method : String
  url : String
  headers : Fields := []
  /-- Pairs that are added to the query of the address. -/
  query : Option Fields := none
  body : Option Json := none

/-- A well-formed request. Names of headers are in small letters. -/
structure HttpRequest where
  method : String
  url : Url
  headers : List (String × String)
  body : Option String
deriving DecidableEq, Repr

/-- Why a request gets no answer. -/
inductive HttpFault where
  | badMethod (text : String)
  /-- The address or a header is malformed. -/
  | malformed
  /-- The address is not one of the web. -/
  | badScheme (url : Url)
  | unreachable (url : Url)
  /-- The answers redirect too often. -/
  | endless (url : Url)
  /-- The body of the answer breaks off. -/
  | brokenBody
deriving DecidableEq, Repr

namespace HttpRequest

/-- Characters of methods and of names of headers. -/
def isTokenChar (c : Char) : Bool :=
  c.isAlphanum || ['!', '#', '$', '%', '&', '\'', '*', '+', '-', '.', '^', '_', '\x60', '|', '~'].contains c

/-- Whether a text is a method or the name of a header. -/
def isToken (text : List Char) : Bool := !text.isEmpty && text.all isTokenChar

/-- The characters beyond ASCII whose capitals are plain letters. -/
def specialCapitals : List (Nat × List Char) :=
  [(0xDF, ['S', 'S']), (0x131, ['I']), (0x17F, ['S']), (0xFB00, ['F', 'F']),
    (0xFB01, ['F', 'I']), (0xFB02, ['F', 'L']), (0xFB03, ['F', 'F', 'I']),
    (0xFB04, ['F', 'F', 'L']), (0xFB05, ['S', 'T']), (0xFB06, ['S', 'T'])]

/-- A character in capitals, as far as plain letters go. -/
def capital (c : Char) : List Char :=
  (specialCapitals.lookup c.toNat).getD [c.toUpper]

/-- A method in capitals, if it is one. -/
def readMethod (text : String) : Option String :=
  let method := text.toList.flatMap capital
  if isToken method then some (String.ofList method) else none

/-- Whether a text may be the value of a header. -/
def isHeaderValue (text : String) : Bool :=
  text.toList.all fun c => (32 ≤ c.toNat && c.toNat ≠ 127) || c = '\t'

/-- A header, its name in small letters. -/
def readHeader (name value : String) : Option (String × String) :=
  if isToken name.toList ∧ isHeaderValue value then
    some (String.ofList (name.toList.map Char.toLower), value)
  else none

/-- Add a header unless there is one of its name. -/
def addDefault (headers : List (String × String)) (name value : String) :
    List (String × String) :=
  if headers.any fun h => h.1 = name then headers else headers ++ [(name, value)]

/-- The digits of numbers below 64. -/
def digit64 (n : Nat) : Char :=
  if n < 26 then Char.ofNat (65 + n)
  else if n < 52 then Char.ofNat (71 + n)
  else if n < 62 then Char.ofNat (n - 4)
  else if n = 62 then '+' else '/'

/-- Bytes in digits of six bits each. -/
def base64 : List UInt8 → List Char
  | [] => []
  | [a] =>
    let n := a.toNat * 16
    [digit64 (n / 64), digit64 (n % 64), '=', '=']
  | [a, b] =>
    let n := (a.toNat * 256 + b.toNat) * 4
    [digit64 (n / 4096), digit64 (n / 64 % 64), digit64 (n % 64), '=']
  | a :: b :: c :: rest =>
    let n := (a.toNat * 256 + b.toNat) * 256 + c.toNat
    digit64 (n / 262144) :: digit64 (n / 4096 % 64) :: digit64 (n / 64 % 64) :: digit64 (n % 64)
      :: base64 rest

/-- The header that stands for the name and password in an address. -/
def credentials (url : Url) : List (String × String) :=
  if url.userName = "" ∧ url.passWord = none then []
  else
    let decode (text : String) : List UInt8 := Host.percentDecode text.toUTF8.toList
    let bytes := decode url.userName ++ (58 : UInt8) :: decode (url.passWord.getD "")
    [("authorization", "Basic " ++ String.ofList (base64 bytes))]

end HttpRequest

namespace HttpCall

/-- The well-formed request that a call asks for. -/
def request (call : HttpCall) : Except HttpFault HttpRequest := do
  let method ← match HttpRequest.readMethod call.method with
    | some method => .ok method
    | none => .error (.badMethod call.method)
  let url ← match Url.read call.url with
    | some url => .ok url
    | none => .error .malformed
  if url.host = none then .error (.badScheme url)
  else
    let own ← call.headers.mapM fun (name, value) =>
      match HttpRequest.readHeader name value.display with
      | some h => .ok h
      | none => .error HttpFault.malformed
    let url' := { url with userName := "", passWord := none }
    let url' := match call.query with
      | some pairs => url'.addQuery (pairs.map fun p => (p.1, p.2.display))
      | none => url'
    if url.scheme = "http" ∨ url.scheme = "https" then
      let headers := HttpRequest.credentials url ++ own
      let headers := if call.body.isSome then
          HttpRequest.addDefault headers "content-type" "application/json"
        else headers
      .ok {
        method
        url := url'
        headers := HttpRequest.addDefault headers "accept" "*/*"
        body := call.body.map Json.compact }
    else .error (.badScheme url')

end HttpCall

end FlowGraph.Http
