import FlowGraph.Error
import FlowGraph.Http.Request
import FlowGraph.Json.Reader
import FlowGraph.Text.Utf8

/-!
# The client

An `Exchange` carries a request to its peer and brings the reply. `Exchange.send` makes a call
over it, follows redirections, and gives the reply as nodes see it.
-/

namespace FlowGraph.Http

/-- A reply as it comes from a peer. Without a body the reply broke off. -/
structure HttpReply where
  status : Nat
  headers : List (String × ByteArray) := []
  body : Option ByteArray := some .empty

/-- How requests are carried to peers of state `ν`; without a reply the peer was not reached. -/
abbrev Exchange (ν : Type) := HttpRequest → ν → Option HttpReply × ν

/-- A reply as nodes see it. -/
structure HttpAnswer where
  status : Nat
  headers : Fields
  /-- The body as a value if it is JSON, else as text. -/
  body : Json
deriving DecidableEq, Repr

namespace HttpFault

/-- The failure of the node that made the call. -/
def toNodeError : HttpFault → NodeError
  | badMethod text => .invalidInputType "method" "HTTP method" text
  | malformed => failed "builder error"
  | badScheme url => failed ("builder error" ++ about url)
  | unreachable url => failed ("error sending request" ++ about url)
  | endless url => failed ("error following redirect" ++ about url)
  | brokenBody => .collaborator "Failed to read response: error decoding response body"
where
  failed (text : String) : NodeError := .collaborator ("HTTP request failed: " ++ text)
  about (url : Url) : String := " for url (" ++ url.text ++ ")"

end HttpFault

namespace HttpReply

/-- The value of a header as text: empty unless all of it is visible. -/
def headerText (bytes : ByteArray) : String :=
  if bytes.toList.all fun b => b = 9 || (32 ≤ b && b < 127) then Text.lossyText bytes else ""

/-- The headers by their names in small letters. -/
def fields (reply : HttpReply) : Fields :=
  Keyed.ofEntries (reply.headers.map fun h =>
    (String.ofList (h.1.toList.map Char.toLower), .str (headerText h.2)))

/-- The reply as nodes see it. -/
def answer (reply : HttpReply) : Except HttpFault HttpAnswer :=
  match reply.body with
  | none => .error .brokenBody
  | some bytes =>
    let text := Text.lossyText bytes
    let body := match Json.read text with
      | .ok v => v
      | .error _ => .str text
    .ok ⟨reply.status, reply.fields, body⟩

end HttpReply

namespace HttpAnswer

/-- Whether the status says that all went well. -/
def isSuccess (a : HttpAnswer) : Bool := 200 ≤ a.status && a.status < 300

end HttpAnswer

/-! ## Redirections -/

namespace HttpRequest

/-- The headers that are not shown to another host. -/
def secretHeaders : List String :=
  ["authorization", "cookie", "cookie2", "proxy-authorization", "www-authenticate"]

/-- The headers that belong to a body. -/
def bodyHeaders : List String :=
  ["content-type", "content-length", "content-encoding", "transfer-encoding"]

/-- Leave out headers. -/
def dropHeaders (names : List String) (headers : List (String × String)) :
    List (String × String) :=
  headers.filter fun h => !names.contains h.1

/-- The request that goes to another address after a redirection. Some redirections drop the
body. -/
def redirected (r : HttpRequest) (status : Nat) (next : Url) : HttpRequest :=
  let dropsBody := status = 301 ∨ status = 302 ∨ status = 303
  let headers := if dropsBody then dropHeaders bodyHeaders r.headers else r.headers
  let headers :=
    if next.host = r.url.host ∧ next.port = r.url.port ∧ next.scheme = r.url.scheme then headers
    else dropHeaders secretHeaders headers
  let headers := dropHeaders ["referer"] headers
  let headers :=
    if r.url.scheme = "https" ∧ next.scheme = "http" then headers
    else headers ++ [("referer", { r.url with fragment := none }.text)]
  {
    method := if dropsBody ∧ r.method ≠ "HEAD" then "GET" else r.method
    url := { next with userName := "", passWord := none }
    headers
    body := if dropsBody then none else r.body }

end HttpRequest

/-- Where a reply redirects to, if it does. -/
def HttpReply.redirection? (reply : HttpReply) (url : Url) : Option Url :=
  if [301, 302, 303, 307, 308].contains reply.status then do
    let location ← reply.headers.find? fun h =>
      String.ofList (h.1.toList.map Char.toLower) = "location"
    url.resolve (← String.fromUTF8? location.2)
  else none

namespace Exchange

variable {ν : Type}

/-- How many redirections are followed. -/
def maxRedirections : Nat := 10

/-- Carry a request, and those that replies redirect it to. -/
def perform (exchange : Exchange ν) : Nat → HttpRequest → ν → Except HttpFault HttpReply × ν
  | left, r, peers =>
    match exchange r peers with
    | (none, peers) => (.error (.unreachable r.url), peers)
    | (some reply, peers) =>
      match reply.redirection? r.url, left with
      | none, _ => (.ok reply, peers)
      | some _, 0 => (.error (.endless r.url), peers)
      | some next, left + 1 =>
        if next.scheme = "http" ∨ next.scheme = "https" then
          perform exchange left (r.redirected reply.status next) peers
        else (.error (.badScheme next), peers)

/-- Make a call. -/
def send (exchange : Exchange ν) (call : HttpCall) (peers : ν) :
    Except HttpFault HttpAnswer × ν :=
  match call.request with
  | .error fault => (.error fault, peers)
  | .ok r =>
    match perform exchange maxRedirections r peers with
    | (.error fault, peers) => (.error fault, peers)
    | (.ok reply, peers) => (reply.answer, peers)

end Exchange

end FlowGraph.Http
