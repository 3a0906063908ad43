/-
The web.

To a program the web is what it answers: for every address a list of
answers still to come, of which the last is given again and again, and
nothing behind any other address. Every request is noted down, redirected
ones included.

An answer is a status with a body in chunks, or a failure instead of one;
a body may also break off. A redirection is followed, but not more than
twenty times for one request.
-/
import FeedSieve.Http.Address

namespace FeedSieve.Http

/-- How a request comes to nothing. -/
inductive Failure where
  /-- It takes too long. -/
  | timeout (text : Text)
  /-- The connection, or what is said over it, is at fault. -/
  | transport (text : Text)
  /-- The operating system is. -/
  | system (text : Text)
  /-- Something else is. -/
  | odd (text : Text)
  /-- The user breaks it off. -/
  | interrupted (text : Text)
  /-- The address is none. -/
  | address (why : BadAddress)
  /-- The program cannot introduce itself by this name. -/
  | agent (name : Text)
deriving Repr, DecidableEq

/-- A character as an escape of hexadecimal digits. -/
def escaped (c : Char) : Text :=
  if c.toNat < 0x100 then '\\' :: 'x' :: Text.hex 2 c.toNat
  else if c.toNat < 0x10000 then '\\' :: 'u' :: Text.hex 4 c.toNat
  else '\\' :: 'U' :: Text.hex 8 c.toNat

/-- Whether a character may not be in a name that the program goes by. -/
def isForeign (c : Char) : Bool := 0x80 ≤ c.toNat

/-- The message about a name with foreign characters: it is about the first
run of them. -/
def foreignMessage (name : Text) : Text :=
  let position := (name.takeWhile (!isForeign ·)).length
  let run := (name.drop position).takeWhile isForeign
  let what := match run with
    | [c] => Text.concat [" '", escaped c, "' in position ", Text.ofNat position]
    | run => Text.concat
        ["s in position ", Text.ofNat position, "-", Text.ofNat (position + run.length - 1)]
  Text.concat ["'ascii' codec can't encode character", what, ": ordinal not in range(128)"]

/-- The wording of a failure. -/
def Failure.message : Failure → Text
  | timeout text | transport text | system text | odd text | interrupted text => text
  | address why => why.message
  | agent name => foreignMessage name

/-- An answer. -/
structure Response where
  status : Int
  /-- Where it redirects to. -/
  location : Option Text
  /-- The body, in the pieces in which it comes. -/
  chunks : List Bytes
  /-- How the body breaks off, if it does. -/
  broken : Option Failure
deriving Repr, DecidableEq

/-- Whether the status is one of success. -/
def Response.isSuccess (r : Response) : Bool := 200 ≤ r.status && r.status ≤ 299

/-- Where to ask instead. -/
def Response.redirection? (r : Response) : Option Text :=
  if [301, 302, 303, 307, 308].contains r.status then r.location else none

/-- The whole body. -/
def Response.body (r : Response) : Except Failure Bytes :=
  match r.broken with
  | some failure => .error failure
  | none => .ok r.chunks.flatten

/-- The answers of the web, and the requests made to it. -/
structure Web where
  /-- The answers to come. -/
  answers : List (Text × List (Except Failure Response))
  /-- The address of every request and the name given with it, the latest first. -/
  requests : List (Text × Text)

/-- The most redirections that are followed. -/
def mostRedirections : Nat := 20

/-- What is wrong with the scheme of an address, if anything is. -/
def schemeFault? (scheme : Text) : Option Text :=
  if scheme.isEmpty then some "Request URL is missing an 'http://' or 'https://' protocol."
  else if scheme == "http".toList || scheme == "https".toList then none
  else some (Text.concat ["Request URL has an unsupported protocol '", scheme, "://'."])

namespace Web

/-- A web without answers. -/
def silent : Web := ⟨[], []⟩

/-- The web after one of several answers was given for an address. -/
def spend (web : Web) (url : Text) (rest : List (Except Failure Response)) : Web :=
  { web with answers := web.answers.map fun entry => if entry.1 = url then (url, rest) else entry }

/-- Makes a request. -/
def ask (agent : Text) (address : Address) (web : Web) : Web × Except Failure Response :=
  let url := address.text
  let web := { web with requests := (url, agent) :: web.requests }
  match schemeFault? address.scheme with
  | some text => (web, .error (.transport text))
  | none =>
      match web.answers.lookup url with
      | some [answer] => (web, answer)
      | some (answer :: rest) => (web.spend url rest, answer)
      | some [] | none => (web, .error (.transport "no route"))

/-- Makes a request and those it is redirected to, `left` of them at most. -/
def follow (agent : Text) (left : Nat) (address : Address) (web : Web) :
    Web × Except Failure Response :=
  match web.ask agent address with
  | (web, .error failure) => (web, .error failure)
  | (web, .ok response) =>
      match response.redirection? with
      | none => (web, .ok response)
      | some location =>
          match Address.ofText location with
          | .error why =>
              (web, .error (.transport
                (Text.concat ["Invalid URL in location header: ", why.message, "."])))
          | .ok location =>
              match address.redirected location, response.broken, left with
              | .error why, _, _ => (web, .error (.address why))
              | .ok _, some failure, _ => (web, .error failure)
              | .ok _, none, 0 =>
                  (web, .error (.transport "Exceeded maximum allowed redirects."))
              | .ok target, none, left + 1 => follow agent left target web

/-- Gets what is behind an address. -/
def get (agent url : Text) (web : Web) : Web × Except Failure Response :=
  if agent.any isForeign then (web, .error (.agent agent))
  else match Address.ofText url with
    | .error why => (web, .error (.address why))
    | .ok address => web.follow agent mostRedirections address.forRequest

end Web

end FeedSieve.Http
