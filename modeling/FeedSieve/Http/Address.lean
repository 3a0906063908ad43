/-
Addresses of requests.

The address of a request is read from a URL once and for all into a form
that two spellings of one address share: scheme and host in small letters,
the host in ASCII, the port left out where it is the usual one of the
scheme, points in the path resolved, and every character escaped that has no
place where it stands. Escapes that are there stay as they are.

An address without scheme or host says too little to send a request to; all
that is kept of it is a path from the root. A redirection may name such an
address, or leave out more, and is then read relative to the address that
redirects.
-/
import FeedSieve.Text.Digits
import FeedSieve.Text.Percent
import FeedSieve.Text.Quoted
import FeedSieve.Url.Host
import FeedSieve.Url.HostName

namespace FeedSieve.Http

/-- An address. -/
structure Address where
  /-- The scheme, in small letters. -/
  scheme : Text
  /-- User and password. -/
  user : Text
  /-- The host, without the brackets around an address of version 6. -/
  host : Text
  /-- The port, if it is not the usual one. -/
  port : Option Int
  path : Text
  /-- The query, if there is a question mark. -/
  query : Option Text
  /-- The fragment, if there is a hash. -/
  fragment : Option Text
deriving Repr, DecidableEq

/-- Why a text is no address. -/
inductive BadAddress where
  /-- It is longer than addresses may be. -/
  | tooLong
  /-- It has a control character in it. -/
  | control (c : Char) (position : Nat)
  /-- The host looks like an address of version 4 and is none. -/
  | host4 (host : Text)
  /-- The host is in brackets and no address of version 6. -/
  | host6 (host : Text)
  /-- The host cannot be written in ASCII. -/
  | hostName (host : Text)
  /-- The port is no number. -/
  | port (given : Text)
  /-- A path right behind the host. -/
  | detachedPath
  /-- Two slashes without a host. -/
  | slashes
  /-- A colon where a scheme should be. -/
  | colon
deriving Repr, DecidableEq

/-- The wording of what is wrong with an address. -/
def BadAddress.message : BadAddress → Text
  | tooLong => "URL too long"
  | control c position => Text.concat
      ["Invalid non-printable ASCII character in URL, ", Text.quoted [c], " at position ",
        Text.ofNat position, "."]
  | host4 host => Text.concat ["Invalid IPv4 address: ", Text.quoted host]
  | host6 host => Text.concat ["Invalid IPv6 address: ", Text.quoted host]
  | hostName host => Text.concat ["Invalid IDNA hostname: ", Text.quoted host]
  | port given => Text.concat ["Invalid port: ", Text.quoted given]
  | detachedPath => "For absolute URLs, path must be empty or begin with '/'"
  | slashes => "Relative URLs cannot have a path starting with '//'"
  | colon => "Relative URLs cannot have a path starting with ':'"

/-- The most characters of an address. -/
def lengthLimit : Nat := 65536

-- ================================================== safe characters

/-- Whether a character is printable ASCII and not among those excluded. -/
def isPlain (excluded : Text) (c : Char) : Bool :=
  0x20 ≤ c.toNat && c.toNat < 0x7f && !excluded.contains c

/-- Characters that stand for themselves in a path. -/
def inPath : Char → Bool := isPlain " \"#<>?`\x7b\x7d"

/-- Characters that stand for themselves in a query. -/
def inQuery : Char → Bool := isPlain " \"#<>"

/-- Characters that stand for themselves in a fragment. -/
def inFragment : Char → Bool := isPlain " \"<>`"

/-- Characters that stand for themselves in user and password. -/
def inUser : Char → Bool := isPlain " \"#<>?`\x7b\x7d/;=@[\\]^|"

/-- Characters that stand for themselves in a host. -/
def inHost : Char → Bool := isPlain " #/:<>?@[]^"

-- ========================================================== reading

/-- Cuts off the scheme; an empty one counts if there is a colon. -/
def cutScheme (t : Text) : Text × Text :=
  match Text.cut ':' t with
  | ([], some rest) => ([], rest)
  | (c :: name, some rest) =>
      let fits (d : Char) : Bool :=
        Text.isLetter d || Text.isPlainDigit d || "+.-".toList.contains d
      if Text.isLetter c && name.all fits then (c :: name, rest) else ([], t)
  | (_, none) => ([], t)

/-- Whether four runs of digits with one character between neighbours make
up a text: `more` runs are still to come, `within` says whether the present
one has begun. -/
def fourRuns (more : Nat) (within : Bool) : Text → Bool
  | [] => more == 0 && within
  | c :: rest =>
      (Text.isPlainDigit c && fourRuns more true rest) ||
        (within && match more with
          | 0 => false
          | more + 1 => fourRuns more false rest)

/-- The host as it is kept. -/
def readHost (host : Text) : Except BadAddress Text :=
  if fourRuns 3 false host then
    if Url.isAddress4 host then .ok host else .error (.host4 host)
  else if host.head? = some '[' && host.getLast? = some ']' then
    let inner := (host.drop 1).dropLast
    if Url.isAddress6 inner then .ok inner else .error (.host6 host)
  else if host.all Url.isPlainChar then .ok (Percent.encode inHost (Text.lowerPlain host))
  else match Url.asciiName? host with
    | some name => .ok name
    | none => .error (.hostName host)

/-- The usual port of a scheme. -/
def usualPort? (scheme : Text) : Option Int :=
  let ports : List (String × Int) :=
    [("ftp", 21), ("http", 80), ("https", 443), ("ws", 80), ("wss", 443)]
  ports.lookup (String.ofList scheme)

/-- The port as it is kept. -/
def readPort (scheme port : Text) : Except BadAddress (Option Int) :=
  if port.isEmpty then .ok none
  else match Text.integer? port with
    | none => .error (.port port)
    | some n => .ok (if usualPort? scheme = some n then none else some n)

/-- Cuts an authority into user, host and port. -/
def cutAuthority (authority : Text) : Text × Text × Text :=
  let after := (authority.reverse.takeWhile (· != '@')).reverse
  let user := (authority.take (authority.length - after.length)).dropLast
  let (host, port) :=
    if after.head? = some '[' && after.contains ']' then
      let port := (after.reverse.takeWhile (· != ']')).reverse
      (after.take (after.length - port.length), port)
    else (after.takeWhile (· != ':'), after.dropWhile (· != ':'))
  (user, host, if port.head? = some ':' then port.drop 1 else port)

/-- Follows one segment of a path: a point stays, two points lead back,
though not beyond the root. -/
def resolveSegment (before : List Text) (segment : Text) : List Text :=
  if segment = ['.'] then before
  else if segment = ['.', '.'] then (if before = [[]] then before else before.dropLast)
  else before ++ [segment]

/-- The path with its points resolved. -/
def resolvePath (path : Text) : Text :=
  let segments := Text.splitOn '/' path
  if segments.contains ['.'] || segments.contains ['.', '.'] then
    Text.joinWith "/" (segments.foldl resolveSegment [])
  else path

/-- Refuses paths that would be read as something else. -/
def checkPath (hasScheme hasAuthority : Bool) (path : Text) : Except BadAddress Unit :=
  if hasAuthority then
    if !path.isEmpty && path.head? != some '/' then .error .detachedPath else .ok ()
  else if hasScheme then .ok ()
  else if Text.beginsWith "//" path then .error .slashes
  else if path.head? = some ':' then .error .colon
  else .ok ()

namespace Address

/-- Puts an address together from its parts as they are written. -/
def ofParts (scheme user host port path : Text) (query fragment : Option Text) :
    Except BadAddress Address := do
  let user := Percent.encode inUser user
  let host ← readHost host
  let port ← readPort scheme port
  let hasScheme := !scheme.isEmpty
  let hasAuthority := !user.isEmpty || !host.isEmpty || port.isSome
  checkPath hasScheme hasAuthority path
  let path := if hasScheme || hasAuthority then resolvePath path else path
  return ⟨Text.lowerPlain scheme, user, host, port, Percent.encode inPath path,
    query.map (Percent.encode inQuery), fragment.map (Percent.encode inFragment)⟩

/-- Reads an address. -/
def ofText (t : Text) : Except BadAddress Address :=
  if lengthLimit < t.length then .error .tooLong
  else match t.zipIdx.find? fun (c, _) => c.toNat < 0x20 || c.toNat = 0x7f with
    | some (c, position) => .error (.control c position)
    | none =>
        let (scheme, rest) := cutScheme t
        let (rest, fragment) := Text.cut '#' rest
        let (rest, query) := Text.cut '?' rest
        let (authority, path) := match rest with
          | '/' :: '/' :: rest => (rest.takeWhile (· != '/'), rest.dropWhile (· != '/'))
          | path => ([], path)
        let (user, host, port) := cutAuthority authority
        ofParts scheme user host port path query fragment

/-- Host, user and port as they are written. -/
def authority (a : Address) : Text :=
  let user := if a.user.isEmpty then [] else a.user ++ ['@']
  let host := if a.host.contains ':' then '[' :: a.host ++ [']'] else a.host
  let port := match a.port with
    | some n => ':' :: Text.ofInt n
    | none => []
  Text.concat [user, host, port]

/-- Writes an address. -/
def text (a : Address) : Text :=
  let authority := a.authority
  Text.concat
    [if a.scheme.isEmpty then [] else a.scheme ++ [':'],
      if authority.isEmpty then [] else '/' :: '/' :: authority,
      a.path,
      (a.query.map ('?' :: ·)).getD [],
      (a.fragment.map ('#' :: ·)).getD []]

/-- Whether a request can be sent there, as far as the form goes. -/
def isAbsolute (a : Address) : Bool := !a.scheme.isEmpty && !a.host.isEmpty

/-- The address that a request goes to. -/
def forRequest (a : Address) : Address :=
  if a.isAbsolute then a
  else ⟨[], [], [], none, '/' :: a.path.dropWhile (· = '/'), a.query, none⟩

-- ====================================================== redirection

/-- The path of a relative address, seen from another path. -/
def pathFrom (base path : Text) : Text :=
  let written := Text.splitOn '/' path
  let segments :=
    if path.head? = some '/' then written
    else
      let before := Text.splitOn '/' base
      let before := if before.getLast? = some [] then before else before.dropLast
      let all := before ++ written
      all.take 1 ++ ((all.drop 1).dropLast.filter (!·.isEmpty)) ++
        (all.drop 1).drop (all.length - 2)
  let resolved := segments.foldl (fun before segment =>
    if segment = ['.', '.'] then before.dropLast
    else if segment = ['.'] then before
    else before ++ [segment]) []
  let ended := match segments.getLast? with
    | some ['.'] | some ['.', '.'] => resolved ++ [[]]
    | _ => resolved
  let joined := Text.joinWith "/" ended
  if joined.isEmpty then "/" else joined

/-- The text of a relative address, seen from an absolute one. -/
def textFrom (base relative : Address) : Text :=
  let given (mark : Char) (part : Option Text) : Text :=
    let body := part.getD []
    if body.isEmpty then [] else mark :: body
  let (authority, path, query) :=
    if !relative.authority.isEmpty then (relative.authority, relative.path, relative.query)
    else if relative.path.isEmpty then
      (base.authority, base.path,
        if (relative.query.getD []).isEmpty then base.query else relative.query)
    else (base.authority, pathFrom base.path relative.path, relative.query)
  let path := if !path.isEmpty && path.head? != some '/' then '/' :: path else path
  Text.concat [base.scheme, "://", authority, path, given '?' query, given '#' relative.fragment]

/-- Where a redirection from an address leads. A scheme without host means
the same host, and a fragment is handed on. -/
def redirected (base : Address) (location : Address) : Except BadAddress Address := do
  let target ←
    if !location.scheme.isEmpty && location.host.isEmpty then do
      checkPath true true location.path
      pure { location with host := base.host, path := resolvePath location.path }
    else if location.isAbsolute then pure location
    else if location.text.isEmpty then pure base
    else ofText (base.textFrom location)
  let missing := (target.fragment.getD []).isEmpty
  return if missing then { target with fragment := base.fragment } else target

end Address

end FeedSieve.Http
