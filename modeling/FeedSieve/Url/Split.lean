/-
The parts of a URL.

A URL is cut from the outside in: the scheme before the first colon, the
authority behind two slashes, the fragment behind the first `#`, the query
behind the first `?`; the rest is the path. Spaces and controls before the
URL do not belong to it, and neither do tabs and line ends anywhere in it.
Some schemes know parameters, behind a semicolon in the last segment of the
path; these are no part of the path either.

A part that is absent and one that is empty are the same. Brackets in the
authority must come in pairs and hold an address; characters that would
turn into delimiters under compatibility mappings are refused there.
-/
import FeedSieve.Text.Quoted
import FeedSieve.Url.Host

namespace FeedSieve.Url

/-- The parts of a URL. -/
structure Parts where
  /-- The scheme, in small letters. -/
  scheme : Text
  /-- The authority: host, perhaps with user and port. -/
  authority : Text
  path : Text
  query : Text
  fragment : Text
deriving Repr, DecidableEq

/-- Why a URL has no parts. -/
inductive Broken where
  /-- A bracket without its partner. -/
  | brackets
  /-- What stands between the brackets is no address. -/
  | address (host : Text)
  /-- An address of version 4 between brackets. -/
  | oldAddress
  /-- A malformed address of a later version. -/
  | futureAddress
  /-- A character that turns into a delimiter. -/
  | delimiter (authority : Text)
deriving Repr, DecidableEq

/-- The wording of what is wrong with a URL. -/
def Broken.message : Broken → Text
  | brackets => "Invalid IPv6 URL"
  | address host => Text.quoted host ++ " does not appear to be an IPv4 or IPv6 address".toList
  | oldAddress => "An IPv4 address cannot be in brackets"
  | futureAddress => "IPvFuture address is invalid"
  | delimiter authority => Text.concat
      ["netloc '", authority, "' contains invalid characters under NFKC normalization"]

/-- Whether a character may stand in a scheme. -/
def inScheme (c : Char) : Bool :=
  Text.isLetter c || Text.isPlainDigit c || c = '+' || c = '-' || c = '.'

/-- The characters that hold a delimiter under compatibility mappings. -/
def disguised : List Nat :=
  [0x2047, 0x2048, 0x2049, 0x2100, 0x2101, 0x2105, 0x2106, 0x2a74, 0xfe13, 0xfe16, 0xfe55,
   0xfe56, 0xfe5f, 0xfe6b, 0xff03, 0xff0f, 0xff1a, 0xff1f, 0xff20]

/-- The scheme of a URL, and the rest. -/
def cutScheme (url : Text) : Text × Text :=
  match Text.cut ':' url with
  | (c :: scheme, some rest) =>
      if Text.isLetter c && scheme.all inScheme then (Text.lowerPlain (c :: scheme), rest)
      else ([], url)
  | _ => ([], url)

/-- Whether a character ends the authority. -/
def endsAuthority (c : Char) : Bool := c = '/' || c = '?' || c = '#'

/-- The authority of a URL without its scheme, and the rest. -/
def cutAuthority (url : Text) : Text × Text :=
  match url with
  | '/' :: '/' :: rest =>
      (rest.takeWhile (!endsAuthority ·), rest.dropWhile (!endsAuthority ·))
  | _ => ([], url)

/-- Refuses an authority whose brackets are out of order. -/
def checkBrackets (authority : Text) : Except Broken Unit :=
  let opened := authority.contains '['
  let closed := authority.contains ']'
  if opened != closed then .error .brackets
  else if opened then
    let host := (Text.cut ']' ((Text.cut '[' authority).2.getD [])).1
    if host.head? = some 'v' then
      if isFutureAddress host then .ok () else .error .futureAddress
    else if isAddress4 host then .error .oldAddress
    else if isAddress6 host then .ok ()
    else .error (.address host)
  else .ok ()

/-- The URL as it is read: without what stands before it or breaks its lines. -/
def cleaned (url : Text) : Text :=
  (url.dropWhile fun c => c.toNat ≤ 0x20).filter fun c => c != '\t' && c != '\r' && c != '\n'

/-- Cuts a URL into its parts. -/
def split (url : Text) : Except Broken Parts := do
  let (scheme, rest) := cutScheme (cleaned url)
  let (authority, rest) := cutAuthority rest
  checkBrackets authority
  let (rest, fragment) := Text.cut '#' rest
  let (path, query) := Text.cut '?' rest
  if authority.any fun c => disguised.contains c.toNat then throw (.delimiter authority)
  return ⟨scheme, authority, path, query.getD [], fragment.getD []⟩

/-- The schemes whose paths have parameters; a URL without a scheme counts. -/
def parametrised : List Text :=
  ["", "ftp", "hdl", "prospero", "http", "imap", "https", "shttp", "rtsp", "rtspu", "sip",
   "sips", "mms", "sftp", "tel"]

/-- The path without the parameters of its last segment. -/
def withoutParameters (path : Text) : Text :=
  let last := (path.reverse.takeWhile (· != '/')).reverse
  let earlier := path.take (path.length - last.length)
  earlier ++ last.takeWhile (· != ';')

/-- The path of a URL proper, without parameters. -/
def Parts.plainPath (u : Parts) : Text :=
  if parametrised.contains u.scheme then withoutParameters u.path else u.path

end FeedSieve.Url
