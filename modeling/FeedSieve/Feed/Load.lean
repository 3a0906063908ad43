/-
Loading a feed from where it is.

A feed comes from the web or from a file. If it is not said which, the
scheme of its source decides. What was got there is read as a document,
with one exception: bytes that spell the path of a file stand for what is
in that file.
-/
import FeedSieve.Feed.Reader
import FeedSieve.Feed.Source
import FeedSieve.World

namespace FeedSieve.Feed

open Files (Path)

/-- Why a feed is not loaded. -/
inductive Unloaded where
  /-- The server says no. -/
  | status (source : Text) (status : Int)
  /-- The server does not say anything. -/
  | unreachable (source text : Text)
  /-- The file cannot be read. -/
  | file (source : Text) (fault : Files.Fault)
  /-- What is there is no feed. -/
  | content (failure : Failure)
  /-- The source is a broken address. -/
  | url (why : Url.Broken)
  /-- Something odd happens on the web, or the address is none. -/
  | web (failure : Http.Failure)
  /-- The source is no path. -/
  | nul
  /-- There is no such home directory. -/
  | homeless
deriving Repr, DecidableEq

/-- The wording. -/
def Unloaded.message : Unloaded → Text
  | status source code => Text.concat
      ["HTTP ", Text.ofInt code, " while fetching ", source]
  | unreachable source text => Text.concat ["Could not reach ", source, ": ", text]
  | file source fault => Text.concat ["Could not read feed file ", source, ": ", fault.message]
  | content failure => failure.message
  | url why => why.message
  | web failure => failure.message
  | nul => Files.Fault.nul.message
  | homeless => World.homelessMessage

/-- The content of a feed on the web. -/
def fromWeb (agent url : Text) (world : World) : World × Except Unloaded Bytes :=
  let (web, answer) := world.web.get agent url
  let content := do
    let response ← answer
    let body ← response.body
    return (response, body)
  ({ world with web := web },
    match content with
    | .ok (response, body) =>
        if response.isSuccess then .ok body else .error (.status url response.status)
    | .error (.timeout text) | .error (.transport text) => .error (.unreachable url text)
    | .error failure => .error (.web failure))

/-- The content of a feed in a file. -/
def fromFile (source : Text) (world : World) : Except Unloaded Bytes :=
  match world.expand? (.ofText source) with
  | none => .error .homeless
  | some path =>
      match world.files.read path with
      | .ok bytes => .ok bytes
      | .error .nul => .error .nul
      | .error fault => .error (.file source fault)

/-- What bytes stand for: the content of a file if they spell its path,
themselves otherwise. -/
def meant (files : Files.Tree) (bytes : Bytes) : Bytes :=
  if bytes.isEmpty then bytes
  else match Utf8.decode bytes with
    | .error _ => bytes
    | .ok path => ((files.read (.ofText path)).toOption).getD bytes

/-- Whether a feed is on the web. -/
def onWeb (source : Text) : Option Bool → Except Unloaded Bool
  | some known => .ok known
  | none => (isUrl source).mapError .url

/-- The content of a feed. -/
def content (agent source : Text) (known : Option Bool) (world : World) :
    World × Except Unloaded Bytes :=
  match onWeb source known with
  | .error why => (world, .error why)
  | .ok true => fromWeb agent source world
  | .ok false => (world, fromFile source world)

/-- Loads a feed. `known` says whether it is on the web, if that is known. -/
def load (agent source : Text) (known : Option Bool) (world : World) :
    World × Except Unloaded Channel :=
  match content agent source known world with
  | (world, .error why) => (world, .error why)
  | (world, .ok bytes) =>
      (world, (read world.library (meant world.files bytes) source).mapError .content)

end FeedSieve.Feed
