/-
Running downloads.

Tasks begin in the order of their items. A fetch is in flight for some time
and then lands; one that takes no time lands at once. When all have begun,
woken tasks take off, in the order of waking, and when none is woken time
moves on to the next landing. Every move is one that the slots allow.

How a fetch changes the world is not known here: `launch` is what happens
when it takes off, and how long it is in flight; `land` is what happens when
it lands. A landing may also stop everything. So may a task whose file has
no name; the others have begun by then.
-/
import FeedSieve.Download.Slots

namespace FeedSieve.Download

/-- What happens during a run. -/
inductive Happening where
  /-- A fetch takes off. -/
  | started (url : Text) (time : Nat)
  /-- A fetch lands. -/
  | ended (url : Text) (time : Nat)
  /-- An outcome is reported. -/
  | reported (index : Nat)
deriving Repr, DecidableEq

/-- Why a run stops. -/
inductive Stop where
  /-- A file has no name. -/
  | url (why : Url.Broken)
  /-- The user stops it. -/
  | interrupted (text : Text)
deriving Repr, DecidableEq

/-- The wording. -/
def Stop.message : Stop → Text
  | url why => why.message
  | interrupted text => text

/-- What fetches do to a world. -/
structure Fetching (World : Type) where
  /-- What happens when a fetch takes off, and how long it is in flight. -/
  launch : Text → Files.Path → World → World × Nat
  /-- What happens when it lands; a text instead of a result stops everything. -/
  land : Text → Files.Path → World → World × Except Text Result

/-- A run in progress. -/
structure Running (World : Type) where
  world : World
  slots : Slots
  /-- The time. -/
  clock : Nat
  /-- When each flight lands. -/
  landings : List (Nat × Nat)
  /-- What has happened, the latest first. -/
  happened : List Happening
  /-- What is said when everything is to stop. -/
  interrupted : Option Text

namespace Running

variable {World : Type}

/-- Makes a move, and reports the outcome if it has one. -/
def moved (jobs : List Job) (r : Running World) (move : Move) : Running World :=
  match r.slots.move? jobs move with
  | none => r
  | some slots =>
      let news := slots.settled.take (slots.settled.length - r.slots.settled.length)
      { r with slots := slots, happened := news.map (.reported ·.2.index) ++ r.happened }

/-- A flight lands. -/
def landed (fetching : Fetching World) (jobs : List Job) (task : Nat) (r : Running World) :
    Running World :=
  match (jobs[task]?).bind fun job => job.url?.map fun url => (url, job.path) with
  | none => r
  | some (url, path) =>
      let r := { r with
        landings := r.landings.filter (·.1 != task)
        happened := .ended url r.clock :: r.happened }
      match fetching.land url path r.world with
      | (world, .ok result) => moved jobs { r with world := world } (.lands task result)
      | (world, .error text) => { r with world := world, interrupted := some text }

/-- A task that has got its slot takes off. -/
def launched (fetching : Fetching World) (jobs : List Job) (task : Nat) (r : Running World) :
    Running World :=
  match (jobs[task]?).bind fun job => job.url?.map fun url => (url, job.path) with
  | none => r
  | some (url, path) =>
      let (world, span) := fetching.launch url path r.world
      let r := { r with
        world := world
        landings := r.landings ++ [(task, r.clock + span)]
        happened := .started url r.clock :: r.happened }
      if span = 0 then landed fetching jobs task r else r

/-- A task begins. -/
def began (fetching : Fetching World) (jobs : List Job) (r : Running World) (task : Nat) :
    Running World :=
  if r.interrupted.isSome then r
  else
    let r := moved jobs r (.begins task)
    if r.slots.flying.contains task then launched fetching jobs task r else r

/-- The flight that lands next. -/
def next? (landings : List (Nat × Nat)) : Option (Nat × Nat) :=
  landings.foldl (fun least flight =>
    match least with
    | none => some flight
    | some least => if flight.2 < least.2 then some flight else some least) none

/-- What happens next when all tasks have begun. -/
def advanced? (fetching : Fetching World) (jobs : List Job) (r : Running World) :
    Option (Running World) :=
  if r.interrupted.isSome then none
  else match r.slots.woken with
    | task :: _ => some (launched fetching jobs task (moved jobs r (.takesOff task)))
    | [] => (next? r.landings).map fun (task, time) =>
        landed fetching jobs task { r with clock := time }

/-- What happens until all is over; every task takes off once and lands once
at most, so twice as many steps as there are tasks are enough. -/
def finished (fetching : Fetching World) (jobs : List Job) : (steps : Nat) → Running World →
    Running World
  | 0, r => r
  | steps + 1, r =>
      match advanced? fetching jobs r with
      | none => r
      | some r => finished fetching jobs steps r

/-- All tasks begin, in order. -/
def begun (fetching : Fetching World) (jobs : List Job) (r : Running World) : Running World :=
  (List.range jobs.length).foldl (began fetching jobs) r

end Running

/-- The jobs for items, as far as their files have names, and the first
reason why one has none. -/
def jobsFor (destination : Files.Path) : List Feed.Item → List Job × Option Url.Broken
  | [] => ([], none)
  | item :: rest =>
      let (jobs, broken) := jobsFor destination rest
      match filePath item destination with
      | .ok path => (⟨item, path⟩ :: jobs, broken)
      | .error why => (jobs, some why)

/-- How a run ends. -/
structure Ended (World : Type) where
  world : World
  /-- What happened, in order. -/
  happened : List Happening
  /-- The outcomes in the order of the items, or why there are none. -/
  outcome : Except Stop (List Outcome)

/-- Downloads the enclosures of items with at most `limit` fetches in flight. -/
def run {World : Type} (fetching : Fetching World) (limit : Nat) (destination : Files.Path)
    (items : List Feed.Item) (world : World) : Ended World :=
  let (jobs, broken) := jobsFor destination items
  let start : Running World := ⟨world, Slots.initial limit jobs.length, 0, [], [], none⟩
  let begun := Running.begun fetching jobs start
  match begun.interrupted, broken with
  | some text, _ => ⟨begun.world, begun.happened.reverse, .error (.interrupted text)⟩
  | none, some why => ⟨begun.world, begun.happened.reverse, .error (.url why)⟩
  | none, none =>
      let r := Running.finished fetching jobs (2 * jobs.length) begun
      match r.interrupted with
      | some text => ⟨r.world, r.happened.reverse, .error (.interrupted text)⟩
      | none =>
          let inOrder := r.slots.settled.mergeSort fun a b => a.1 ≤ b.1
          ⟨r.world, r.happened.reverse, .ok (inItemOrder items (inOrder.map (·.2)))⟩

/-- The most fetches in flight at a time, going by what happened. -/
def mostInFlight (happened : List Happening) : Nat :=
  (happened.foldl (fun (now, most) happening =>
    match happening with
    | .started .. => (now + 1, max most (now + 1))
    | .ended .. => (now - 1, most)
    | .reported _ => (now, most)) (0, 0)).2

end FeedSieve.Download
