/-
Slots for downloads.

At most so many downloads are in flight at a time. A task that has an
enclosure to fetch takes a slot if one is free and nobody is before it, and
queues up otherwise. When a download is over its slot goes to the first in
the queue, who is woken and takes off when its turn comes; until then the
slot is kept for it. A task without enclosure is over as soon as it begins.

The state says of every task where it is: not begun, in the queue, woken,
in flight, or over. A move takes one task one step; which moves are made,
and in which order, is not decided here. A move that a state does not allow
is no move.
-/
import FeedSieve.Download.Outcome

namespace FeedSieve.Download

/-- Where the tasks are, each known by its position among the jobs. -/
structure Slots where
  /-- How many may be in flight. -/
  limit : Nat
  /-- Not begun, in order. -/
  fresh : List Nat
  /-- In the queue, the first in front. -/
  queue : List Nat
  /-- Woken, with a slot kept for them, in the order of waking. -/
  woken : List Nat
  /-- In flight. -/
  flying : List Nat
  /-- Over, with what came of them, the latest first. -/
  settled : List (Nat × Outcome)
deriving Repr, DecidableEq

/-- One step of one task. -/
inductive Move where
  /-- A task begins. -/
  | begins (task : Nat)
  /-- A woken task takes off. -/
  | takesOff (task : Nat)
  /-- A download is over. -/
  | lands (task : Nat) (result : Result)
deriving Repr, DecidableEq

namespace Slots

/-- No task has begun. -/
def initial (limit count : Nat) : Slots := ⟨limit, List.range count, [], [], [], []⟩

/-- The slots taken or kept. -/
def held (s : Slots) : Nat := s.flying.length + s.woken.length

/-- Whether a task that begins finds a slot. -/
def isOpen (s : Slots) : Bool := s.queue.isEmpty && s.woken.isEmpty && s.held < s.limit

/-- Wakes the first in the queue if there is a slot for it. -/
def wake (s : Slots) : Slots :=
  match s.queue with
  | first :: queue =>
      if s.held < s.limit then { s with queue := queue, woken := s.woken ++ [first] } else s
  | [] => s

/-- Makes a move. -/
def move? (jobs : List Job) (s : Slots) : Move → Option Slots
  | .begins task =>
      if !s.fresh.contains task then none
      else do
        let job ← jobs[task]?
        let s := { s with fresh := s.fresh.erase task }
        return match job.url? with
          | none => { s with settled := (task, job.outcome (some noEnclosure)) :: s.settled }
          | some _ =>
              if s.isOpen then { s with flying := task :: s.flying }
              else { s with queue := s.queue ++ [task] }
  | .takesOff task =>
      if !s.woken.contains task then none
      else some (wake { s with woken := s.woken.erase task, flying := task :: s.flying })
  | .lands task result =>
      if !s.flying.contains task then none
      else do
        let job ← jobs[task]?
        return wake
          { s with
            flying := s.flying.erase task
            settled := (task, job.outcome result.reason?) :: s.settled }

end Slots

end FeedSieve.Download
