/-
What is known of a run when it is over.

A run has four stages, one after another: reading the query, loading the
feed, selecting items, and the mode itself. The first that fails ends it.
So it is enough to keep what the stages that succeeded have counted, and how
the run ended: the others never began.
-/
import FeedSieve.Console.Shown
import FeedSieve.Run.Failure

namespace FeedSieve.Run

open Console (Shown)

/-- What a stage says about itself. -/
inductive Figure where
  | word (t : Text)
  | count (n : Nat)
deriving Repr, DecidableEq

/-- What a stage has counted. -/
abbrev Figures := List (Text × Figure)

/-- How a stage went. -/
inductive Progress where
  /-- It never began. -/
  | pending
  /-- It ended well. -/
  | succeeded (figures : Figures)
  /-- It ended badly. -/
  | failed (why : Failure)
deriving Repr, DecidableEq

/-- Whether a stage began. -/
def Progress.started (p : Progress) : Bool := p != .pending

/-- Whether a stage ended well. -/
def Progress.success : Progress → Bool
  | succeeded _ => true
  | _ => false

/-- What a stage has counted. -/
def Progress.figures : Progress → Figures
  | succeeded figures => figures
  | _ => []

/-- What a stage failed of; being stopped by the user is not failing. -/
def Progress.error? : Progress → Option Text
  | failed why => if why.isInterruption then none else some why.message
  | _ => none

/-- A stage of a run. -/
structure Stage where
  name : Text
  /-- What is done in it. -/
  description : Text
  /-- How it went. -/
  progress : Progress
deriving Repr, DecidableEq

/-- The names of the stages and what is done in them. -/
def stageNames (mode : Mode) : List (Text × Text) :=
  [("query", "Parsing query"), ("feed", "Loading feed"), ("select", "Selecting items"),
    (mode.name, "Running ".toList ++ mode.name)]

/-- What a run leaves behind, besides the world. -/
structure Report where
  /-- What the stages that succeeded have counted. -/
  done : List Figures
  /-- What was shown. -/
  shown : List Shown
  /-- The exit code, or why there is none. -/
  ending : Except Failure Nat

namespace Report

/-- A run that does not get past its first stage. -/
def failed (why : Failure) : Report := ⟨[], [], .error why⟩

/-- A run that had a stage before. -/
def after (figures : Figures) (r : Report) : Report := { r with done := figures :: r.done }

/-- How the stage of a number went. -/
def progress (r : Report) (stage : Nat) : Progress :=
  match r.done[stage]?, r.ending with
  | some figures, _ => .succeeded figures
  | none, .error why => if stage = r.done.length then .failed why else .pending
  | none, .ok _ => .pending

/-- The stages. -/
def stages (r : Report) (mode : Mode) : List Stage :=
  (stageNames mode).zipIdx.map fun ((name, description), number) =>
    ⟨name, description, r.progress number⟩

end Report

end FeedSieve.Run
