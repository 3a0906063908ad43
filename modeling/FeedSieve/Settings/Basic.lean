/-
Settings: what the user decides once for all runs.

Every setting has a default and a range. Settings are given as records; a
part that is left out has its defaults, and fields that nobody asks for are
passed over.
-/
import FeedSieve.Lax.Read
import FeedSieve.Product

namespace FeedSieve.Settings

open Lax (Checked Value)
open Number (Double)

/-- Settings for downloads. -/
structure Download where
  /-- How many downloads run at a time. -/
  ndownloads : Nat
  /-- How many seconds a request may take. -/
  timeout : Double
  /-- How often a failed download is tried again. -/
  retries : Nat
  /-- The milliseconds to wait before it is tried again for the first time. -/
  retryDelay : Nat
deriving Repr, DecidableEq

/-- Settings for requests. -/
structure Http where
  /-- How many seconds a request for a feed may take. -/
  timeout : Double
  /-- How the program introduces itself. -/
  userAgent : Text
deriving Repr, DecidableEq

/-- All settings. -/
structure Profile where
  /-- Those for downloads. -/
  download : Download
  /-- Those for requests. -/
  http : Http
deriving Repr, DecidableEq

/-- The defaults for downloads. -/
def Download.default : Download := ⟨1, .ofInt 60, 3, 300⟩

/-- The defaults for requests. -/
def Http.default : Http := ⟨.ofInt 30, Product.userAgent⟩

/-- The defaults. -/
def Profile.default : Profile := ⟨Download.default, Http.default⟩

/-- The most times a failed download may be tried again. -/
def mostRetries : Nat := 20

/-- Reads how often a failed download is tried again. -/
def checkRetries (v : Value) : Checked Nat :=
  (Lax.natFrom 0 v).andThen fun n =>
    if mostRetries < n then .flawed (.atMost mostRetries) else .good n

/-- Reads the settings for downloads. -/
def Download.check : Value → Checked Download
  | .record fields =>
      let part {α : Type} (name : Text) (absent : α) (read : Value → Checked α) :=
        Lax.field fields name (.good absent) read
      Download.mk
        <$> part "ndownloads" default.ndownloads (Lax.natFrom 1)
        <*> part "timeout" default.timeout Lax.positive
        <*> part "retries" default.retries checkRetries
        <*> part "retry_delay_ms" default.retryDelay (Lax.natFrom 0)
  | _ => .flawed (.modelType "DownloadSettings")

/-- Reads the settings for requests. -/
def Http.check : Value → Checked Http
  | .record fields =>
      let part {α : Type} (name : Text) (absent : α) (read : Value → Checked α) :=
        Lax.field fields name (.good absent) read
      Http.mk
        <$> part "timeout" default.timeout Lax.positive
        <*> part "user_agent" default.userAgent Lax.text
  | _ => .flawed (.modelType "HttpSettings")

/-- Reads all settings. -/
def Profile.check (fields : List (Text × Value)) : Checked Profile :=
  Profile.mk
    <$> Lax.field fields "download" (.good Download.default) Download.check
    <*> Lax.field fields "http" (.good Http.default) Http.check

/-- Settings of which two are chosen. -/
def Profile.starting (ndownloads retries : Nat) : Checked Profile :=
  (fun download => ⟨download, Http.default⟩) <$>
    Download.check (.record [("ndownloads", .int ndownloads), ("retries", .int retries)])

end FeedSieve.Settings
