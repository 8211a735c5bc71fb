import ListingQuery.Engine

/-!
# Manifests

A manifest records a run for the log: which query under which limits, how many listings and
attachments went through, a digest of the outcome, and the times.
-/

namespace ListingQuery

/-- The record of a run.  Times are milliseconds. -/
structure Manifest where
  planDigest : Digest
  engineVersion : String
  recordsIn : UInt64
  recordsMatched : UInt64
  recordsOut : UInt64
  attachmentsOut : UInt64
  outcomeDigest : Option Digest
  started : UInt64
  finished : UInt64

namespace Manifest

/-- The version of the engine. -/
def currentVersion : String := "0.1.0"

/-- The record of a run that begins. -/
def new (planDigest : Digest) (recordsIn started : UInt64) : Manifest :=
  ⟨planDigest, currentVersion, recordsIn, 0, 0, 0, none, started, started⟩

/-- The record of a run that has ended. -/
def finish (m : Manifest) (finished : UInt64) (outcomeDigest : Option Digest) : Manifest :=
  { m with finished := finished, outcomeDigest := outcomeDigest }

/-- How long the run took; a clock that went back counts as no time. -/
def elapsed (m : Manifest) : UInt64 :=
  if m.started ≤ m.finished then m.finished - m.started else 0

/-- The record of a finished run. -/
def ofRun (r : Run) (started finished : UInt64) : Manifest :=
  finish
    { new r.planDigest (UInt64.ofNat r.outcome.recordsIn) started with
      recordsMatched := UInt64.ofNat r.outcome.recordsMatched
      recordsOut := UInt64.ofNat r.outcome.recordsOut
      attachmentsOut := UInt64.ofNat r.outcome.attachmentsOut }
    finished (some r.outcomeDigest)

/-- The members of a record without its times. -/
def runMembers (m : Manifest) : List (String × Json) :=
  [("plan_hash", m.planDigest.toJson), ("engine_version", .str m.engineVersion),
    ("records_in", .ofUInt64 m.recordsIn), ("records_matched", .ofUInt64 m.recordsMatched),
    ("records_out", .ofUInt64 m.recordsOut), ("attachments_out", .ofUInt64 m.attachmentsOut),
    ("outputs_digest", .ofOption Digest.toJson m.outcomeDigest)]

/-- The members of the times of a record. -/
def timeMembers (m : Manifest) : List (String × Json) :=
  [("started_ms", .ofUInt64 m.started), ("finished_ms", .ofUInt64 m.finished)]

/-- The sixteen octets of an identifier, marked as drawn at random. -/
def markRandom (octets : List UInt8) : List UInt8 :=
  (octets.modify 6 fun b => b % 16 + 64).modify 8 fun b => b % 64 + 128

/-- The text of an identifier: two hexadecimal digits for each of sixteen octets, in five groups. -/
def identifier (octets : List UInt8) : String :=
  let digits := octets.flatMap fun b =>
    [Json.hexDigit (b.toNat / 16), Json.hexDigit (b.toNat % 16)]
  let group (start length : Nat) : String := String.ofList ((digits.drop start).take length)
  String.intercalate "-" [group 0 8, group 8 4, group 12 4, group 16 4, group 20 12]

/-- A record with its identifier as it is printed. -/
def report (m : Manifest) (identifier : String) : Json :=
  .object [("manifest", .object (("id", .str identifier) :: m.runMembers ++ m.timeMembers))]

end Manifest

end ListingQuery
