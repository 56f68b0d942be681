import MediaHarvest.Ledger.Basic

/-!
# Retention

Executions are dropped when they are older than a number of days.  Anything else stays, and so does
what cannot be read.  The days are counted back within the calendar, so a retention that reaches
beyond its first year is refused.
-/

namespace MediaHarvest

open MediaHarvest.Json

/-- What a clean-up did. -/
structure Pruned where
  scanned : Nat
  pruned : Nat
deriving DecidableEq, Repr

/-- Why a clean-up is refused. -/
inductive RetentionError where
  /-- The calendar does not reach back so far. -/
  | cutoffOutOfRange
deriving DecidableEq, Repr

namespace Ledger

/-- The only field of an execution that a clean-up reads. -/
def createdAtShape : Shape Instant Instant := .required "created_at" Instant.codec id

/-- The time at which what is stored was made. -/
def createdAt? (bytes : Bytes) : Option Instant :=
  (createdAtShape.codec "CreatedAt").readText bytes |>.toOption

/-- Whether what is stored was made before a time. -/
def isExpired (cutoff : Instant) (bytes : Bytes) : Bool :=
  match createdAt? bytes with
  | some createdAt => createdAt < cutoff
  | none => false

/-- The note that keeps the time of the last clean-up. -/
def pruneNote : Bytes := noteKey "last_prune_statistics"

/-- The keys of the executions that were made before a time, in ascending order. -/
def expiredKeys (ledger : Ledger) (cutoff : Instant) : List Bytes :=
  (ledger.executions.entries.filter fun entry => isExpired cutoff entry.2).map Prod.fst

/-- Drops the executions that were made more than `days` before now: all of them are looked at
first, and then those that were found are taken away one after another. -/
def prune (ledger : Ledger) (days : UInt32) (now : Instant) :
    Except RetentionError (Ledger × Pruned) :=
  match now.daysBefore? days.toNat with
  | none => .error .cutoffOutOfRange
  | some cutoff =>
      let expired := ledger.expiredKeys cutoff
      .ok ({ ledger with
          executions := expired.foldl (fun kept key => kept.erase key) ledger.executions
          notes := ledger.notes.insert pruneNote (Text.utf8 (Time.renderOffset now)) },
        ⟨ledger.executions.size, expired.length⟩)

end Ledger

end MediaHarvest
