import Upkeep.Service

/-!
# Notifications

Who is told when an attempt to rebuild an index starts and when it has ended.
It may be somebody outside, the log, or nobody.
-/

namespace Upkeep

/-- Who is told about attempts. -/
inductive Notifier where
  /-- Whoever receives the notifications of the worker. -/
  | outside (worker : Worker)
  /-- The log. -/
  | log
  | nobody
  deriving DecidableEq, Repr

namespace Notifier

/-- The notifier that a word stands for, for a given worker. -/
def ofWord? (worker : Worker) : String → Option Notifier
  | "recording" => some (outside worker)
  | "logging" => some log
  | "noop" => some nobody
  | _ => none

/-- An attempt starts. -/
def startEvent (action : Action) : Event where
  level := .info
  message := "Starting index rebuild"
  fields :=
    [("action_id", action.id.toText), ("database", action.database), ("index", action.index),
      ("ondisk_size_bytes", toString action.sizeBefore)] ++
      Event.optional "bloat_estimate_bytes" (action.bloatBefore.map toString)

/-- An attempt has ended. -/
def endEvent (action : Action) : Event where
  level := .info
  message := "Index rebuild ended"
  fields :=
    [("action_id", action.id.toText), ("database", action.database), ("index", action.index),
      ("state", action.state.word)] ++
      Event.optional "ondisk_size_bytes_end" (action.sizeAfter.map toString) ++
      Event.optional "reclaimed_bytes"
        (action.reclaimed?.map fun n => String.ofList (Text.ofInt64 n))

/-- Tells that an attempt starts. -/
def notifyStart (notifier : Notifier) (action : Action) : Task Unit :=
  match notifier with
  | outside worker => Service.attempt (Service.ask (.notifyStart worker action))
  | log => Service.log (startEvent action)
  | nobody => return ()

/-- Tells that an attempt has ended. -/
def notifyEnd (notifier : Notifier) (action : Action) : Task Unit :=
  match notifier with
  | outside worker => Service.attempt (Service.ask (.notifyEnd worker action))
  | log => Service.log (endEvent action)
  | nobody => return ()

end Notifier

end Upkeep
