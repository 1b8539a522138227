import LiveScene.Command.Basic

/-!
# The outbox

Commands on their way to viewers. With autoflush on, each command makes up a message of its own at
once; with it off, commands wait until they are taken together. A message is the list of its
commands, never an empty one.
-/

namespace LiveScene

/-- Whether commands are sent at once, and those that wait. -/
structure Outbox where
  autoflush : Bool
  pending : List Command := []
deriving DecidableEq

namespace Outbox

/-- Queues a command. With autoflush on, gives the message to send. -/
def push (q : Outbox) (c : Command) : Option (List Command) × Outbox :=
  if q.autoflush then (some [c], q) else (none, { q with pending := q.pending ++ [c] })

/-- Takes everything that waits, as a message. -/
def take (q : Outbox) : Option (List Command) × Outbox :=
  if q.pending.isEmpty then (none, q) else (some q.pending, { q with pending := [] })

/-- Switches autoflush. Switching it on releases everything that waits, as a message. -/
def setAutoflush (q : Outbox) (on : Bool) : Option (List Command) × Outbox :=
  let q := { q with autoflush := on }
  if on then q.take else (none, q)

/-- Drops everything that waits, and gives it. -/
def discard (q : Outbox) : List Command × Outbox := (q.pending, { q with pending := [] })

/-! ## What waits -/

@[simp] theorem pending_take (q : Outbox) : q.take.2.pending = [] := by
  unfold take; split <;> simp_all

@[simp] theorem autoflush_push (q : Outbox) (c : Command) :
    (q.push c).2.autoflush = q.autoflush := by
  unfold push; split <;> rfl

@[simp] theorem autoflush_take (q : Outbox) : q.take.2.autoflush = q.autoflush := by
  unfold take; split <;> rfl

@[simp] theorem autoflush_setAutoflush (q : Outbox) (on : Bool) :
    (q.setAutoflush on).2.autoflush = on := by
  unfold setAutoflush; split <;> simp

end Outbox

end LiveScene
