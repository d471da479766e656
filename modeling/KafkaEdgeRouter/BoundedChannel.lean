import Mathlib.Data.List.Basic
import Mathlib.Data.Nat.Notation
import Mathlib.Tactic.Common

/-!
# Bounded queues and watched values

The `mpsc` channel of the runtime: a send that does not wait fails when the receiver has closed the
channel or the buffer is full, and a receiver takes values in the order they were sent. The values
already received are kept beside the buffer, so that `log` is everything the channel ever accepted.
The `watch` channel only keeps the last value; its receiver can tell whether it has seen that value
and whether the sender is gone.
-/

namespace KafkaEdgeRouter

inductive SendOutcome
  | accepted
  | full
  | closed
  deriving DecidableEq

structure Channel (α : Type) where
  capacity : ℕ
  queue : List α
  received : List α
  closed : Bool

namespace Channel

variable {α : Type}

def new (capacity : ℕ) : Channel α := ⟨capacity, [], [], false⟩

def log (channel : Channel α) : List α := channel.received ++ channel.queue

def trySend (value : α) (channel : Channel α) : SendOutcome × Channel α :=
  if channel.closed then (.closed, channel)
  else if channel.queue.length < channel.capacity then
    (.accepted, { channel with queue := channel.queue ++ [value] })
  else (.full, channel)

def recv (channel : Channel α) : Option (α × Channel α) :=
  match channel.queue with
  | [] => none
  | value :: queue =>
    some (value, { channel with queue := queue, received := channel.received ++ [value] })

def close (channel : Channel α) : Channel α := { channel with closed := true }

@[simp] theorem log_new (capacity : ℕ) : (new capacity : Channel α).log = [] := rfl

@[simp] theorem log_close (channel : Channel α) : channel.close.log = channel.log := rfl

/-- A send extends the log exactly when it is accepted. -/
theorem log_trySend (value : α) (channel : Channel α) :
    (channel.trySend value).2.log =
      channel.log ++ if (channel.trySend value).1 = .accepted then [value] else [] := by
  unfold trySend
  split_ifs <;> simp_all [log]

theorem log_recv {channel channel' : Channel α} {value : α}
    (h : channel.recv = some (value, channel')) : channel'.log = channel.log := by
  unfold recv at h
  split at h
  · cases h
  · rename_i hqueue
    obtain ⟨rfl, rfl⟩ := Prod.mk.inj (Option.some.inj h)
    simp [log, hqueue]

end Channel

/-- The receiver's end of a `watch` channel. -/
structure Watch (α : Type) where
  value : α
  unseen : Bool
  dropped : Bool

namespace Watch

variable {α : Type}

def new (value : α) : Watch α := ⟨value, false, false⟩

def send (value : α) (w : Watch α) : Watch α := { w with value, unseen := true }

def drop (w : Watch α) : Watch α := { w with dropped := true }

/-- A receiver that has seen the last value only completes when the sender is gone. -/
def canChange (w : Watch α) : Bool := w.unseen || w.dropped

/-- What `changed` leaves, and whether it reports that the sender is gone. -/
def changed (w : Watch α) : Bool × Watch α := (!w.unseen, { w with unseen := false })

end Watch
end KafkaEdgeRouter
