/-!
# Channels

A channel hands values from one side to the other in order.  Once the receiving side has closed it,
nothing can be sent and what was waiting is lost.
-/

namespace MediaHarvest

/-- A channel. -/
structure Channel (α : Type) where
  /-- Whether the receiving side is still there. -/
  isOpen : Bool
  /-- What waits to be received, the oldest first. -/
  waiting : List α
deriving DecidableEq, Repr

namespace Channel

variable {α : Type}

/-- An open channel in which nothing waits. -/
def new : Channel α := ⟨true, []⟩

/-- The wording of a value that was sent into a closed channel. -/
def closedMessage : String := "Channel closed"

/-- Sends a value; none if the channel is closed. -/
def send? (channel : Channel α) (value : α) : Option (Channel α) :=
  if channel.isOpen then some { channel with waiting := channel.waiting ++ [value] } else none

/-- Receives the oldest value, if one waits. -/
def receive (channel : Channel α) : Option α × Channel α :=
  match channel.waiting with
  | [] => (none, channel)
  | value :: rest => (some value, { channel with waiting := rest })

/-- Closes the channel from the receiving side. -/
def close (_ : Channel α) : Channel α := ⟨false, []⟩

end Channel

end MediaHarvest
