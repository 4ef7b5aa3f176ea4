import Mathlib.Data.List.Basic

/-! One direction of a byte stream: what its writer has still to send, what is under way and
what its reader has taken, whatever the sizes of the writes and reads. -/

/-- A stream in transit. -/
structure Pipe (α : Type*) where
  toSend : List α
  inFlight : List α
  received : List α

namespace Pipe

variable {α : Type*} (p : Pipe α)

def load (message : List α) : Pipe α := ⟨message, [], []⟩

/-- Everything that was or will be sent, in order. -/
def whole : List α := p.received ++ p.inFlight ++ p.toSend

def push (n : ℕ) : Pipe α where
  toSend := p.toSend.drop n
  inFlight := p.inFlight ++ p.toSend.take n
  received := p.received

def pull (n : ℕ) : Pipe α where
  toSend := p.toSend
  inFlight := p.inFlight.drop n
  received := p.received ++ p.inFlight.take n

def abandon : Pipe α := { p with toSend := [] }

def extend (more : List α) : Pipe α := { p with toSend := p.toSend ++ more }

@[simp] theorem whole_push (n : ℕ) : (p.push n).whole = p.whole := by
  simp only [whole, push, List.append_assoc, List.take_append_drop]

@[simp] theorem whole_pull (n : ℕ) : (p.pull n).whole = p.whole := by
  have hsplit : p.inFlight.take n ++ p.inFlight.drop n = p.inFlight := List.take_append_drop _ _
  show p.received ++ p.inFlight.take n ++ p.inFlight.drop n ++ p.toSend = p.whole
  rw [List.append_assoc p.received, hsplit, whole]

@[simp] theorem whole_extend (more : List α) : (p.extend more).whole = p.whole ++ more := by
  simp only [whole, extend, List.append_assoc]

@[simp] theorem whole_load (message : List α) : (load message).whole = message := rfl

theorem whole_abandon_prefix : p.abandon.whole <+: p.whole := by
  refine ⟨p.toSend, ?_⟩
  simp only [whole, abandon, List.append_nil]

theorem received_front : p.received <+: p.whole := by
  refine ⟨p.inFlight ++ p.toSend, ?_⟩
  rw [whole, List.append_assoc]

theorem received_pull_prefix (n : ℕ) : p.received <+: (p.pull n).received :=
  List.prefix_append _ _

theorem pull_length_le {n bound : ℕ} (h : p.received.length + n ≤ bound) :
    (p.pull n).received.length ≤ bound := by
  have htake := List.length_take_le n p.inFlight
  rw [pull, List.length_append]
  omega

end Pipe
