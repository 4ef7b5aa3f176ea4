import Mathlib.Data.List.Perm.Basic

/-! A ledger of what was acquired and what was released, with repetitions: something released
twice, or never acquired, shows as a difference. -/

structure Ledger (α : Type) where
  acquired : List α
  released : List α
deriving Repr, DecidableEq

namespace Ledger

variable {α : Type}

def empty : Ledger α := ⟨[], []⟩

def acquire (t : Ledger α) (xs : List α) : Ledger α := { t with acquired := t.acquired ++ xs }

def release (t : Ledger α) (x : α) : Ledger α := { t with released := t.released ++ [x] }

/-- Everything acquired was released once, but for what is held, and nothing else was released. -/
def Holds (t : Ledger α) (held : List α) : Prop := (t.released ++ held).Perm t.acquired

variable {t : Ledger α} {held more : List α} {x : α}

theorem holds_empty : (empty : Ledger α).Holds [] := List.Perm.nil

theorem Holds.acquire (h : t.Holds held) (xs : List α) : (t.acquire xs).Holds (held ++ xs) := by
  have hall := h.append_right xs
  rwa [List.append_assoc] at hall

theorem Holds.release (h : t.Holds (x :: held)) : (t.release x).Holds held := by
  have hmove : (t.released ++ [x] ++ held).Perm (t.released ++ x :: held) := by
    rw [List.append_assoc, List.singleton_append]
  exact hmove.trans h

theorem Holds.perm (h : t.Holds held) (hperm : more.Perm held) : t.Holds more :=
  (hperm.append_left t.released).trans h

theorem Holds.settled (h : t.Holds []) : t.released.Perm t.acquired := by
  rw [Holds, List.append_nil] at h
  exact h

end Ledger
