import Mathlib.Data.List.Basic
import Mathlib.Data.Nat.ModEq

/-! A bounded queue in an array: elements from `head` on, wrapping around. -/

namespace Ring

variable {α : Type*}

structure Buffer (α : Type*) where
  slots : List α
  head : ℕ
  tail : ℕ
  count : ℕ
deriving DecidableEq, Repr

namespace Buffer

def empty (cap : ℕ) (x : α) : Buffer α := ⟨List.replicate cap x, 0, 0, 0⟩

def push (b : Buffer α) (x : α) : Buffer α :=
  { b with
    slots := b.slots.set b.tail x
    tail := (b.tail + 1) % b.slots.length
    count := b.count + 1 }

def pop (b : Buffer α) : Buffer α :=
  { b with head := (b.head + 1) % b.slots.length, count := b.count - 1 }

def get? (b : Buffer α) (i : ℕ) : Option α := b.slots[(b.head + i) % b.slots.length]?

def contents (b : Buffer α) : List α := (List.range b.count).filterMap b.get?

/-- Head, tail and count agree on the sequence `l`. -/
structure Holds (b : Buffer α) (l : List α) : Prop where
  count : b.count = l.length
  fits : l.length ≤ b.slots.length
  head : b.head < b.slots.length
  tail : b.tail = (b.head + l.length) % b.slots.length
  slot : ∀ i < l.length, b.get? i = l[i]?

variable {b : Buffer α} {l : List α} {x : α}

theorem holds_empty {cap : ℕ} (hcap : 0 < cap) (x : α) : (empty cap x).Holds [] where
  count := rfl
  fits := Nat.zero_le _
  head := by simpa [empty] using hcap
  tail := by simp [empty]
  slot i hi := absurd hi (Nat.not_lt_zero i)

theorem mod_ne_of_lt {h i j c : ℕ} (hij : i < j) (hj : j < c) : (h + i) % c ≠ (h + j) % c := by
  intro heq
  have hmod : i % c = j % c := Nat.ModEq.add_left_cancel' h heq
  rw [Nat.mod_eq_of_lt (hij.trans hj), Nat.mod_eq_of_lt hj] at hmod
  exact hij.ne hmod

theorem Holds.push (h : b.Holds l) (hroom : l.length < b.slots.length) (x : α) :
    (b.push x).Holds (l ++ [x]) := by
  have hlen : (b.push x).slots.length = b.slots.length := List.length_set
  refine ⟨?_, ?_, ?_, ?_, fun i hi => ?_⟩
  · simp [Buffer.push, h.count]
  · rw [hlen, List.length_append, List.length_singleton]
    omega
  · rw [hlen]
    exact h.head
  · rw [hlen, List.length_append, List.length_singleton]
    change (b.tail + 1) % b.slots.length = (b.head + (l.length + 1)) % b.slots.length
    rw [h.tail, Nat.mod_add_mod, Nat.add_assoc]
  · rw [List.length_append, List.length_singleton] at hi
    change (b.slots.set b.tail x)[(b.head + i) % (b.slots.set b.tail x).length]? = _
    rw [List.length_set]
    rcases Nat.lt_succ_iff_lt_or_eq.mp hi with hlt | rfl
    · have hne : b.tail ≠ (b.head + i) % b.slots.length := by
        rw [h.tail]
        exact (mod_ne_of_lt hlt hroom).symm
      rw [List.getElem?_set_ne hne, List.getElem?_append_left hlt]
      exact h.slot i hlt
    · have htail : b.tail < b.slots.length := h.tail ▸ Nat.mod_lt _ (by omega)
      rw [← h.tail, List.getElem?_set_self htail, List.getElem?_concat_length]

theorem Holds.front (h : b.Holds (x :: l)) : b.slots[b.head]? = some x := by
  have hslot := h.slot 0 (Nat.succ_pos _)
  rwa [get?, Nat.add_zero, Nat.mod_eq_of_lt h.head] at hslot

theorem Holds.pop (h : b.Holds (x :: l)) : b.pop.Holds l := by
  have hcap : 0 < b.slots.length := Nat.lt_of_le_of_lt (Nat.zero_le _) h.head
  have hfits := h.fits
  rw [List.length_cons] at hfits
  refine ⟨?_, ?_, ?_, ?_, fun i hi => ?_⟩
  · simp [Buffer.pop, h.count]
  · exact Nat.le_of_succ_le hfits
  · exact Nat.mod_lt _ hcap
  · change b.tail = ((b.head + 1) % b.slots.length + l.length) % b.slots.length
    rw [h.tail, List.length_cons, Nat.mod_add_mod]
    congr 1
    omega
  · have hslot := h.slot (i + 1) (by rw [List.length_cons]; omega)
    change b.slots[((b.head + 1) % b.slots.length + i) % b.slots.length]? = _
    rw [Nat.mod_add_mod, Nat.add_assoc, Nat.add_comm 1 i]
    exact hslot

theorem filterMap_range_getElem? (l : List α) (n : ℕ) :
    ((List.range n).filterMap fun i => l[i]?) = l.take n := by
  induction n with
  | zero => rfl
  | succ n ih =>
    rw [List.range_succ, List.filterMap_append, ih, List.take_add_one]
    cases hn : l[n]? <;> simp [hn]

theorem Holds.contents (h : b.Holds l) : b.contents = l := by
  have hread : (List.range l.length).filterMap b.get?
      = (List.range l.length).filterMap fun i => l[i]? :=
    List.filterMap_congr fun i hi => h.slot i (List.mem_range.mp hi)
  rw [Buffer.contents, h.count, hread, filterMap_range_getElem?, List.take_length]

end Buffer

end Ring
