import Mathlib.Algebra.Order.Ring.Int
import Mathlib.Data.List.Basic

/-! Reading fixed-width little-endian fields from a byte string: the fields of a record one
after the other, or one element of an array of them. -/

namespace Records

/-- A reader consumes bytes at the front. -/
abbrev Reader (α : Type) := StateT (List UInt8) Option α

/-- The number whose little-endian bytes these are. -/
def leNat : List UInt8 → ℕ
  | [] => 0
  | b :: rest => b.toNat + 256 * leNat rest

def nat (width : ℕ) : Reader ℕ := fun bytes =>
  if width ≤ bytes.length then some (leNat (bytes.take width), bytes.drop width) else none

def expect (width value : ℕ) : Reader Unit := fun bytes =>
  match nat width bytes with
  | some (found, rest) => if found = value then some ((), rest) else none
  | none => none

def many {α : Type} (r : Reader α) : ℕ → Reader (List α)
  | 0 => pure []
  | count + 1 => do
    let x ← r
    let xs ← many r count
    pure (x :: xs)

variable {α β : Type}

/-- Wherever they stand, these bytes are read as `value`. -/
def Reads (r : Reader α) (bytes : List UInt8) (value : α) : Prop :=
  ∀ rest, r (bytes ++ rest) = some (value, rest)

theorem Reads.pure (value : α) : Reads (Pure.pure value) [] value := fun _ => rfl

theorem Reads.bind {r : Reader α} {next : α → Reader β} {bytes more : List UInt8} {value : α}
    {result : β} (h : Reads r bytes value) (hnext : Reads (next value) more result) :
    Reads (r >>= next) (bytes ++ more) result := by
  intro rest
  rw [List.append_assoc]
  change (r (bytes ++ (more ++ rest)) >>= fun p => next p.1 p.2) = _
  rw [h]
  exact hnext rest

theorem Reads.map {r : Reader α} {f : α → β} {bytes : List UInt8} {value : α}
    (h : Reads r bytes value) : Reads (r >>= fun x => Pure.pure (f x)) bytes (f value) := by
  have hread := @Reads.bind α β r (fun x => Pure.pure (f x)) bytes [] value (f value) h
    (Reads.pure (f value))
  rwa [List.append_nil] at hread

theorem Reads.nat {bytes : List UInt8} {width value : ℕ} (hlen : bytes.length = width)
    (hvalue : leNat bytes = value) : Reads (Records.nat width) bytes value := by
  intro rest
  rw [Records.nat, if_pos (by rw [List.length_append]; omega), List.take_left' hlen,
    List.drop_left' hlen, hvalue]

theorem Reads.expect {bytes : List UInt8} {width value : ℕ} (hlen : bytes.length = width)
    (hvalue : leNat bytes = value) : Reads (Records.expect width value) bytes () := by
  intro rest
  rw [Records.expect, Reads.nat hlen hvalue rest]
  exact if_pos rfl

theorem Reads.many {γ : Type} {r : Reader α} (encode : γ → List UInt8) (f : γ → α) (xs : List γ)
    (h : ∀ x ∈ xs, Reads r (encode x) (f x)) :
    Reads (Records.many r xs.length) (xs.flatMap encode) (xs.map f) := by
  induction xs with
  | nil => exact Reads.pure []
  | cons x xs ih =>
    rw [List.flatMap_cons, List.length_cons, List.map_cons, Records.many]
    refine (h x List.mem_cons_self).bind ?_
    exact (ih fun y hy => h y (List.mem_cons_of_mem x hy)).map

/-- What follows the record, such as its padding, does not matter. -/
theorem Reads.run {r : Reader α} {bytes : List UInt8} {value : α} (h : Reads r bytes value)
    (rest : List UInt8) : (r (bytes ++ rest)).map Prod.fst = some value := by
  rw [h rest]
  rfl

section Canonical

/-- The bytes consumed are those `encode` makes of the value read. -/
def Canonical (r : Reader α) (encode : α → List UInt8) : Prop :=
  ∀ bytes value rest, r bytes = some (value, rest) → bytes = encode value ++ rest

theorem bind_eq_some {r : Reader α} {next : α → Reader β} {bytes rest : List UInt8} {result : β}
    (h : (r >>= next) bytes = some (result, rest)) :
    ∃ value mid, r bytes = some (value, mid) ∧ next value mid = some (result, rest) := by
  obtain ⟨⟨value, mid⟩, hr, hnext⟩ := Option.bind_eq_some_iff.mp h
  exact ⟨value, mid, hr, hnext⟩

theorem leNat_lt (bytes : List UInt8) : leNat bytes < 256 ^ bytes.length := by
  induction bytes with
  | nil => exact Nat.one_pos
  | cons b rest ih =>
    have hb := b.toNat_lt
    rw [leNat, List.length_cons, Nat.pow_succ]
    omega

theorem nat_eq_some {width n : ℕ} {bytes rest : List UInt8}
    (h : nat width bytes = some (n, rest)) :
    ∃ field, field.length = width ∧ leNat field = n ∧ bytes = field ++ rest := by
  rw [nat] at h
  split_ifs at h with hlen
  obtain ⟨hn, hrest⟩ := Prod.mk.inj (Option.some.inj h)
  refine ⟨bytes.take width, List.length_take_of_le hlen, hn, ?_⟩
  rw [← hrest, List.take_append_drop]

theorem Canonical.many {r : Reader α} {encode : α → List UInt8} (h : Canonical r encode)
    {count : ℕ} {bytes rest : List UInt8} {xs : List α}
    (hread : Records.many r count bytes = some (xs, rest)) :
    xs.length = count ∧ bytes = xs.flatMap encode ++ rest := by
  induction count generalizing bytes xs with
  | zero =>
    obtain ⟨rfl, rfl⟩ := Prod.mk.inj (Option.some.inj hread)
    exact ⟨rfl, rfl⟩
  | succ count ih =>
    obtain ⟨x, mid, hx, hread⟩ := bind_eq_some hread
    obtain ⟨tail, mid', htail, hread⟩ := bind_eq_some hread
    obtain ⟨rfl, rfl⟩ := Prod.mk.inj (Option.some.inj hread)
    obtain ⟨hlen, hmid⟩ := ih htail
    refine ⟨by rw [List.length_cons, hlen], ?_⟩
    rw [h _ _ _ hx, hmid, List.flatMap_cons, List.append_assoc]

end Canonical

section Takes

/-- The reader takes `width` bytes whatever they hold. -/
def Takes (r : Reader α) (width : ℕ) : Prop :=
  ∀ bytes, width ≤ bytes.length → ∃ value, r bytes = some (value, bytes.drop width)

theorem Takes.nat (width : ℕ) : Takes (Records.nat width) width := by
  intro bytes hlen
  exact ⟨_, if_pos hlen⟩

theorem Takes.pure (value : α) : Takes (Pure.pure value) 0 := fun _ _ => ⟨value, rfl⟩

theorem Takes.bind {r : Reader α} {next : α → Reader β} {width more : ℕ} (h : Takes r width)
    (hnext : ∀ value, Takes (next value) more) : Takes (r >>= next) (more + width) := by
  intro bytes hlen
  obtain ⟨value, hvalue⟩ := h bytes (by omega)
  obtain ⟨result, hresult⟩ := hnext value (bytes.drop width) (by rw [List.length_drop]; omega)
  refine ⟨result, ?_⟩
  change (r bytes >>= fun p => next p.1 p.2) = _
  rw [hvalue, Nat.add_comm, ← List.drop_drop]
  exact hresult

end Takes

section Arrays

/-- The field of `width` bytes at `offset`. -/
def wordAt (width offset : ℕ) (bytes : List UInt8) : ℕ := leNat ((bytes.drop offset).take width)

variable {γ : Type} {width : ℕ} {encode : γ → List β}

theorem length_flatMap_width {xs : List γ} (hwidth : ∀ x ∈ xs, (encode x).length = width) :
    (xs.flatMap encode).length = xs.length * width := by
  induction xs with
  | nil => simp
  | cons x xs ih =>
    rw [List.flatMap_cons, List.length_append, hwidth x List.mem_cons_self,
      ih fun y hy => hwidth y (List.mem_cons_of_mem x hy), List.length_cons, Nat.succ_mul,
      Nat.add_comm]

theorem slice_flatMap {xs : List γ} (hwidth : ∀ x ∈ xs, (encode x).length = width) (after : List β)
    {i : ℕ} {x : γ} (hx : xs[i]? = some x) :
    ((xs.flatMap encode ++ after).drop (i * width)).take width = encode x := by
  induction xs generalizing i with
  | nil => cases hx
  | cons y xs ih =>
    have hy := hwidth y List.mem_cons_self
    rw [List.flatMap_cons, List.append_assoc]
    cases i with
    | zero =>
      cases hx
      rw [Nat.zero_mul, List.drop_zero, List.take_left' hy]
    | succ i =>
      have hoffset : (i + 1) * width = (encode y).length + i * width := by
        rw [hy, Nat.succ_mul, Nat.add_comm]
      rw [hoffset, List.drop_length_add_append]
      exact ih (fun z hz => hwidth z (List.mem_cons_of_mem y hz)) hx

theorem wordAt_flatMap {encode : γ → List UInt8} {xs : List γ}
    (hwidth : ∀ x ∈ xs, (encode x).length = width) (before after : List UInt8) {i : ℕ} {x : γ}
    (hx : xs[i]? = some x) :
    wordAt width (before.length + i * width) (before ++ (xs.flatMap encode ++ after))
      = leNat (encode x) := by
  rw [wordAt, List.drop_length_add_append, slice_flatMap hwidth after hx]

end Arrays

end Records
