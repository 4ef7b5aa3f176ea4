import Mathlib.Data.List.Basic

/-! Computations that record what they do and may stop on the way: the record is kept when
they stop. -/

structure Traced (ε σ α : Type) where
  events : List ε
  result : Except σ α

namespace Traced

variable {ε σ α β : Type}

def emit (e : ε) : Traced ε σ Unit := ⟨[e], .ok ()⟩

def stop (s : σ) : Traced ε σ α := ⟨[], .error s⟩

def andThen (x : Traced ε σ α) (next : α → Traced ε σ β) : Traced ε σ β :=
  match x.result with
  | .ok a => ⟨x.events ++ (next a).events, (next a).result⟩
  | .error s => ⟨x.events, .error s⟩

instance : Monad (Traced ε σ) where
  pure a := ⟨[], .ok a⟩
  bind := andThen

def require (c : Prop) [Decidable c] (s : σ) : Traced ε σ Unit := if c then pure () else stop s

def ofExcept (r : Except σ α) : Traced ε σ α := ⟨[], r⟩

def visitAll (f : α → Traced ε σ β) : List α → Traced ε σ (List β)
  | [] => pure []
  | a :: rest => do
    let b ← f a
    let bs ← visitAll f rest
    pure (b :: bs)

def Returns (x : Traced ε σ α) (a : α) : Prop := x.result = .ok a

def Stops (x : Traced ε σ α) (S : σ → Prop) : Prop := ∃ s, x.result = .error s ∧ S s

def All (x : Traced ε σ α) (P : ε → Prop) : Prop := ∀ e ∈ x.events, P e

variable {x : Traced ε σ α} {next : α → Traced ε σ β} {S : σ → Prop} {P : ε → Prop}

section Basic

@[simp] theorem returns_pure {a b : α} : (pure a : Traced ε σ α).Returns b ↔ a = b :=
  ⟨fun h => Except.ok.inj h, fun h => congrArg Except.ok h⟩

@[simp] theorem stops_pure {a : α} : (pure a : Traced ε σ α).Stops S ↔ False :=
  ⟨fun ⟨_, h, _⟩ => (nomatch h), False.elim⟩

@[simp] theorem all_pure {a : α} : (pure a : Traced ε σ α).All P ↔ True :=
  ⟨fun _ => trivial, fun _ _ he => nomatch he⟩

@[simp] theorem returns_emit {e : ε} {u : Unit} : (emit e : Traced ε σ Unit).Returns u ↔ True :=
  ⟨fun _ => trivial, fun _ => rfl⟩

@[simp] theorem stops_emit {e : ε} : (emit e : Traced ε σ Unit).Stops S ↔ False :=
  ⟨fun ⟨_, h, _⟩ => (nomatch h), False.elim⟩

@[simp] theorem all_emit {e : ε} : (emit e : Traced ε σ Unit).All P ↔ P e :=
  ⟨fun h => h e List.mem_cons_self, fun h _ he => List.mem_singleton.mp he ▸ h⟩

@[simp] theorem returns_stop {s : σ} {a : α} : (stop s : Traced ε σ α).Returns a ↔ False :=
  ⟨fun h => (nomatch h), False.elim⟩

@[simp] theorem stops_stop {s : σ} : (stop s : Traced ε σ α).Stops S ↔ S s :=
  ⟨fun ⟨_, h, hs⟩ => Except.error.inj h ▸ hs, fun h => ⟨s, rfl, h⟩⟩

@[simp] theorem all_stop {s : σ} : (stop s : Traced ε σ α).All P ↔ True :=
  ⟨fun _ => trivial, fun _ _ he => nomatch he⟩

@[simp] theorem returns_ofExcept {r : Except σ α} {a : α} :
    (ofExcept r : Traced ε σ α).Returns a ↔ r = .ok a :=
  Iff.rfl

@[simp] theorem stops_ofExcept {r : Except σ α} :
    (ofExcept r : Traced ε σ α).Stops S ↔ ∃ s, r = .error s ∧ S s :=
  Iff.rfl

@[simp] theorem all_ofExcept {r : Except σ α} : (ofExcept r : Traced ε σ α).All P ↔ True :=
  ⟨fun _ => trivial, fun _ _ he => nomatch he⟩

end Basic

section Bind

@[simp] theorem returns_bind {b : β} :
    (x >>= next).Returns b ↔ ∃ a, x.Returns a ∧ (next a).Returns b := by
  change (andThen x next).result = .ok b ↔ _
  cases hx : x.result with
  | ok a =>
    simp only [andThen, hx, Returns]
    exact ⟨fun h => ⟨a, rfl, h⟩, fun ⟨_, ha, h⟩ => Except.ok.inj ha ▸ h⟩
  | error s =>
    simp only [andThen, hx, Returns]
    exact ⟨fun h => (nomatch h), fun ⟨_, ha, _⟩ => (nomatch ha)⟩

@[simp] theorem stops_bind :
    (x >>= next).Stops S ↔ x.Stops S ∨ ∃ a, x.Returns a ∧ (next a).Stops S := by
  change (∃ s, (andThen x next).result = .error s ∧ S s) ↔ _
  cases hx : x.result with
  | ok a =>
    simp only [andThen, hx, Returns, Stops]
    refine ⟨fun h => Or.inr ⟨a, rfl, h⟩, ?_⟩
    rintro (⟨_, hs, _⟩ | ⟨_, ha, h⟩)
    · exact nomatch hs
    · exact Except.ok.inj ha ▸ h
  | error s =>
    simp only [andThen, hx, Returns, Stops]
    refine ⟨fun ⟨_, hs, h⟩ => Or.inl ⟨s, rfl, Except.error.inj hs ▸ h⟩, ?_⟩
    rintro (⟨_, hs, h⟩ | ⟨_, ha, _⟩)
    · exact ⟨s, rfl, Except.error.inj hs ▸ h⟩
    · exact nomatch ha

@[simp] theorem all_bind :
    (x >>= next).All P ↔ x.All P ∧ ∀ a, x.Returns a → (next a).All P := by
  change (∀ e ∈ (andThen x next).events, P e) ↔ _
  cases hx : x.result with
  | ok a =>
    simp only [andThen, hx, Returns, All, List.forall_mem_append]
    exact ⟨fun h => ⟨h.1, fun _ ha => Except.ok.inj ha ▸ h.2⟩, fun h => ⟨h.1, h.2 a rfl⟩⟩
  | error s =>
    simp only [andThen, hx, Returns, All]
    exact ⟨fun h => ⟨h, fun _ ha => (nomatch ha)⟩, fun h => h.1⟩

end Bind

section Require

variable {c : Prop} [Decidable c] {s : σ}

@[simp] theorem returns_require {u : Unit} :
    (require c s : Traced ε σ Unit).Returns u ↔ c := by
  by_cases hc : c
  · simp [require, hc]
  · simp [require, hc]

@[simp] theorem stops_require : (require c s : Traced ε σ Unit).Stops S ↔ ¬ c ∧ S s := by
  by_cases hc : c
  · simp [require, hc]
  · simp [require, hc]

@[simp] theorem all_require : (require c s : Traced ε σ Unit).All P ↔ True := by
  by_cases hc : c
  · simp [require, hc]
  · simp [require, hc]

end Require

section Traverse

variable {f : α → Traced ε σ β} {as : List α}

/-- The elements before position `k` return. -/
def Before (f : α → Traced ε σ β) (as : List α) (k : ℕ) : Prop :=
  ∀ (j : ℕ) (a : α), j < k → as[j]? = some a → ∃ b, (f a).Returns b

theorem before_zero : Before f as 0 := fun _ _ hj => nomatch hj

theorem before_cons {a : α} {k : ℕ} :
    Before f (a :: as) (k + 1) ↔ (∃ b, (f a).Returns b) ∧ Before f as k := by
  refine ⟨fun h => ⟨h 0 a (Nat.succ_pos k) rfl, fun j c hj hc => ?_⟩, fun h j c hj hc => ?_⟩
  · exact h (j + 1) c (Nat.succ_lt_succ hj) hc
  · cases j with
    | zero => exact Option.some.inj hc ▸ h.1
    | succ j => exact h.2 j c (Nat.lt_of_succ_lt_succ hj) hc

theorem returns_visitAll {bs : List β} :
    (visitAll f as).Returns bs ↔ bs.length = as.length ∧
      ∀ (k : ℕ) (a : α) (b : β), as[k]? = some a → bs[k]? = some b → (f a).Returns b := by
  induction as generalizing bs with
  | nil =>
    rw [visitAll, returns_pure]
    constructor
    · rintro rfl
      exact ⟨rfl, fun k a b ha => nomatch ha⟩
    · rintro ⟨hlen, -⟩
      exact (List.length_eq_zero_iff.mp hlen).symm
  | cons a as ih =>
    simp only [visitAll, returns_bind, returns_pure, ih]
    constructor
    · rintro ⟨b, hb, bs', ⟨hlen, hbs⟩, rfl⟩
      refine ⟨congrArg Nat.succ hlen, fun k c d hc hd => ?_⟩
      cases k with
      | zero => exact Option.some.inj hc ▸ Option.some.inj hd ▸ hb
      | succ k => exact hbs k c d hc hd
    · rintro ⟨hlen, hbs⟩
      cases bs with
      | nil => exact nomatch hlen
      | cons b bs' =>
        exact ⟨b, hbs 0 a b rfl rfl, bs', ⟨Nat.succ.inj hlen, fun k => hbs (k + 1)⟩, rfl⟩

theorem exists_visitAll (h : ∀ a ∈ as, ∃ b, (f a).Returns b) :
    ∃ bs, (visitAll f as).Returns bs := by
  induction as with
  | nil => exact ⟨[], returns_pure.mpr rfl⟩
  | cons a as ih =>
    obtain ⟨b, hb⟩ := h a List.mem_cons_self
    obtain ⟨bs, hbs⟩ := ih fun c hc => h c (List.mem_cons_of_mem a hc)
    exact ⟨b :: bs, returns_bind.mpr ⟨b, hb, returns_bind.mpr ⟨bs, hbs, returns_pure.mpr rfl⟩⟩⟩

theorem stops_visitAll :
    (visitAll f as).Stops S ↔ ∃ k a, as[k]? = some a ∧ Before f as k ∧ (f a).Stops S := by
  induction as with
  | nil => simp [visitAll]
  | cons a as ih =>
    simp only [visitAll, stops_bind, stops_pure, and_false, exists_false, or_false, ih]
    constructor
    · rintro (h | ⟨b, hb, k, c, hc, hbefore, hstop⟩)
      · exact ⟨0, a, rfl, before_zero, h⟩
      · exact ⟨k + 1, c, hc, before_cons.mpr ⟨⟨b, hb⟩, hbefore⟩, hstop⟩
    · rintro ⟨k, c, hc, hbefore, hstop⟩
      cases k with
      | zero => exact Or.inl (Option.some.inj hc ▸ hstop)
      | succ k =>
        obtain ⟨⟨b, hb⟩, hbefore⟩ := before_cons.mp hbefore
        exact Or.inr ⟨b, hb, k, c, hc, hbefore, hstop⟩

theorem all_visitAll :
    (visitAll f as).All P ↔ ∀ k a, as[k]? = some a → Before f as k → (f a).All P := by
  induction as with
  | nil => simp [visitAll]
  | cons a as ih =>
    simp only [visitAll, all_bind, all_pure, implies_true, and_true, ih]
    constructor
    · rintro ⟨hfirst, hrest⟩ k c hc hbefore
      cases k with
      | zero => exact Option.some.inj hc ▸ hfirst
      | succ k =>
        obtain ⟨⟨b, hb⟩, hbefore⟩ := before_cons.mp hbefore
        exact hrest b hb k c hc hbefore
    · intro h
      refine ⟨h 0 a rfl before_zero, fun b hb k c hc hbefore => ?_⟩
      exact h (k + 1) c hc (before_cons.mpr ⟨⟨b, hb⟩, hbefore⟩)

end Traverse

end Traced
