import PgCuvs.Library.Run

/-! A node that computes its items at the first call and hands out what it can fetch of them, one
a call, until it is started over. -/

namespace Cursor

variable {ρ κ ι α ε : Type*}

/-- The first item that can be fetched, and how many items that takes. -/
def next (fetch : ι → Option α) : List ι → Option α × ℕ
  | [] => (none, 0)
  | x :: xs =>
    match fetch x with
    | none => ((next fetch xs).1, (next fetch xs).2 + 1)
    | some a => (some a, 1)

/-- The node, and what it has returned since it was last started. -/
structure Node (ρ ι α ε : Type*) where
  params : ρ
  /-- the items, once there are any -/
  built : Option (List ι)
  cursor : ℕ
  returned : List α
  ended : Bool
  failed : Option ε

inductive Event (κ ρ : Type*) where
  | exec (io : κ)
  /-- with other parameters, perhaps -/
  | rescan (params : ρ)

def Event.Within (P : ρ → Prop) (Q : κ → Prop) : Event κ ρ → Prop
  | .exec io => Q io
  | .rescan params => P params

namespace Node

def start (params : ρ) : Node ρ ι α ε := ⟨params, none, 0, [], false, none⟩

variable (build : ρ → κ → Except ε (List ι)) (fetch : ρ → ι → Option α)

def fetchNext (node : Node ρ ι α ε) (items : List ι) : Node ρ ι α ε :=
  let found := next (fetch node.params) (items.drop node.cursor)
  { node with
    built := some items
    cursor := node.cursor + found.2
    returned := node.returned ++ found.1.toList
    ended := found.1.isNone }

/-- A node that has failed is not called again. -/
def step (node : Node ρ ι α ε) : Event κ ρ → Node ρ ι α ε
  | .rescan params => if node.failed.isSome then node else start params
  | .exec io =>
    if node.failed.isSome then node
    else
      match node.built with
      | some items => node.fetchNext fetch items
      | none =>
        match build node.params io with
        | .error e => { node with failed := some e }
        | .ok items => node.fetchNext fetch items

end Node

section Next

variable {fetch : ι → Option α}

theorem take_next (xs : List ι) :
    (xs.take (next fetch xs).2).filterMap fetch = (next fetch xs).1.toList := by
  induction xs with
  | nil => rfl
  | cons x xs ih =>
    rw [next]
    cases hx : fetch x with
    | none =>
      dsimp only
      rw [List.take_succ_cons, List.filterMap_cons_none hx, ih]
    | some a =>
      dsimp only
      rw [List.take_succ_cons, List.filterMap_cons_some hx, List.take_zero]
      rfl

theorem next_none {xs : List ι} (h : (next fetch xs).1 = none) : xs.filterMap fetch = [] := by
  induction xs with
  | nil => rfl
  | cons x xs ih =>
    rw [next] at h
    cases hx : fetch x with
    | none =>
      rw [hx] at h
      rw [List.filterMap_cons_none hx, ih h]
    | some a =>
      rw [hx] at h
      cases h

end Next

namespace Node

variable {build : ρ → κ → Except ε (List ι)} {fetch : ρ → ι → Option α}
  {P : ρ → Prop} {Q : κ → Prop} {node : Node ρ ι α ε} {items : List ι}

structure Reads (fetch : ρ → ι → Option α) (node : Node ρ ι α ε) (items : List ι) : Prop where
  returned : node.returned = (items.take node.cursor).filterMap (fetch node.params)
  ended : node.ended = true → node.returned = items.filterMap (fetch node.params)

structure Sound (build : ρ → κ → Except ε (List ι)) (fetch : ρ → ι → Option α) (P : ρ → Prop)
    (Q : κ → Prop) (node : Node ρ ι α ε) : Prop where
  params : P node.params
  fresh : node.built = none → node.returned = [] ∧ node.cursor = 0 ∧ node.ended = false
  built : ∀ items, node.built = some items → node.Reads fetch items ∧
    ∃ io, Q io ∧ build node.params io = .ok items

theorem Sound.start {params : ρ} (h : P params) :
    (start params : Node ρ ι α ε).Sound build fetch P Q where
  params := h
  fresh _ := ⟨rfl, rfl, rfl⟩
  built := by rintro items ⟨⟩

theorem Reads.fetchNext (h : node.Reads fetch items) : (node.fetchNext fetch items).Reads fetch items := by
  set found := next (fetch node.params) (items.drop node.cursor) with hfound
  have hreturned : (node.fetchNext fetch items).returned =
      (items.take (node.cursor + found.2)).filterMap (fetch node.params) := by
    rw [List.take_add, List.filterMap_append, hfound, take_next, ← h.returned]
    rfl
  refine ⟨hreturned, fun hended => ?_⟩
  have hnone : found.1 = none := Option.isNone_iff_eq_none.mp hended
  have hrest : (items.drop node.cursor).filterMap (fetch node.params) = [] := next_none hnone
  show node.returned ++ found.1.toList = items.filterMap (fetch node.params)
  rw [hnone, Option.toList_none, List.append_nil, h.returned]
  conv_rhs => rw [← List.take_append_drop node.cursor items]
  rw [List.filterMap_append, hrest, List.append_nil]

theorem Sound.fetchNext (h : node.Sound build fetch P Q) (hreads : node.Reads fetch items)
    (hbuild : ∃ io, Q io ∧ build node.params io = .ok items) :
    (node.fetchNext fetch items).Sound build fetch P Q where
  params := h.params
  fresh := by rintro ⟨⟩
  built := by
    rintro items' ⟨⟩
    exact ⟨hreads.fetchNext, hbuild⟩

theorem Sound.step (h : node.Sound build fetch P Q) {ev : Event κ ρ} (hev : ev.Within P Q) :
    (node.step build fetch ev).Sound build fetch P Q := by
  cases ev with
  | rescan params =>
    rw [Node.step]
    split_ifs
    · exact h
    · exact .start hev
  | exec io =>
    rw [Node.step]
    split_ifs
    · exact h
    · cases hbuilt : node.built with
      | some items =>
        obtain ⟨hreads, hbuild⟩ := h.built items hbuilt
        exact h.fetchNext hreads hbuild
      | none =>
        cases hbuild : build node.params io with
        | error e =>
          refine ⟨h.params, fun _ => h.fresh hbuilt, ?_⟩
          rintro items ⟨⟩
        | ok items =>
          obtain ⟨hreturned, hcursor, hended⟩ := h.fresh hbuilt
          refine h.fetchNext ⟨?_, fun htrue => ?_⟩ ⟨io, hev, hbuild⟩
          · rw [hreturned, hcursor]
            rfl
          · rw [hended] at htrue
            cases htrue

theorem run_sound {params : ρ} (hparams : P params) {events : List (Event κ ρ)}
    (hevents : ∀ ev ∈ events, ev.Within P Q) :
    (Run.run (Node.step build fetch) (start params) events).Sound build fetch P Q :=
  Run.run_invariant (Sound build fetch P Q) (fun _ _ h hev => h.step hev) (.start hparams)
    (Run.along_of_forall hevents _)

/-- What the node has returned since it was started is the beginning of rows that answer its
parameters, and at the end all of them. -/
def Answers (answer : ρ → List α → Prop) (node : Node ρ ι α ε) : Prop :=
  node.returned = [] ∧ node.ended = false ∨
    ∃ rows, answer node.params rows ∧ node.returned <+: rows ∧
      (node.ended = true → node.returned = rows)

theorem Sound.answers {answer : ρ → List α → Prop} (h : node.Sound build fetch P Q)
    (hbuild : ∀ params io items, P params → Q io → build params io = .ok items →
      answer params (items.filterMap (fetch params))) :
    node.Answers answer := by
  cases hbuilt : node.built with
  | none =>
    obtain ⟨hreturned, -, hended⟩ := h.fresh hbuilt
    exact Or.inl ⟨hreturned, hended⟩
  | some items =>
    obtain ⟨hreads, io, hio, hok⟩ := h.built items hbuilt
    refine Or.inr ⟨_, hbuild _ io items h.params hio hok, ?_, hreads.ended⟩
    rw [hreads.returned]
    exact (List.take_prefix _ _).filterMap _

/-- Where every build gives an answer, every run does. -/
theorem run_answers {answer : ρ → List α → Prop} {params : ρ} (hparams : P params)
    {events : List (Event κ ρ)} (hevents : ∀ ev ∈ events, ev.Within P Q)
    (hbuild : ∀ params io items, P params → Q io → build params io = .ok items →
      answer params (items.filterMap (fetch params))) :
    (Run.run (Node.step build fetch) (start params) events).Answers answer :=
  (run_sound hparams hevents).answers hbuild

theorem run_unfailed {params : ρ} (hparams : P params) {events : List (Event κ ρ)}
    (hevents : ∀ ev ∈ events, ev.Within P Q)
    (hbuild : ∀ params io, P params → Q io → ∃ items, build params io = .ok items) :
    (Run.run (Node.step build fetch) (start params) events).failed = none := by
  have hstep : ∀ (node : Node ρ ι α ε) (ev : Event κ ρ), P node.params ∧ node.failed = none →
      ev.Within P Q → P (node.step build fetch ev).params ∧
        (node.step build fetch ev).failed = none := by
    rintro node ev ⟨hnode, hnone⟩ hev
    have halive : ¬node.failed.isSome = true := by
      rw [hnone]
      exact Bool.false_ne_true
    cases ev with
    | rescan params =>
      rw [Node.step, if_neg halive]
      exact ⟨hev, rfl⟩
    | exec io =>
      rw [Node.step, if_neg halive]
      cases hbuilt : node.built with
      | some items => exact ⟨hnode, hnone⟩
      | none =>
        obtain ⟨items, hitems⟩ := hbuild node.params io hnode hev
        rw [hitems]
        exact ⟨hnode, hnone⟩
  exact (Run.run_invariant (fun node : Node ρ ι α ε => P node.params ∧ node.failed = none) hstep
    ⟨hparams, rfl⟩ (Run.along_of_forall hevents _)).2

end Node

end Cursor
