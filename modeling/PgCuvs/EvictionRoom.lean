import Mathlib.Algebra.Order.BigOperators.Group.List
import Mathlib.Algebra.Order.Ring.Nat
import Mathlib.Data.List.MinMax
import PgCuvs.Room

/-! When evictions make the room that there could be. -/

namespace PgCuvs

/-! The least recently used entry of a device. -/

section Victim

variable {live : List IndexEntry} {device : ℕ}

theorem findLruIndex_eq_argmin : findLruIndex live device =
    ((live.zipIdx.filter fun p => evictable p.1 device).argmin
      fun p => p.1.lastSearch).map Prod.snd := by
  have hscan : ∀ (l : List (IndexEntry × ℕ)) (lru : Option (IndexEntry × ℕ)),
      l.foldl (lruStep device) (lru.map fun p => (p.2, p.1.lastSearch)) =
        ((l.filter fun p => evictable p.1 device).foldl
          (List.argAux fun b c => b.1.lastSearch < c.1.lastSearch) lru).map
            fun p => (p.2, p.1.lastSearch) := by
    intro l
    induction l with
    | nil => intro lru; rfl
    | cons p l ih =>
      intro lru
      rw [List.foldl_cons]
      by_cases hp : evictable p.1 device = true
      · rw [List.filter_cons_of_pos (p := fun q : IndexEntry × ℕ => evictable q.1 device) hp,
          List.foldl_cons, ← ih]
        congr 1
        cases lru with
        | none => simp [lruStep, hp, List.argAux]
        | some q =>
          simp only [lruStep, hp, Option.map_some, List.argAux, Bool.not_true, if_false,
            Bool.false_eq_true]
          split_ifs <;> rfl
      · have hskip : lruStep device (lru.map fun p => (p.2, p.1.lastSearch)) p =
            lru.map fun p => (p.2, p.1.lastSearch) := by simp [lruStep, hp]
        rw [List.filter_cons_of_neg (p := fun q : IndexEntry × ℕ => evictable q.1 device) hp, hskip,
          ih]
  rw [findLruIndex, List.argmin]
  have h := congrArg (Option.map Prod.fst) (hscan live.zipIdx none)
  rw [Option.map_map] at h
  exact h

def victim (live : List IndexEntry) (device : ℕ) : Option IndexEntry :=
  (findLruIndex live device).bind fun i => live[i]?

def withoutVictim (live : List IndexEntry) (device : ℕ) : List IndexEntry :=
  match findLruIndex live device with
  | some i => live.eraseIdx i
  | none => live

theorem victim_eq_some {e : IndexEntry} (h : victim live device = some e) :
    ∃ i, findLruIndex live device = some i ∧ live[i]? = some e ∧
      withoutVictim live device = live.eraseIdx i := by
  obtain ⟨i, hi, he⟩ := Option.bind_eq_some_iff.mp h
  exact ⟨i, hi, he, by rw [withoutVictim, hi]⟩

theorem victim_eq_none : victim live device = none ↔ ∀ e ∈ live, evictable e device = false := by
  constructor
  · intro h
    have hlru : findLruIndex live device = none := by
      cases hi : findLruIndex live device with
      | none => rfl
      | some i =>
        obtain ⟨e, he, -⟩ := findLruIndex_eq_some hi
        rw [victim, hi, Option.bind_some, he] at h
        nomatch h
    rw [findLruIndex_eq_argmin, Option.map_eq_none_iff, List.argmin_eq_none,
      List.filter_eq_nil_iff] at hlru
    intro e he
    obtain ⟨i, hi⟩ := List.mem_iff_getElem?.mp he
    exact Bool.eq_false_iff.mpr (hlru (e, i) (List.mk_mem_zipIdx_iff_getElem?.mpr hi))
  · intro h
    cases hv : victim live device with
    | none => rfl
    | some e =>
      obtain ⟨i, hi, -, -⟩ := victim_eq_some hv
      obtain ⟨e', he', hevict⟩ := findLruIndex_eq_some hi
      rw [h e' (List.mem_of_getElem? he')] at hevict
      nomatch hevict

theorem victim_least {e : IndexEntry} (h : victim live device = some e) :
    e ∈ live ∧ evictable e device = true ∧
      ∀ e' ∈ live, evictable e' device = true → e.lastSearch ≤ e'.lastSearch := by
  obtain ⟨i, hi, he, -⟩ := victim_eq_some h
  obtain ⟨e', he', hevict⟩ := findLruIndex_eq_some hi
  obtain rfl : e = e' := Option.some.inj (he.symm.trans he')
  refine ⟨List.mem_of_getElem? he, hevict, fun e' hmem hevict' => ?_⟩
  rw [findLruIndex_eq_argmin, Option.map_eq_some_iff] at hi
  obtain ⟨p, hp, rfl⟩ := hi
  have hpmem := (List.mem_filter.mp (List.argmin_mem hp)).1
  obtain rfl : p.1 = e := by
    have hget : live[p.2]? = some p.1 := List.mk_mem_zipIdx_iff_getElem?.mp hpmem
    exact Option.some.inj (hget.symm.trans he)
  obtain ⟨j, hj⟩ := List.mem_iff_getElem?.mp hmem
  exact List.le_of_mem_argmin (f := fun p : IndexEntry × ℕ => p.1.lastSearch)
    (List.mem_filter.mpr ⟨List.mk_mem_zipIdx_iff_getElem?.mpr hj, hevict'⟩) hp

theorem withoutVictim_length {e : IndexEntry} (h : victim live device = some e) :
    (withoutVictim live device).length + 1 = live.length := by
  obtain ⟨i, -, he, hrest⟩ := victim_eq_some h
  have hi := (List.getElem?_eq_some_iff.mp he).1
  rw [hrest, List.length_eraseIdx_of_lt hi]
  omega

end Victim

/-! One eviction. -/

def Saves (env : Env) (e : IndexEntry) : Prop :=
  needsSave e = false ∨ (e.handle.isSome ∧ env.saveFault e.key = none)

instance (env : Env) (e : IndexEntry) : Decidable (Saves env e) :=
  inferInstanceAs (Decidable (_ ∨ _))

section Lru

variable (cfg : Config) {env : Env} {d : Daemon} {device : ℕ} {e : IndexEntry}

theorem evictLru_of_none (h : victim d.live device = none) :
    evictLru cfg env d device = (d, 0) := by
  have hlru : findLruIndex d.live device = none := by
    cases hi : findLruIndex d.live device with
    | none => rfl
    | some i =>
      obtain ⟨e, he, hevict⟩ := findLruIndex_eq_some hi
      rw [victim_eq_none.mp h e (List.mem_of_getElem? he)] at hevict
      nomatch hevict
  rw [evictLru, hlru]

theorem evictLru_of_saves (h : victim d.live device = some e) (hs : Saves env e) :
    (evictLru cfg env d device).2 = evictedBytes e device ∧
      (evictLru cfg env d device).1.live = withoutVictim d.live device := by
  obtain ⟨i, hi, he, hrest⟩ := victim_eq_some h
  rw [evictLru, hi, hrest]
  dsimp only
  rw [he]
  dsimp only
  by_cases hneeds : needsSave e = true
  · obtain ⟨hhandle, hfault⟩ := hs.resolve_left (by rw [hneeds]; exact Bool.noConfusion)
    obtain ⟨g, hg⟩ := Option.isSome_iff_exists.mp hhandle
    have hsave : (saveIndex cfg env d.disk e).2 = true := by
      rw [saveIndex, hg]
      dsimp only
      rw [hfault]
      rfl
    rw [if_pos hneeds]
    rcases hpair : saveIndex cfg env d.disk e with ⟨disk, saved⟩
    rw [hpair] at hsave
    dsimp only at hsave
    subst hsave
    exact ⟨rfl, rfl⟩
  · rw [if_neg hneeds]
    exact ⟨rfl, rfl⟩

theorem evictLru_of_not_saves (h : victim d.live device = some e) (hs : ¬Saves env e) :
    (evictLru cfg env d device).2 = 0 ∧ (evictLru cfg env d device).1.live = d.live := by
  obtain ⟨i, hi, he, -⟩ := victim_eq_some h
  obtain ⟨hneeds, hno⟩ := not_or.mp hs
  have hsave : (saveIndex cfg env d.disk e).2 = false := by
    rw [saveIndex]
    cases hg : e.handle with
    | none => rfl
    | some g =>
      dsimp only
      cases hfault : env.saveFault e.key with
      | none => exact absurd ⟨by rw [hg]; rfl, hfault⟩ hno
      | some fault => cases fault <;> rfl
  rw [evictLru, hi]
  dsimp only
  rw [he]
  dsimp only
  rw [if_pos (Bool.eq_true_of_not_eq_false hneeds)]
  rcases hpair : saveIndex cfg env d.disk e with ⟨disk, saved⟩
  rw [hpair] at hsave
  dsimp only at hsave
  subst hsave
  exact ⟨rfl, rfl⟩

end Lru

/-! Room on a device, as a matter of what is resident. -/

structure RoomGoal where
  budget : ℕ
  reserved : ℕ
  needed : ℕ
  device : ℕ

def Daemon.goal (d : Daemon) (needed device : ℕ) : RoomGoal where
  budget := d.maxVramPerGpu device
  reserved := if device < cuvsMaxGpus then d.pendingBuildVram device else 0
  needed := needed
  device := device

def RoomGoal.Within (g : RoomGoal) (live : List IndexEntry) : Prop :=
  g.budget = 0 ∨
    (live.map fun e => entryVramOn e g.device).sum + g.reserved + g.needed ≤ g.budget

instance (g : RoomGoal) (live : List IndexEntry) : Decidable (g.Within live) :=
  inferInstanceAs (Decidable (_ ∨ _))

/-- Without every entry that eviction could remove there is room. -/
def CanMakeRoom (env : Env) (g : RoomGoal) (live : List IndexEntry) : Prop :=
  let rest := live.filter fun e => ¬(evictable e g.device = true ∧ Saves env e)
  g.Within rest ∧ g.needed ≤ env.freeVram rest g.device

/-- `ensure_vram` makes the room that there could be, and never exceeds the budget. -/
structure MakesRoomWhenPossible (cfg : Config) (env : Env) (d : Daemon) (needed device : ℕ) :
    Prop where
  succeeds : CanMakeRoom env (d.goal needed device) d.live →
    (ensureVram cfg env d needed device).2 = true
  budget : (ensureVram cfg env d needed device).2 = true → d.maxVramPerGpu device = 0 ∨
    totalVramUsed (ensureVram cfg env d needed device).1 device + needed ≤ d.maxVramPerGpu device

/-- The least recently used entry can be evicted and reports what it held. -/
def Yields (env : Env) (g : RoomGoal) (live : List IndexEntry) : Prop :=
  ∃ e, victim live g.device = some e ∧ Saves env e ∧ evictedBytes e g.device ≠ 0

/-- From the least recently used entry on, entries yield until memory is free. -/
inductive FreesMemory (env : Env) (g : RoomGoal) : List IndexEntry → Prop
  | enough {live : List IndexEntry} (h : g.needed ≤ env.freeVram live g.device) :
      FreesMemory env g live
  | evict {live : List IndexEntry} (h : Yields env g live)
      (hrest : FreesMemory env g (withoutVictim live g.device)) : FreesMemory env g live

/-- From the least recently used entry on, entries yield until what is left is
within the budget, where the last one may report nothing, and then until memory is free. -/
inductive LruMakesRoom (env : Env) (g : RoomGoal) : List IndexEntry → Prop
  | within {live : List IndexEntry} (h : g.Within live) (hfree : FreesMemory env g live) :
      LruMakesRoom env g live
  | last {live : List IndexEntry} {e : IndexEntry} (hover : ¬g.Within live)
      (hv : victim live g.device = some e) (hs : Saves env e)
      (hwithin : g.Within (withoutVictim live g.device))
      (hfree : FreesMemory env g (withoutVictim live g.device)) : LruMakesRoom env g live
  | evict {live : List IndexEntry} (hover : ¬g.Within live) (h : Yields env g live)
      (hrest : LruMakesRoom env g (withoutVictim live g.device)) : LruMakesRoom env g live

theorem freesMemory_iff {env : Env} {g : RoomGoal} {live : List IndexEntry} :
    FreesMemory env g live ↔ g.needed ≤ env.freeVram live g.device ∨
      (Yields env g live ∧ FreesMemory env g (withoutVictim live g.device)) := by
  constructor
  · rintro (h | ⟨h, hrest⟩)
    · exact Or.inl h
    · exact Or.inr ⟨h, hrest⟩
  · rintro (h | ⟨h, hrest⟩)
    · exact .enough h
    · exact .evict h hrest

theorem lruMakesRoom_of_within {env : Env} {g : RoomGoal} {live : List IndexEntry}
    (h : g.Within live) : LruMakesRoom env g live ↔ FreesMemory env g live := by
  constructor
  · rintro (⟨-, hfree⟩ | ⟨hover, -⟩ | ⟨hover, -⟩)
    · exact hfree
    · exact absurd h hover
    · exact absurd h hover
  · exact .within h

theorem lruMakesRoom_of_over {env : Env} {g : RoomGoal} {live : List IndexEntry}
    (h : ¬g.Within live) : LruMakesRoom env g live ↔
      (∃ e, victim live g.device = some e ∧ Saves env e) ∧
        ((g.Within (withoutVictim live g.device) ∧
            FreesMemory env g (withoutVictim live g.device)) ∨
          (Yields env g live ∧ LruMakesRoom env g (withoutVictim live g.device))) := by
  constructor
  · rintro (⟨hwithin, -⟩ | ⟨-, hv, hs, hwithin, hfree⟩ | ⟨-, hy, hrest⟩)
    · exact absurd hwithin h
    · exact ⟨⟨_, hv, hs⟩, Or.inl ⟨hwithin, hfree⟩⟩
    · obtain ⟨e, hv, hs, hbytes⟩ := hy
      exact ⟨⟨e, hv, hs⟩, Or.inr ⟨⟨e, hv, hs, hbytes⟩, hrest⟩⟩
  · rintro ⟨⟨e, hv, hs⟩, ⟨hwithin, hfree⟩ | ⟨hy, hrest⟩⟩
    · exact .last h hv hs hwithin hfree
    · exact .evict h hy hrest

section Ensure

variable (cfg : Config) (env : Env) (needed device : ℕ)

theorem MakesRoom.goal_eq {cfg : Config} {d d' : Daemon} (h : MakesRoom cfg d d') :
    d'.goal needed device = d.goal needed device := by
  rw [Daemon.goal, Daemon.goal, h.budget, h.pending]

theorem evictLru_goal (d : Daemon) :
    (evictLru cfg env d device).1.goal needed device = d.goal needed device :=
  (evictLru_room cfg env d device).goal_eq needed device

theorem goal_within_iff (d : Daemon) : (d.goal needed device).Within d.live ↔
    d.maxVramPerGpu device = 0 ∨
      totalVramUsed d device + needed ≤ d.maxVramPerGpu device := Iff.rfl

theorem overBudget_iff {needed device : ℕ} {d : Daemon} (hb : 0 < d.maxVramPerGpu device) :
    overBudget needed device d = true ↔ ¬(d.goal needed device).Within d.live := by
  rw [overBudget, decide_eq_true_eq, goal_within_iff]
  omega

/-- One round goes on with a shorter registry, or it ends the loop: then the
victim is gone all the same when it only reported nothing. -/
theorem evictLru_cases (d : Daemon) :
    (Yields env (d.goal needed device) d.live ∧ (evictLru cfg env d device).2 ≠ 0 ∧
        (evictLru cfg env d device).1.live = withoutVictim d.live device ∧
        (withoutVictim d.live device).length + 1 = d.live.length) ∨
      (¬Yields env (d.goal needed device) d.live ∧ (evictLru cfg env d device).2 = 0 ∧
        (((∃ e, victim d.live device = some e ∧ Saves env e) ∧
            (evictLru cfg env d device).1.live = withoutVictim d.live device) ∨
          ((¬∃ e, victim d.live device = some e ∧ Saves env e) ∧
            (evictLru cfg env d device).1.live = d.live))) := by
  cases hv : victim d.live device with
  | none =>
    have hnone : ∀ P : IndexEntry → Prop, ¬∃ e, victim d.live device = some e ∧ P e := by
      rintro P ⟨e, he, -⟩
      rw [hv] at he
      nomatch he
    rw [← hv, evictLru_of_none cfg hv]
    exact Or.inr ⟨hnone _, rfl, Or.inr ⟨hnone _, rfl⟩⟩
  | some e =>
    have hsome : ∀ P : IndexEntry → Prop, (∃ e, victim d.live device = some e ∧ P e) ↔ P e := by
      intro P
      constructor
      · rintro ⟨e', he', h⟩
        obtain rfl : e = e' := Option.some.inj (hv.symm.trans he')
        exact h
      · exact fun h => ⟨e, hv, h⟩
    have hyields : Yields env (d.goal needed device) d.live ↔
        Saves env e ∧ evictedBytes e device ≠ 0 := hsome _
    rw [← hv, hsome, hyields]
    by_cases hs : Saves env e
    · obtain ⟨hbytes, hlive⟩ := evictLru_of_saves cfg hv hs
      rw [hbytes]
      by_cases hzero : evictedBytes e device = 0
      · exact Or.inr ⟨fun h => h.2 hzero, hzero, Or.inl ⟨hs, hlive⟩⟩
      · exact Or.inl ⟨⟨hs, hzero⟩, hzero, hlive, withoutVictim_length hv⟩
    · obtain ⟨hbytes, hlive⟩ := evictLru_of_not_saves cfg hv hs
      exact Or.inr ⟨fun h => hs h.1, hbytes, Or.inr ⟨hs, hlive⟩⟩

variable {needed device}

theorem evictUntilFree_iff (fuel : ℕ) (d : Daemon) (hfuel : d.live.length < fuel) :
    (evictUntilFree cfg env needed device fuel d (env.freeVram d.live device)).2 = true ↔
      FreesMemory env (d.goal needed device) d.live := by
  induction fuel generalizing d with
  | zero => exact absurd hfuel (Nat.not_lt_zero _)
  | succ fuel ih =>
    have hround := evictLru_cases cfg env needed device d
    have hgoal := evictLru_goal cfg env needed device d
    have hunfold : FreesMemory env (d.goal needed device) d.live ↔
        needed ≤ env.freeVram d.live device ∨ (Yields env (d.goal needed device) d.live ∧
          FreesMemory env (d.goal needed device) (withoutVictim d.live device)) :=
      freesMemory_iff
    rw [hunfold, evictUntilFree]
    by_cases hfree : needed ≤ env.freeVram d.live device
    · rw [if_neg (by simp [hfree])]
      exact ⟨fun _ => Or.inl hfree, fun _ => decide_eq_true hfree⟩
    by_cases hempty : d.live = []
    · rw [if_neg (by simp [hempty])]
      refine ⟨fun h => absurd (of_decide_eq_true h) hfree, fun h => ?_⟩
      rcases hround with ⟨-, -, -, hlen⟩ | ⟨hno, -, -⟩
      · rw [hempty] at hlen
        exact absurd hlen (Nat.succ_ne_zero _)
      · exact absurd (h.resolve_left hfree).1 hno
    · rw [if_pos (by simpa [hempty] using hfree)]
      rcases hpair : evictLru cfg env d device with ⟨d', freed⟩
      rw [hpair] at hround hgoal
      dsimp only at hround hgoal ⊢
      rcases hround with ⟨hyes, hfreed, hlive, hlen⟩ | ⟨hno, hfreed, -⟩
      · rw [if_neg hfreed, ih d' (by rw [hlive]; omega), hgoal, hlive]
        exact ⟨fun h => Or.inr ⟨hyes, h⟩, fun h => (h.resolve_left hfree).2⟩
      · rw [if_pos hfreed]
        exact ⟨fun h => absurd (of_decide_eq_true h) hfree,
          fun h => absurd (h.resolve_left hfree).1 hno⟩

theorem evictWhile_iff (fuel : ℕ) (d : Daemon) (hfuel : d.live.length < fuel)
    (hb : 0 < d.maxVramPerGpu device) :
    ((d.goal needed device).Within (evictWhile cfg env device (overBudget needed device) fuel d).live ∧
        FreesMemory env (d.goal needed device)
          (evictWhile cfg env device (overBudget needed device) fuel d).live) ↔
      LruMakesRoom env (d.goal needed device) d.live := by
  induction fuel generalizing d with
  | zero => exact absurd hfuel (Nat.not_lt_zero _)
  | succ fuel ih =>
    have hround := evictLru_cases cfg env needed device d
    have hgoal := evictLru_goal cfg env needed device d
    have hbudget := (evictLru_room cfg env d device).budget
    rw [evictWhile]
    by_cases hover : overBudget needed device d = true
    · have hno := (overBudget_iff hb).mp hover
      have hunfold : LruMakesRoom env (d.goal needed device) d.live ↔
          (∃ e, victim d.live device = some e ∧ Saves env e) ∧
            (((d.goal needed device).Within (withoutVictim d.live device) ∧
                FreesMemory env (d.goal needed device) (withoutVictim d.live device)) ∨
              (Yields env (d.goal needed device) d.live ∧
                LruMakesRoom env (d.goal needed device) (withoutVictim d.live device))) :=
        lruMakesRoom_of_over hno
      rw [hunfold]
      by_cases hempty : d.live = []
      · rw [if_neg (by simp [hempty])]
        refine ⟨fun h => absurd h.1 hno, fun h => ?_⟩
        obtain ⟨⟨e, he, -⟩, -⟩ := h
        have hmem := (victim_least he).1
        rw [hempty] at hmem
        exact absurd hmem (List.not_mem_nil)
      · rw [if_pos (by simp [hempty, hover])]
        rcases hpair : evictLru cfg env d device with ⟨d', freed⟩
        rw [hpair] at hround hgoal hbudget
        dsimp only at hround hgoal hbudget ⊢
        -- a round that frees nothing ends the loop, with or without an entry evicted
        rcases hround with ⟨hyes, hfreed, hlive, hlen⟩ | ⟨hnot, hfreed, hgone⟩
        · have hrest := ih d' (by rw [hlive]; omega) (by rw [hbudget]; exact hb)
          rw [hgoal, hlive] at hrest
          rw [if_neg hfreed, hrest]
          constructor
          · intro h
            obtain ⟨e, hv, hs, hbytes⟩ := hyes
            exact ⟨⟨e, hv, hs⟩, Or.inr ⟨⟨e, hv, hs, hbytes⟩, h⟩⟩
          · rintro ⟨-, ⟨hwithin, hfree⟩ | ⟨-, h⟩⟩
            · exact .within hwithin hfree
            · exact h
        · rw [if_pos hfreed]
          rcases hgone with ⟨hv, hlive⟩ | ⟨hv, hlive⟩
          · rw [hlive]
            exact ⟨fun h => ⟨hv, Or.inl h⟩, fun h => h.2.resolve_right fun hy => hnot hy.1⟩
          · rw [hlive]
            exact ⟨fun h => absurd h.1 hno, fun h => absurd h.1 hv⟩
    · rw [if_neg (by simp [hover])]
      have hwithin := not_not.mp (mt (overBudget_iff hb).mpr hover)
      rw [lruMakesRoom_of_within hwithin]
      exact ⟨fun h => h.2, fun h => ⟨hwithin, h⟩⟩

theorem ensureVram_iff (d : Daemon) : (ensureVram cfg env d needed device).2 = true ↔
    LruMakesRoom env (d.goal needed device) d.live := by
  rw [ensureVram]
  by_cases hb : 0 < d.maxVramPerGpu device
  · set d1 := evictWhile cfg env device (overBudget needed device) (d.live.length + 1) d with hd1
    have hfirst : (if 0 < d.maxVramPerGpu device ∧ overBudget needed device d = true then d1
        else d) = d1 := by
      split_ifs with hover
      · rfl
      · rw [hd1, evictWhile, if_neg]
        rintro hmore
        exact hover ⟨hb, (Bool.and_eq_true_iff.mp hmore).2⟩
    have hroom : MakesRoom cfg d d1 := (evictClosed_room cfg env).of_evictWhile _ d
    have hgoal := hroom.goal_eq needed device
    have hb1 : 0 < d1.maxVramPerGpu device := by
      rw [hroom.budget]
      exact hb
    rw [← evictWhile_iff cfg env (d.live.length + 1) d (Nat.lt_succ_self _) hb, ← hd1]
    rw [hfirst]
    by_cases hover : overBudget needed device d1 = true
    · have hno := (overBudget_iff hb1).mp hover
      rw [if_pos ⟨hb1, hover⟩]
      rw [hgoal] at hno
      exact ⟨(fun h => by cases h), fun h => absurd h.1 hno⟩
    · have hwithin := not_not.mp (mt (overBudget_iff hb1).mpr hover)
      rw [if_neg fun h => hover h.2, evictUntilFree_iff cfg env _ d1 (Nat.lt_succ_self _), hgoal]
      rw [hgoal] at hwithin
      exact ⟨fun h => ⟨hwithin, h⟩, fun h => h.2⟩
  · have hwithin : (d.goal needed device).Within d.live := Or.inl (Nat.eq_zero_of_not_pos hb)
    have hfirst : (if 0 < d.maxVramPerGpu device ∧ overBudget needed device d = true then
        evictWhile cfg env device (overBudget needed device) (d.live.length + 1) d else d) = d :=
      if_neg fun h => hb h.1
    rw [hfirst, if_neg fun h => hb h.1,
      evictUntilFree_iff cfg env _ d (Nat.lt_succ_self _), lruMakesRoom_of_within hwithin]

theorem evictLru_sublist (d : Daemon) : (evictLru cfg env d device).1.live.Sublist d.live := by
  have hrest : (withoutVictim d.live device).Sublist d.live := by
    rw [withoutVictim]
    split
    · exact List.eraseIdx_sublist _ _
    · exact List.Sublist.refl _
  rcases evictLru_cases cfg env 0 device d with ⟨-, -, hlive, -⟩ | ⟨-, -, ⟨-, hlive⟩ | ⟨-, hlive⟩⟩
  · rw [hlive]
    exact hrest
  · rw [hlive]
    exact hrest
  · rw [hlive]

theorem evictClosed_sublist :
    EvictClosed cfg env fun d d' => MakesRoom cfg d d' ∧ d'.live.Sublist d.live where
  refl d := ⟨.refl d, List.Sublist.refl _⟩
  trans h h' := ⟨h.1.trans h'.1, h'.2.trans h.2⟩
  step d device := ⟨evictLru_room cfg env d device, evictLru_sublist cfg env d⟩

theorem RoomGoal.Within.mono {g : RoomGoal} {live live' : List IndexEntry} (h : g.Within live)
    (hsub : live'.Sublist live) : g.Within live' := by
  rcases h with h | h
  · exact Or.inl h
  · have hsum : (live'.map fun e => entryVramOn e g.device).sum ≤
        (live.map fun e => entryVramOn e g.device).sum :=
      (hsub.map _).sum_le_sum (by simp)
    exact Or.inr (by omega)

theorem ensureVram_within (d : Daemon)
    (h : (d.goal needed device).Within (ensureVram cfg env d needed device).1.live) :
    d.maxVramPerGpu device = 0 ∨
      totalVramUsed (ensureVram cfg env d needed device).1 device + needed ≤
        d.maxVramPerGpu device := by
  have hroom := ensureVram_room cfg env d needed device
  rw [← hroom.goal_eq needed device, goal_within_iff, hroom.budget] at h
  exact h

/-- When it succeeds, what was reserved and is asked for fits in the budget. -/
theorem ensureVram_budget (d : Daemon) (h : (ensureVram cfg env d needed device).2 = true) :
    d.maxVramPerGpu device = 0 ∨
      totalVramUsed (ensureVram cfg env d needed device).1 device + needed ≤
        d.maxVramPerGpu device := by
  refine ensureVram_within cfg env d ?_
  rw [ensureVram] at h ⊢
  set d1 := if 0 < d.maxVramPerGpu device ∧ overBudget needed device d = true then
      evictWhile cfg env device (overBudget needed device) (d.live.length + 1) d
    else d with hd1
  have hroom : MakesRoom cfg d d1 := by
    rw [hd1]
    split_ifs
    · exact (evictClosed_room cfg env).of_evictWhile _ d
    · exact .refl d
  by_cases hb : 0 < d1.maxVramPerGpu device
  · by_cases hover : overBudget needed device d1 = true
    · rw [if_pos ⟨hb, hover⟩] at h
      cases h
    · have hwithin := not_not.mp (mt (overBudget_iff hb).mpr hover)
      rw [if_neg fun h => hover h.2]
      rw [hroom.goal_eq] at hwithin
      exact hwithin.mono ((evictClosed_sublist cfg env).of_evictUntilFree _ d1 _).2
  · rw [hroom.budget] at hb
    exact Or.inl (Nat.eq_zero_of_not_pos hb)

end Ensure

/-! Where every entry that may go also yields, nothing stops the loops early. -/

section Complete

variable {env : Env} {g : RoomGoal} {live : List IndexEntry}

theorem filter_withoutVictim {p : IndexEntry → Bool}
    (hp : ∀ e, victim live g.device = some e → p e = false) :
    (withoutVictim live g.device).filter p = live.filter p := by
  cases hv : victim live g.device with
  | none =>
    rw [withoutVictim]
    split
    · rename_i i hi
      obtain ⟨e, he, -⟩ := findLruIndex_eq_some hi
      rw [victim, hi, Option.bind_some, he] at hv
      nomatch hv
    · rfl
  | some e =>
    obtain ⟨i, -, he, hrest⟩ := victim_eq_some hv
    obtain ⟨hi, hget⟩ := List.getElem?_eq_some_iff.mp he
    have hsplit : live = live.take i ++ e :: live.drop (i + 1) := by
      rw [← hget, List.getElem_cons_drop, List.take_append_drop]
    rw [hrest, List.eraseIdx_eq_take_drop_succ]
    conv_rhs => rw [hsplit]
    rw [List.filter_append, List.filter_append, List.filter_cons_of_neg (by simp [hp e hv])]

def AllYield (env : Env) (g : RoomGoal) (live : List IndexEntry) : Prop :=
  ∀ e ∈ live, evictable e g.device = true → Saves env e ∧ evictedBytes e g.device ≠ 0

theorem AllYield.withoutVictim (h : AllYield env g live) :
    AllYield env g (withoutVictim live g.device) := by
  intro e he
  rw [PgCuvs.withoutVictim] at he
  split at he
  · exact h e (List.mem_of_mem_eraseIdx he)
  · exact h e he

theorem AllYield.yields_or (h : AllYield env g live) : Yields env g live ∨
    (live.filter fun e => ¬(evictable e g.device = true ∧ Saves env e)) = live := by
  cases hv : victim live g.device with
  | none =>
    refine Or.inr (List.filter_eq_self.mpr fun e he => decide_eq_true ?_)
    rintro ⟨hevict, -⟩
    rw [victim_eq_none.mp hv e he] at hevict
    nomatch hevict
  | some e =>
    obtain ⟨hmem, hevict, -⟩ := victim_least hv
    exact Or.inl ⟨e, hv, h e hmem hevict⟩

theorem AllYield.rest_withoutVictim (h : AllYield env g live) :
    ((PgCuvs.withoutVictim live g.device).filter fun e =>
        ¬(evictable e g.device = true ∧ Saves env e)) =
      live.filter fun e => ¬(evictable e g.device = true ∧ Saves env e) := by
  refine filter_withoutVictim fun e hv => decide_eq_false ?_
  obtain ⟨hmem, hevict, -⟩ := victim_least hv
  exact not_not.mpr ⟨hevict, (h e hmem hevict).1⟩

theorem Yields.length_withoutVictim (h : Yields env g live) :
    (withoutVictim live g.device).length < live.length := by
  obtain ⟨e, hv, -⟩ := h
  exact Nat.lt_of_succ_le (withoutVictim_length hv).le

theorem AllYield.freesMemory (h : AllYield env g live)
    (hfree : g.needed ≤ env.freeVram
      (live.filter fun e => ¬(evictable e g.device = true ∧ Saves env e)) g.device) :
    FreesMemory env g live := by
  induction hn : live.length using Nat.strong_induction_on generalizing live with
  | _ n ih =>
    subst hn
    rcases h.yields_or with hy | hself
    · refine .evict hy (ih _ hy.length_withoutVictim h.withoutVictim ?_ rfl)
      rw [h.rest_withoutVictim]
      exact hfree
    · rw [hself] at hfree
      exact .enough hfree

theorem AllYield.lruMakesRoom (h : AllYield env g live) (hroom : CanMakeRoom env g live) :
    LruMakesRoom env g live := by
  induction hn : live.length using Nat.strong_induction_on generalizing live with
  | _ n ih =>
    subst hn
    by_cases hwithin : g.Within live
    · exact .within hwithin (h.freesMemory hroom.2)
    · rcases h.yields_or with hy | hself
      · refine .evict hwithin hy (ih _ hy.length_withoutVictim h.withoutVictim ?_ rfl)
        rw [CanMakeRoom, h.rest_withoutVictim]
        exact hroom
      · rw [CanMakeRoom, hself] at hroom
        exact absurd hroom.1 hwithin

end Complete

/-- Only a victim that reports nothing, or cannot be saved, keeps `ensure_vram`
from the room that there could be. -/
theorem ensureVram_makesRoom_iff (cfg : Config) (env : Env) (d : Daemon) (needed device : ℕ) :
    MakesRoomWhenPossible cfg env d needed device ↔
      (CanMakeRoom env (d.goal needed device) d.live →
        LruMakesRoom env (d.goal needed device) d.live) := by
  constructor
  · intro h hroom
    exact (ensureVram_iff cfg env d).mp (h.succeeds hroom)
  · intro h
    exact ⟨fun hroom => (ensureVram_iff cfg env d).mpr (h hroom), ensureVram_budget cfg env d⟩

theorem ensureVram_of_allYield (cfg : Config) {env : Env} {d : Daemon} {needed device : ℕ}
    (h : AllYield env (d.goal needed device) d.live)
    (hroom : CanMakeRoom env (d.goal needed device) d.live) :
    (ensureVram cfg env d needed device).2 = true :=
  (ensureVram_iff cfg env d).mpr (h.lruMakesRoom hroom)

def coldFlat : Daemon :=
  { Daemon.initial (fun _ => 100) (fun _ _ => Artifacts.empty) with
    registry := ⟨[
      { IndexEntry.zero with
        key := ⟨1, 2⟩, dim := 1, nVecs := 1, tids := [7], isFlat := true, lastSearch := 1 },
      { IndexEntry.zero with
        key := ⟨1, 3⟩, dim := 1, nVecs := 1, tids := [7], vramBytes := 100, lastSearch := 2
        handle := some ⟨[], [[0]]⟩ }], []⟩ }

theorem ensureVram_coldFlat :
    CanMakeRoom (Env.quiet 0 1000) (coldFlat.goal 50 0) coldFlat.live ∧
      (ensureVram sampleConfig (Env.quiet 0 1000) coldFlat 50 0).2 = false ∧
      ¬MakesRoomWhenPossible sampleConfig (Env.quiet 0 1000) coldFlat 50 0 := by
  have hfails : (ensureVram sampleConfig (Env.quiet 0 1000) coldFlat 50 0).2 = false := by decide
  have hroom : CanMakeRoom (Env.quiet 0 1000) (coldFlat.goal 50 0) coldFlat.live :=
    ⟨by decide, by decide⟩
  refine ⟨hroom, hfails, fun h => ?_⟩
  rw [h.succeeds hroom] at hfails
  nomatch hfails

end PgCuvs
