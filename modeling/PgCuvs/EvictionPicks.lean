import PgCuvs.EvictionRoom

/-! Which entries a build evicts, from the registry it finds, and what that does to the
index it builds. -/

namespace PgCuvs

section Own

def own (key : Key) (live : List IndexEntry) : List IndexEntry := live.filter fun e => e.key == key

/-- The evictions between `d` and `d'` took no entry of the index, and no failing save on the
way took its `.tids`. -/
def Spared (cfg : Config) (key : Key) (d d' : Daemon) : Prop :=
  (own key d'.live).length = (own key d.live).length ∧
    (d'.disk cfg.indexDir key).tids = (d.disk cfg.indexDir key).tids

variable {cfg : Config} {key : Key} {r r' : Resident} {d d' : Daemon}

theorem length_own_removeIdx {reg : Registry} {i : ℕ} {e : IndexEntry} (freed : IndexEntry)
    (hi : reg.live[i]? = some e) (hkey : e.key = key) :
    (own key (reg.removeIdx i freed).live).length + 1 = (own key reg.live).length := by
  obtain ⟨hlt, rfl⟩ := List.getElem?_eq_some_iff.mp hi
  have hself : own key [reg.live[i]] = [reg.live[i]] :=
    List.filter_cons_of_pos (by simpa using hkey)
  change (own key (reg.live.eraseIdx i)).length + 1 = _
  conv_rhs => rw [← List.take_append_drop i reg.live, List.drop_eq_getElem_cons hlt]
  rw [List.eraseIdx_eq_take_drop_succ, own, own, List.filter_append, List.filter_append,
    ← List.singleton_append, List.filter_append]
  change _ = ((reg.live.take i).filter _ ++ (own key [reg.live[i]] ++ _)).length
  rw [hself]
  simp only [List.length_append, List.length_singleton]
  omega

/-- Evictions that take no entry of the index leave its files alone, up to the `.tids` that
a failing save takes. -/
theorem Evictions.own (h : Evictions cfg r r') (key : Key) :
    (own key r'.1.live).Sublist (own key r.1.live) ∧
      (∀ dir, dir ≠ cfg.indexDir → r'.2 dir key = r.2 dir key) ∧
      ((PgCuvs.own key r'.1.live).length = (PgCuvs.own key r.1.live).length →
        r'.2 cfg.indexDir key = r.2 cfg.indexDir key ∨
          r'.2 cfg.indexDir key = { r.2 cfg.indexDir key with tids := none }) := by
  induction h with
  | refl => exact ⟨List.Sublist.refl _, fun _ _ => rfl, fun _ => .inl rfl⟩
  | tail _ hstep ih =>
    obtain ⟨hsub, hother, hfiles⟩ := ih
    cases hstep with
    | @drop reg disk i device e hi hdev hsave =>
      have hdrop : (PgCuvs.own key (reg.removeIdx i (freeEvicted e)).live).Sublist
          (PgCuvs.own key reg.live) := (List.eraseIdx_sublist ..).filter _
      refine ⟨hdrop.trans hsub, hother, fun hlen => hfiles ?_⟩
      exact le_antisymm hsub.length_le (hlen ▸ hdrop.length_le)
    | @saved reg disk i device e g hi hdev hsave hg =>
      have hdrop : (PgCuvs.own key (reg.removeIdx i (freeEvicted e)).live).Sublist
          (PgCuvs.own key reg.live) := (List.eraseIdx_sublist ..).filter _
      refine ⟨hdrop.trans hsub, fun dir hdir => ?_, fun hlen => ?_⟩
      · rw [← hother dir hdir]
        exact if_neg fun hat => hdir hat.1
      · -- the key has as many entries as before, so the evicted one is another
        have hkey : e.key ≠ key := by
          intro hkey
          have hshort := length_own_removeIdx (freeEvicted e) hi hkey
          have hle := hsub.length_le
          simp only at hlen hle
          omega
        have hsame : disk.modify cfg.indexDir e.key (runFileOps (saveEntryOps none e g).1)
            cfg.indexDir key = disk cfg.indexDir key := Disk.modify_of_key_ne _ _ hkey.symm
        simp only [hsame]
        exact hfiles (le_antisymm hsub.length_le (hlen ▸ hdrop.length_le))
    -- the entry stays, but its save may have removed `.tids`
    | @failed reg disk i e g fault hi hsave hg =>
      refine ⟨hsub, fun dir hdir => ?_, fun hlen => ?_⟩
      · rw [← hother dir hdir]
        exact if_neg fun hat => hdir hat.1
      · simp only at hlen hfiles ⊢
        by_cases hkey : e.key = key
        · subst hkey
          rw [Disk.modify_same]
          rcases hfiles hlen with hsame | hgone
          · rw [hsame]
            cases fault with
            | renameCagra => exact .inr rfl
            | writeTids | serialize | renameTids => exact .inl rfl
          · rw [hgone]
            cases fault <;> exact .inr rfl
        · rw [Disk.modify_of_key_ne _ _ (Ne.symm hkey)]
          exact hfiles hlen


end Own

/-! The entries picked, without the files. -/

section Picks

/-- Entries that evictions pick, in turn, and those they leave. An entry whose save fails is
picked and left. -/
structure Picks where
  entries : List IndexEntry
  left : List IndexEntry
  /-- no failure among them -/
  done : Bool

def Picks.nothing (live : List IndexEntry) (done : Bool) : Picks := ⟨[], live, done⟩

def Picks.andThen (p : Picks) (next : List IndexEntry → Picks) : Picks :=
  { next p.left with entries := p.entries ++ (next p.left).entries }

theorem Picks.andThen_done (p : Picks) (next : List IndexEntry → Picks) :
    (p.andThen next).done = (next p.left).done := rfl

variable (cfg : Config) (env : Env) (benv : BuildEnv)

/-- `evict_lru`; it is done when it frees something. -/
def lruPick (device : ℕ) (live : List IndexEntry) : Picks :=
  match victim live device with
  | none => .nothing live false
  | some e =>
    if Saves env e then ⟨[e], withoutVictim live device, evictedBytes e device != 0⟩
    else ⟨[e], live, false⟩

def loopPicks (device : ℕ) (more : List IndexEntry → Bool) : ℕ → List IndexEntry → Picks
  | 0, live => .nothing live !more live
  | fuel + 1, live =>
    if more live then
      let p := lruPick env device live
      if p.done then p.andThen (loopPicks device more fuel) else p
    else .nothing live true

def ensurePicks (g : RoomGoal) (live : List IndexEntry) : Picks :=
  let p := loopPicks env g.device (fun live => !decide (g.Within live)) (live.length + 1) live
  if g.Within p.left then
    p.andThen fun left =>
      loopPicks env g.device (fun live => decide (env.freeVram live g.device < g.needed))
        (left.length + 1) left
  else { p with done := false }

def Daemon.holding (d : Daemon) (live : List IndexEntry) : Daemon :=
  { d with registry := { d.registry with live } }

/-- A shard goes to `dev`, else to the device with the most headroom. -/
def placePicks (d : Daemon) (needed dev : ℕ) (live : List IndexEntry) : Picks :=
  let p := ensurePicks env (d.goal needed dev) live
  if p.done then p
  else
    match pickGpuForIndex cfg env (d.holding p.left) needed with
    | none => p
    | some alt => p.andThen (ensurePicks env (d.goal needed alt))

def shardPicks (d : Daemon) (frame : BuildFrame) (nVecs sc : ℕ) : ℕ → ℕ → List IndexEntry → Picks
  | 0, _, live => .nothing live true
  | todo + 1, i, live =>
    let p := placePicks cfg env d
      (estimateVramBytes (shardRange nVecs sc i).2 frame.dim frame.graphDegree)
      (usableGpu cfg (i % nUsableGpus cfg)) live
    if p.done ∧ (benv.shardImage i).isSome then p.andThen (shardPicks d frame nVecs sc todo (i + 1))
    else { p with done := false }

def BuildOutcome.builds : BuildOutcome → Bool
  | .built _ => true
  | .oom | .failed => false

/-- The retries of a kernel that runs out of memory; done when it builds. -/
def retryPicks (device : ℕ) : ℕ → ℕ → List IndexEntry → Picks
  | 0, round, live => .nothing live (benv.outcome round).builds
  | fuel + 1, round, live =>
    match benv.outcome round with
    | .oom =>
      let p := lruPick env device live
      if p.done then p.andThen (retryPicks device fuel (round + 1)) else p
    | outcome => .nothing live outcome.builds

end Picks

/-! What the handlers do is what the picks say. -/

section Follows

/-- The index `key` loses nothing when `e` is picked: `e` is of another index, or its save fails,
and not after the new `.tids` has replaced an old one. -/
def IndexEntry.Spares (env : Env) (key : Key) (tids : Option TidsFile) (e : IndexEntry) : Prop :=
  e.key = key →
    ¬Saves env e ∧ (e.handle.isSome → env.saveFault key = some .renameCagra → tids = none)

structure Follows (cfg : Config) (env : Env) (key : Key) (d : Daemon) (p : Picks) (d' : Daemon) :
    Prop where
  room : MakesRoom cfg d d'
  left : p.left = d'.live
  spared : Spared cfg key d d' ↔
    ∀ e ∈ p.entries, e.Spares env key (d.disk cfg.indexDir key).tids

variable {cfg : Config} {env : Env} {key : Key} {d d' d'' : Daemon} {p q : Picks}
  {device needed : ℕ}

theorem spared_trans (h : Evictions cfg d.resident d'.resident)
    (h' : Evictions cfg d'.resident d''.resident) :
    Spared cfg key d d'' ↔ Spared cfg key d d' ∧ Spared cfg key d' d'' := by
  obtain ⟨hsub, -, hfiles⟩ := h.own key
  obtain ⟨hsub', -, hfiles'⟩ := h'.own key
  constructor
  · rintro ⟨hlen, htids⟩
    have hle := hsub.length_le
    have hle' := hsub'.length_le
    have hfirst : (own key d'.live).length = (own key d.live).length := by
      simp only [Daemon.resident, Daemon.live] at *
      omega
    have hsecond : (own key d''.live).length = (own key d'.live).length := by
      rw [hfirst, hlen]
    have hsame : (d'.disk cfg.indexDir key).tids = (d.disk cfg.indexDir key).tids := by
      rcases hfiles hfirst with hsame | hgone
      · exact congrArg Artifacts.tids hsame
      · have hnone : (d'.disk cfg.indexDir key).tids = none := congrArg Artifacts.tids hgone
        rcases hfiles' hsecond with hkept | hlost
        · exact (congrArg Artifacts.tids hkept).symm.trans htids
        · have hnone' : (d''.disk cfg.indexDir key).tids = none := congrArg Artifacts.tids hlost
          rw [hnone, ← htids, hnone']
    exact ⟨⟨hfirst, hsame⟩, hsecond, htids.trans hsame.symm⟩
  · rintro ⟨⟨hlen, htids⟩, hlen', htids'⟩
    exact ⟨hlen'.trans hlen, htids'.trans htids⟩

namespace Follows

theorem nothing (d : Daemon) (done : Bool) : Follows cfg env key d (.nothing d.live done) d :=
  ⟨.refl d, rfl, fun _ _ he => (nomatch he), fun _ => ⟨rfl, rfl⟩⟩

theorem trans (h : Follows cfg env key d p d') (h' : Follows cfg env key d' q d'') :
    Follows cfg env key d { q with entries := p.entries ++ q.entries } d'' := by
  refine ⟨h.room.trans h'.room, h'.left, ?_⟩
  rw [spared_trans h.room.evictions h'.room.evictions, List.forall_mem_append, ← h.spared]
  refine and_congr_right fun hspared => ?_
  rw [h'.spared, hspared.2]

theorem andThen {next : List IndexEntry → Picks} (h : Follows cfg env key d p d')
    (h' : Follows cfg env key d' (next d'.live) d'') :
    Follows cfg env key d (p.andThen next) d'' := by
  rw [Picks.andThen, h.left]
  exact h.trans h'

theorem reserved {pending : ℕ → ℕ} (h : Follows cfg env key { d with pendingBuildVram := pending } p d') :
    Follows cfg env key d p { d' with pendingBuildVram := d.pendingBuildVram } :=
  ⟨⟨h.room.evictions, h.room.budget, rfl⟩, h.left, h.spared⟩

theorem done (h : Follows cfg env key d p d') (done : Bool) :
    Follows cfg env key d { p with done } d' :=
  ⟨h.room, h.left, h.spared⟩

end Follows

theorem evictLru_files {e : IndexEntry} (h : victim d.live device = some e) :
    (evictLru cfg env d device).1.disk
      = if needsSave e then (saveIndex cfg env d.disk e).1 else d.disk := by
  obtain ⟨i, hi, he, -⟩ := victim_eq_some h
  rw [evictLru, hi]
  dsimp only
  rw [he]
  dsimp only
  split_ifs
  · rcases saveIndex cfg env d.disk e with ⟨disk, _ | _⟩ <;> rfl
  · rfl

theorem saveIndex_of_ne {e : IndexEntry} (disk : Disk) (hkey : e.key ≠ key) (dir : Dir) :
    (saveIndex cfg env disk e).1 dir key = disk dir key := by
  unfold saveIndex
  split
  · rfl
  · exact Disk.modify_of_key_ne _ _ hkey.symm

/-- A save that fails at the second rename takes the `.tids` away. -/
theorem saveIndex_tids_iff {e : IndexEntry} (disk : Disk) (hs : ¬Saves env e) :
    ((saveIndex cfg env disk e).1 cfg.indexDir e.key).tids = (disk cfg.indexDir e.key).tids ↔
      (e.handle.isSome → env.saveFault e.key = some .renameCagra →
        (disk cfg.indexDir e.key).tids = none) := by
  obtain ⟨-, hfault⟩ := not_or.mp hs
  unfold saveIndex
  cases hg : e.handle with
  | none => simp
  | some g =>
    dsimp only
    rw [Disk.modify_same]
    rcases hcase : env.saveFault e.key with _ | _ | _ | _ | _
    · exact absurd ⟨by rw [hg]; rfl, hcase⟩ hfault
    · exact iff_of_true rfl fun _ h => nomatch h
    · exact iff_of_true rfl fun _ h => nomatch h
    · exact iff_of_true rfl fun _ h => nomatch h
    · exact ⟨fun h _ _ => h.symm, fun h => (h rfl rfl).symm⟩

theorem evictLru_spared_iff {e : IndexEntry} (h : victim d.live device = some e) :
    Spared cfg key d (evictLru cfg env d device).1 ↔
      e.Spares env key (d.disk cfg.indexDir key).tids := by
  obtain ⟨i, hi, he, hrest⟩ := victim_eq_some h
  have hdisk : (evictLru cfg env d device).1.disk = _ := evictLru_files h
  by_cases hkey : e.key = key
  · by_cases hs : Saves env e
    · refine iff_of_false (fun hspared => ?_) fun hspares => (hspares hkey).1 hs
      have hshort := @length_own_removeIdx key d.registry i e e he hkey
      have hlen := hspared.1
      rw [(evictLru_of_saves cfg h hs).2, hrest] at hlen
      change (own key (d.live.eraseIdx i)).length + 1 = (own key d.live).length at hshort
      omega
    · have hneeds : needsSave e = true := Bool.eq_true_of_not_eq_false (not_or.mp hs).1
      rw [if_pos hneeds] at hdisk
      have htids : ((saveIndex cfg env d.disk e).1 cfg.indexDir e.key).tids = _ ↔ _ :=
        saveIndex_tids_iff d.disk hs
      rw [Spared, (evictLru_of_not_saves cfg h hs).2, hdisk]
      subst hkey
      rw [htids]
      exact ⟨fun hsame _ => ⟨hs, hsame.2⟩, fun hspares => ⟨rfl, (hspares rfl).2⟩⟩
  · refine iff_of_true ⟨?_, ?_⟩ fun hsame => absurd hsame hkey
    · by_cases hs : Saves env e
      · rw [(evictLru_of_saves cfg h hs).2]
        have hother : ∀ e', victim d.live device = some e' → (e'.key == key) = false := by
          intro e' he'
          obtain rfl : e = e' := Option.some.inj (h.symm.trans he')
          exact beq_eq_false_iff_ne.mpr hkey
        have hfilter : own key (withoutVictim d.live device) = own key d.live :=
          @filter_withoutVictim ⟨0, 0, 0, device⟩ d.live (fun e => e.key == key) hother
        rw [hfilter]
      · rw [(evictLru_of_not_saves cfg h hs).2]
    · rw [hdisk]
      split_ifs
      · rw [saveIndex_of_ne _ hkey]
      · rfl

theorem lruPick_follows (d : Daemon) (device : ℕ) :
    Follows cfg env key d (lruPick env device d.live) (evictLru cfg env d device).1 ∧
      (lruPick env device d.live).done = ((evictLru cfg env d device).2 != 0) := by
  have hroom := evictLru_room cfg env d device
  unfold lruPick
  cases hv : victim d.live device with
  | none =>
    rw [evictLru_of_none cfg hv]
    exact ⟨.nothing d false, rfl⟩
  | some e =>
    have hspared : Spared cfg key d (evictLru cfg env d device).1 ↔
        ∀ e' ∈ [e], e'.Spares env key (d.disk cfg.indexDir key).tids :=
      (evictLru_spared_iff hv).trans List.forall_mem_singleton.symm
    by_cases hs : Saves env e
    · obtain ⟨hbytes, hlive⟩ := evictLru_of_saves cfg hv hs
      simp only [if_pos hs, hbytes]
      exact ⟨⟨hroom, hlive.symm, hspared⟩, trivial⟩
    · obtain ⟨hbytes, hlive⟩ := evictLru_of_not_saves cfg hv hs
      simp only [if_neg hs, hbytes]
      exact ⟨⟨hroom, hlive.symm, hspared⟩, rfl⟩

theorem loopPicks_of_stop {more : List IndexEntry → Bool} {live : List IndexEntry} (fuel : ℕ)
    (h : more live = false) : loopPicks env device more fuel live = .nothing live true := by
  cases fuel <;> simp [loopPicks, h]

theorem loopPicks_of_empty {more : List IndexEntry → Bool} (fuel : ℕ) :
    loopPicks env device more fuel [] = .nothing [] !more [] := by
  cases fuel with
  | zero => rfl
  | succ fuel =>
    cases hmore : more [] <;> simp [loopPicks, hmore, lruPick, victim, findLruIndex, Picks.nothing]

theorem evictWhile_follows {more : Daemon → Bool} {more' : List IndexEntry → Bool} (fuel : ℕ)
    (d : Daemon) (hmore : ∀ d', MakesRoom cfg d d' → more d' = more' d'.live) :
    Follows cfg env key d (loopPicks env device more' fuel d.live)
      (evictWhile cfg env device more fuel d) := by
  induction fuel generalizing d with
  | zero => exact .nothing d _
  | succ fuel ih =>
    rw [evictWhile]
    by_cases hempty : d.live = []
    · rw [hempty, loopPicks_of_empty, if_neg (by simp), ← hempty]
      exact .nothing d _
    cases hgo : more' d.live with
    | false =>
      rw [loopPicks_of_stop _ hgo, if_neg (by simp [hmore d (.refl d), hgo])]
      exact .nothing d true
    | true =>
      obtain ⟨hpick, hdone⟩ := @lruPick_follows cfg env key d device
      rw [if_pos (by simp [hempty, hmore d (.refl d), hgo]), loopPicks, if_pos hgo]
      dsimp only
      rcases hround : evictLru cfg env d device with ⟨d', freed⟩
      rw [hround] at hpick hdone
      dsimp only at hpick hdone ⊢
      by_cases hfreed : freed = 0
      · rw [if_pos hfreed, if_neg (by simp [hdone, hfreed])]
        exact hpick
      · rw [if_neg hfreed, if_pos (by simp [hdone, hfreed])]
        exact hpick.andThen (ih d' fun d'' h => hmore d'' (hpick.room.trans h))

theorem evictUntilFree_follows (fuel : ℕ) (d : Daemon) :
    let p := loopPicks env device (fun live => decide (env.freeVram live device < needed)) fuel d.live
    let x := evictUntilFree cfg env needed device fuel d (env.freeVram d.live device)
    Follows cfg env key d p x.1 ∧ p.done = x.2 := by
  have hstop : ∀ free, (!decide (free < needed)) = decide (needed ≤ free) := by
    intro free
    rw [Bool.eq_iff_iff]
    simp
  induction fuel generalizing d with
  | zero => exact ⟨.nothing d _, hstop _⟩
  | succ fuel ih =>
    dsimp only at ih ⊢
    rw [evictUntilFree]
    by_cases hempty : d.live = []
    · rw [if_neg (by simp [hempty]), hempty, loopPicks_of_empty, ← hempty]
      exact ⟨.nothing d _, hstop _⟩
    by_cases hgo : env.freeVram d.live device < needed
    · obtain ⟨hpick, hdone⟩ := @lruPick_follows cfg env key d device
      rw [if_pos (by simp [hempty, hgo]), loopPicks, if_pos (decide_eq_true hgo)]
      dsimp only
      rcases hround : evictLru cfg env d device with ⟨d', freed⟩
      rw [hround] at hpick hdone
      dsimp only at hpick hdone ⊢
      by_cases hfreed : freed = 0
      · rw [if_pos hfreed, if_neg (by simp [hdone, hfreed])]
        exact ⟨hpick, by simp [hdone, hfreed, hgo]⟩
      · rw [if_neg hfreed, if_pos (by simp [hdone, hfreed])]
        refine ⟨hpick.andThen (ih d').1, ?_⟩
        rw [Picks.andThen_done, hpick.left]
        exact (ih d').2
    · rw [if_neg (by simp [hgo]), loopPicks_of_stop _ (decide_eq_false hgo)]
      exact ⟨.nothing d true, (decide_eq_true (Nat.le_of_not_lt hgo)).symm⟩

theorem ensureVram_follows (d : Daemon) (needed device : ℕ) :
    Follows cfg env key d (ensurePicks env (d.goal needed device) d.live)
        (ensureVram cfg env d needed device).1 ∧
      (ensurePicks env (d.goal needed device) d.live).done
        = (ensureVram cfg env d needed device).2 := by
  set g := d.goal needed device with hg
  -- an eviction leaves the goal as it is, so the loops test the entries alone
  have hover : ∀ d', MakesRoom cfg d d' →
      ((0 < d'.maxVramPerGpu device ∧ overBudget needed device d' = true) ↔ ¬g.Within d'.live) := by
    intro d' h
    rw [hg, ← h.goal_eq]
    by_cases hb : 0 < d'.maxVramPerGpu device
    · rw [overBudget_iff hb]
      exact and_iff_right hb
    · have hfits : (d'.goal needed device).Within d'.live := Or.inl (Nat.eq_zero_of_not_pos hb)
      exact iff_of_false (fun h => hb h.1) (not_not_intro hfits)
  set d1 := if 0 < d.maxVramPerGpu device ∧ overBudget needed device d = true then
      evictWhile cfg env device (overBudget needed device) (d.live.length + 1) d else d with hd1
  have hfirst : Follows cfg env key d
      (loopPicks env device (fun live => !decide (g.Within live)) (d.live.length + 1) d.live) d1 := by
    rw [hd1]
    split_ifs with hmore
    · refine evictWhile_follows _ d fun d' h => ?_
      have hb : 0 < d'.maxVramPerGpu device := by
        rw [h.budget]
        exact hmore.1
      rw [Bool.eq_iff_iff, Bool.not_eq_true', decide_eq_false_iff_not, ← hover d' h]
      exact (and_iff_right hb).symm
    · have hfits : g.Within d.live := not_not.mp (mt (hover d (.refl d)).mpr hmore)
      rw [loopPicks_of_stop _ (by simp [hfits])]
      exact .nothing d true
  have hleft := hfirst.left
  have hdevice : g.device = device := rfl
  have hneeded : g.needed = needed := rfl
  simp only [ensurePicks, ensureVram, hdevice, hneeded]
  rw [← hd1]
  by_cases hfits : g.Within d1.live
  · have hno : ¬(0 < d1.maxVramPerGpu device ∧ overBudget needed device d1 = true) := fun h =>
      (hover d1 hfirst.room).mp h hfits
    obtain ⟨hsecond, hdone⟩ := @evictUntilFree_follows cfg env key device needed
      (d1.live.length + 1) d1
    rw [if_pos (by rw [hleft]; exact hfits), if_neg hno]
    refine ⟨hfirst.andThen hsecond, ?_⟩
    rw [Picks.andThen_done, hleft]
    exact hdone
  · rw [if_neg (by rw [hleft]; exact hfits), if_pos ((hover d1 hfirst.room).mpr hfits)]
    exact ⟨hfirst.done false, rfl⟩

theorem pickGpuForIndex_holding (h : MakesRoom cfg d d') (needed : ℕ) :
    pickGpuForIndex cfg env (d.holding d'.live) needed = pickGpuForIndex cfg env d' needed := by
  unfold pickGpuForIndex totalVramUsed
  rw [h.budget, h.pending]
  rfl

theorem placeShard_follows (h : MakesRoom cfg d d') (needed dev : ℕ) :
    Follows cfg env key d' (placePicks cfg env d needed dev d'.live)
        (placeShard cfg env d' needed dev).1 ∧
      (placePicks cfg env d needed dev d'.live).done = (placeShard cfg env d' needed dev).2.isSome := by
  obtain ⟨hfirst, hdone⟩ := @ensureVram_follows cfg env key d' needed dev
  rw [h.goal_eq] at hfirst hdone
  unfold placePicks placeShard
  rcases hensure : ensureVram cfg env d' needed dev with ⟨d1, _ | _⟩
  · rw [hensure] at hfirst hdone
    dsimp only at hfirst hdone ⊢
    rw [if_neg (by simp [hdone]), hfirst.left, pickGpuForIndex_holding (h.trans hfirst.room)]
    cases pickGpuForIndex cfg env d1 needed with
    | none => exact ⟨hfirst, hdone⟩
    | some alt =>
      obtain ⟨hsecond, hdone'⟩ := @ensureVram_follows cfg env key d1 needed alt
      rw [(h.trans hfirst.room).goal_eq] at hsecond hdone'
      dsimp only
      rw [Picks.andThen_done, hfirst.left, hdone']
      rcases hensure' : ensureVram cfg env d1 needed alt with ⟨d2, _ | _⟩
      · rw [hensure'] at hsecond
        exact ⟨hfirst.andThen hsecond, rfl⟩
      · rw [hensure'] at hsecond
        exact ⟨hfirst.andThen hsecond, rfl⟩
  · rw [hensure] at hfirst hdone
    dsimp only at hfirst hdone ⊢
    rw [if_pos hdone]
    exact ⟨hfirst, hdone⟩

theorem buildShards_follows {benv : BuildEnv} {frame : BuildFrame} {vecs : List Vec} (sc todo i : ℕ)
    (h : MakesRoom cfg d d') :
    Follows cfg env key d' (shardPicks cfg env benv d frame vecs.length sc todo i d'.live)
        (buildShards cfg env benv frame vecs sc todo i d').1 ∧
      (shardPicks cfg env benv d frame vecs.length sc todo i d'.live).done
        = (buildShards cfg env benv frame vecs sc todo i d').2.isSome := by
  induction todo generalizing i d' with
  | zero => exact ⟨.nothing d' true, rfl⟩
  | succ todo ih =>
    obtain ⟨hplace, hdone⟩ := @placeShard_follows cfg env key d d' h
      (estimateVramBytes (shardRange vecs.length sc i).2 frame.dim frame.graphDegree)
      (usableGpu cfg (i % nUsableGpus cfg))
    simp only [shardPicks, buildShards]
    rcases hplaced : placeShard cfg env d'
      (estimateVramBytes (shardRange vecs.length sc i).2 frame.dim frame.graphDegree)
      (usableGpu cfg (i % nUsableGpus cfg)) with ⟨d1, _ | dev⟩
    · rw [hplaced] at hplace hdone
      rw [if_neg (by simp [hdone])]
      exact ⟨hplace.done false, rfl⟩
    · rw [hplaced] at hplace hdone
      dsimp only at hplace hdone ⊢
      cases himage : benv.shardImage i with
      | none =>
        rw [if_neg (by simp)]
        exact ⟨hplace.done false, rfl⟩
      | some image =>
        obtain ⟨hrest, hdone'⟩ := ih (i + 1) (h.trans hplace.room)
        rw [if_pos ⟨hdone, rfl⟩, Picks.andThen_done, hplace.left, hdone']
        dsimp only
        rcases hshards : buildShards cfg env benv frame vecs sc todo (i + 1) d1
          with ⟨d2, _ | shards⟩
        · rw [hshards] at hrest
          exact ⟨hplace.andThen hrest, rfl⟩
        · rw [hshards] at hrest
          exact ⟨hplace.andThen hrest, rfl⟩

theorem runBuild_follows {benv : BuildEnv} (t : BuildTicket) (fuel round : ℕ) (d : Daemon) :
    Follows cfg env key d (retryPicks env benv t.targetGpu fuel round d.live)
        (runBuild cfg env benv t fuel round d).1 ∧
      (retryPicks env benv t.targetGpu fuel round d.live).done
        = (runBuild cfg env benv t fuel round d).2.builds := by
  induction fuel generalizing round d with
  | zero => exact ⟨.nothing d _, rfl⟩
  | succ fuel ih =>
    rw [retryPicks, runBuild]
    cases benv.outcome round with
    | built image => exact ⟨.nothing d true, rfl⟩
    | failed => exact ⟨.nothing d false, rfl⟩
    | oom =>
      obtain ⟨hpick, hdone⟩ := @lruPick_follows cfg env key d t.targetGpu
      dsimp only
      rw [retryBuild]
      rcases hround : evictLru cfg env d t.targetGpu with ⟨d1, freed⟩
      rw [hround] at hpick hdone
      dsimp only at hpick hdone ⊢
      rw [hdone]
      by_cases hfreed : (freed != 0) = true
      · rw [if_pos hfreed, if_pos hfreed, Picks.andThen_done, hpick.left]
        exact ⟨hpick.andThen (ih (round + 1) d1).1, (ih (round + 1) d1).2⟩
      · rw [if_neg hfreed, if_neg hfreed]
        exact ⟨hpick, hdone.trans (Bool.eq_false_iff.mpr hfreed)⟩

end Follows

end PgCuvs
