import PgCuvs.Warmup.Pool

/-! What the registry shows of an index, against where its job is. -/

namespace PgCuvs

/-- The state an entry should show for the job; `none` where there should be no entry. -/
def WarmupWorker.claim : WarmupWorker → Option (Key × Option WarmupState)
  | .idle => none
  | .taken j => some (j.key, some .queued)
  | .downloading j | .fetched j => some (j.key, some .downloading)
  | .loading j => some (j.key, some .loading)
  | .cleaning j => some (j.key, none)

def queuedClaim (j : WarmupJob) : Key × Option WarmupState := (j.key, some .queued)

def WarmupPool.claims (s : WarmupPool) : List (Key × Option WarmupState) :=
  s.ring.contents.map queuedClaim ++ s.workers.filterMap WarmupWorker.claim

def WarmupState.Busy (state : WarmupState) : Prop :=
  state = .queued ∨ state = .downloading ∨ state = .loading

instance (state : WarmupState) : Decidable state.Busy := inferInstanceAs (Decidable (_ ∨ _))

/-- Entries and jobs, each index once, agree; `kept` says that no promise was broken. -/
structure Shown (kept : Prop) (cold : List ColdIndexEntry)
    (claims : List (Key × Option WarmupState)) : Prop where
  once : (cold.map ColdIndexEntry.key).Nodup
  distinct : (claims.map Prod.fst).Nodup
  agree : ∀ c ∈ cold, ∀ p ∈ claims, p.1 = c.key → p.2 = some c.warmupState
  owed : kept → ∀ c ∈ cold, c.warmupState.Busy → c.key ∈ claims.map Prod.fst

structure ShownBut (kept : Prop) (key : Key) (cold : List ColdIndexEntry)
    (claims : List (Key × Option WarmupState)) : Prop where
  once : (cold.map ColdIndexEntry.key).Nodup
  distinct : (claims.map Prod.fst).Nodup
  absent : key ∉ claims.map Prod.fst
  agree : ∀ c ∈ cold, c.key ≠ key → ∀ p ∈ claims, p.1 = c.key → p.2 = some c.warmupState
  owed : kept → ∀ c ∈ cold, c.key ≠ key → c.warmupState.Busy → c.key ∈ claims.map Prod.fst

section Update

variable {key : Key} {f : ColdIndexEntry → ColdIndexEntry} {cold : List ColdIndexEntry}

theorem updateCold_cons (c : ColdIndexEntry) :
    updateCold key f (c :: cold)
      = if c.key = key then f c :: cold else c :: updateCold key f cold := by
  unfold updateCold
  rw [List.findIdx?_cons]
  split_ifs with hfound hkey hkey
  · rfl
  · exact absurd (beq_iff_eq.mp hfound) hkey
  · exact absurd (beq_iff_eq.mpr hkey) hfound
  · cases cold.findIdx? fun c => c.key == key with
    | none => rfl
    | some ci => rfl

theorem updateCold_keys (hf : ∀ c, (f c).key = c.key) :
    (updateCold key f cold).map ColdIndexEntry.key = cold.map ColdIndexEntry.key := by
  induction cold with
  | nil => rfl
  | cons c cold ih =>
    rw [updateCold_cons]
    split_ifs
    · rw [List.map_cons, List.map_cons, hf]
    · rw [List.map_cons, List.map_cons, ih]

theorem mem_updateCold (honce : (cold.map ColdIndexEntry.key).Nodup) {c : ColdIndexEntry}
    (h : c ∈ updateCold key f cold) :
    (c ∈ cold ∧ c.key ≠ key) ∨ ∃ c0 ∈ cold, c0.key = key ∧ c = f c0 := by
  induction cold with
  | nil => cases h
  | cons c0 cold ih =>
    obtain ⟨hnew, honce⟩ := List.nodup_cons.mp honce
    rw [updateCold_cons] at h
    split_ifs at h with hkey
    · rcases List.mem_cons.mp h with rfl | h
      · exact .inr ⟨c0, List.mem_cons_self, hkey, rfl⟩
      · refine .inl ⟨List.mem_cons_of_mem _ h, fun hc => hnew ?_⟩
        exact List.mem_map.mpr ⟨c, h, hc.trans hkey.symm⟩
    · rcases List.mem_cons.mp h with rfl | h
      · exact .inl ⟨List.mem_cons_self, hkey⟩
      · rcases ih honce h with ⟨hmem, hne⟩ | ⟨c1, hmem, hc1, rfl⟩
        · exact .inl ⟨List.mem_cons_of_mem _ hmem, hne⟩
        · exact .inr ⟨c1, List.mem_cons_of_mem _ hmem, hc1, rfl⟩

theorem mem_updateCold_of_find {c : ColdIndexEntry}
    (hfind : (cold.find? fun c => c.key == key) = some c) : f c ∈ updateCold key f cold := by
  induction cold with
  | nil => cases hfind
  | cons c0 cold ih =>
    rw [updateCold_cons]
    split_ifs with hkey
    · rw [List.find?_cons_of_pos (by simpa using hkey)] at hfind
      cases hfind
      exact List.mem_cons_self
    · rw [List.find?_cons_of_neg (by simpa using hkey)] at hfind
      exact List.mem_cons_of_mem _ (ih hfind)

theorem mem_eraseCold (honce : (cold.map ColdIndexEntry.key).Nodup) {c : ColdIndexEntry}
    (h : c ∈ cold.eraseP fun c => c.key == key) : c ∈ cold ∧ c.key ≠ key := by
  induction cold with
  | nil => cases h
  | cons c0 cold ih =>
    obtain ⟨hnew, honce⟩ := List.nodup_cons.mp honce
    by_cases hkey : c0.key = key
    · rw [List.eraseP_cons_of_pos (by simpa using hkey)] at h
      refine ⟨List.mem_cons_of_mem _ h, fun hc => hnew ?_⟩
      exact List.mem_map.mpr ⟨c, h, hc.trans hkey.symm⟩
    · rw [List.eraseP_cons_of_neg (by simpa using hkey)] at h
      rcases List.mem_cons.mp h with rfl | h
      · exact ⟨List.mem_cons_self, hkey⟩
      · exact ⟨List.mem_cons_of_mem _ (ih honce h).1, (ih honce h).2⟩

end Update

section Shown

variable {kept : Prop} {key : Key} {cold : List ColdIndexEntry} {f : ColdIndexEntry → ColdIndexEntry}
  {claims claims' : List (Key × Option WarmupState)} {state : Option WarmupState}

theorem Shown.perm (h : Shown kept cold claims) (hperm : claims.Perm claims') :
    Shown kept cold claims' where
  once := h.once
  distinct := (hperm.map Prod.fst).nodup_iff.mp h.distinct
  agree c hc p hp := h.agree c hc p (hperm.mem_iff.mpr hp)
  owed hkept c hc hbusy := (hperm.map Prod.fst).mem_iff.mp (h.owed hkept c hc hbusy)

theorem Shown.but (h : Shown kept cold ((key, state) :: claims)) :
    ShownBut kept key cold claims where
  once := h.once
  distinct := (List.nodup_cons.mp h.distinct).2
  absent := (List.nodup_cons.mp h.distinct).1
  agree c hc _ p hp := h.agree c hc p (List.mem_cons_of_mem _ hp)
  owed hkept c hc hne hbusy := by
    rcases List.mem_cons.mp (h.owed hkept c hc hbusy) with heq | hmem
    · exact absurd heq hne
    · exact hmem

theorem Shown.but_absent (h : Shown kept cold claims) (habsent : key ∉ claims.map Prod.fst) :
    ShownBut kept key cold claims where
  once := h.once
  distinct := h.distinct
  absent := habsent
  agree c hc _ := h.agree c hc
  owed hkept c hc _ := h.owed hkept c hc

theorem ShownBut.update (h : ShownBut kept key cold claims) (hf : ∀ c, (f c).key = c.key) :
    ShownBut kept key (updateCold key f cold) claims where
  once := by
    rw [updateCold_keys hf]
    exact h.once
  distinct := h.distinct
  absent := h.absent
  agree c hc hne := by
    rcases mem_updateCold h.once hc with ⟨hold, -⟩ | ⟨c0, -, hkey, rfl⟩
    · exact h.agree c hold hne
    · exact absurd ((hf c0).trans hkey) hne
  owed hkept c hc hne := by
    rcases mem_updateCold h.once hc with ⟨hold, -⟩ | ⟨c0, -, hkey, rfl⟩
    · exact h.owed hkept c hold hne
    · exact absurd ((hf c0).trans hkey) hne

theorem ShownBut.erase (h : ShownBut kept key cold claims) :
    ShownBut kept key (cold.eraseP fun c => c.key == key) claims where
  once := h.once.sublist (List.eraseP_sublist.map _)
  distinct := h.distinct
  absent := h.absent
  agree c hc hne := h.agree c (mem_eraseCold h.once hc).1 hne
  owed hkept c hc hne := h.owed hkept c (mem_eraseCold h.once hc).1 hne

theorem ShownBut.assign (h : ShownBut kept key cold claims)
    (hstate : ∀ c ∈ cold, c.key = key → state = some c.warmupState) :
    Shown kept cold ((key, state) :: claims) where
  once := h.once
  distinct := List.nodup_cons.mpr ⟨h.absent, h.distinct⟩
  agree c hc p hp heq := by
    by_cases hkey : c.key = key
    · rcases List.mem_cons.mp hp with rfl | hp
      · exact hstate c hc hkey
      · exact absurd (List.mem_map.mpr ⟨p, hp, heq.trans hkey⟩) h.absent
    · rcases List.mem_cons.mp hp with rfl | hp
      · exact absurd heq.symm hkey
      · exact h.agree c hc hkey p hp heq
  owed hkept c hc hbusy := by
    by_cases hkey : c.key = key
    · exact List.mem_cons.mpr (.inl hkey)
    · exact List.mem_cons_of_mem _ (h.owed hkept c hc hkey hbusy)

theorem ShownBut.release (h : ShownBut kept key cold claims)
    (hidle : kept → ∀ c ∈ cold, c.key = key → ¬ c.warmupState.Busy) : Shown kept cold claims where
  once := h.once
  distinct := h.distinct
  agree c hc p hp heq := by
    by_cases hkey : c.key = key
    · exact absurd (List.mem_map.mpr ⟨p, hp, heq.trans hkey⟩) h.absent
    · exact h.agree c hc hkey p hp heq
  owed hkept c hc hbusy := by
    by_cases hkey : c.key = key
    · exact absurd hbusy (hidle hkept c hc hkey)
    · exact h.owed hkept c hc hkey hbusy

@[simp] theorem setWarmup_key (state : WarmupState) (c : ColdIndexEntry) :
    (setWarmup state c).key = c.key :=
  rfl

@[simp] theorem bumpMiss_key (c : ColdIndexEntry) : (bumpMiss c).key = c.key := rfl

theorem Shown.mark {new : WarmupState} (h : Shown kept cold ((key, state) :: claims)) :
    Shown kept (updateCold key (setWarmup new) cold) ((key, some new) :: claims) := by
  refine (h.but.update (setWarmup_key new)).assign fun c hc hkey => ?_
  rcases mem_updateCold h.once hc with ⟨-, hne⟩ | ⟨c0, -, -, rfl⟩
  · exact absurd hkey hne
  · rfl

theorem Shown.fail (h : Shown kept cold ((key, state) :: claims)) :
    Shown kept (updateCold key (setWarmup .failed) cold) claims := by
  refine (h.but.update (setWarmup_key .failed)).release fun _ c hc hkey => ?_
  rcases mem_updateCold h.once hc with ⟨-, hne⟩ | ⟨c0, -, -, rfl⟩
  · exact absurd hkey hne
  · change ¬ WarmupState.failed.Busy
    decide

theorem Shown.loaded (h : Shown kept cold ((key, state) :: claims)) :
    Shown kept (cold.eraseP fun c => c.key == key) ((key, none) :: claims) :=
  h.but.erase.assign fun _ hc hkey => absurd hkey (mem_eraseCold h.once hc).2

theorem Shown.cleaned (h : Shown kept cold ((key, none) :: claims)) :
    Shown kept cold claims := by
  refine h.but.release fun _ c hc hkey => ?_
  cases h.agree c hc (key, none) List.mem_cons_self hkey.symm

theorem Shown.drop (h : Shown kept cold claims) (key : Key) :
    Shown kept (cold.eraseP fun c => c.key == key) claims where
  once := h.once.sublist (List.eraseP_sublist.map _)
  distinct := h.distinct
  agree c hc := h.agree c (mem_eraseCold h.once hc).1
  owed hkept c hc := h.owed hkept c (mem_eraseCold h.once hc).1

theorem Shown.bump (h : Shown kept cold claims) (key : Key) :
    Shown kept (updateCold key bumpMiss cold) claims where
  once := by
    rw [updateCold_keys bumpMiss_key]
    exact h.once
  distinct := h.distinct
  agree c hc := by
    rcases mem_updateCold h.once hc with ⟨hold, -⟩ | ⟨c0, hold, -, rfl⟩
    · exact h.agree c hold
    · exact h.agree c0 hold
  owed hkept c hc := by
    rcases mem_updateCold h.once hc with ⟨hold, -⟩ | ⟨c0, hold, -, rfl⟩
    · exact h.owed hkept c hold
    · exact h.owed hkept c0 hold

end Shown

end PgCuvs
