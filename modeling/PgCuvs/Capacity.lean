import PgCuvs.EvictionRoom
import PgCuvs.FailedBuild
import PgCuvs.RequestSteps

/-! The registry never holds more entries than it has slots: every registration looks at the
count first. -/

namespace PgCuvs

section Loads

variable {cfg : Config} {env : Env} {d d' : Daemon} {key : Key} {r r' : Resident}

theorem Evictions.length_le (h : Evictions cfg r r') : r'.1.live.length ≤ r.1.live.length := by
  induction h with
  | refl => exact Nat.le_refl _
  | tail _ hstep ih =>
    refine Nat.le_trans ?_ ih
    cases hstep with
    | drop | saved => exact List.length_eraseIdx_le _ _
    | failed => exact Nat.le_refl _

theorem Stores.length {L : Prop} (h : Stores L cfg r r') : r'.1.live.length = r.1.live.length := by
  induction h with
  | refl => rfl
  | tail _ hstep ih =>
    obtain ⟨hi, hmove⟩ := hstep
    exact (List.length_set ..).trans ih

theorem capacity_append {init : IndexEntry → IndexEntry} (h : ¬cfg.maxIndexes ≤ d.live.length)
    (hle : d'.live.length ≤ d.live.length) :
    (d'.registry.append init).live.length ≤ cfg.maxIndexes := by
  rw [Registry.append_live, List.length_append, List.length_singleton]
  change d'.live.length + 1 ≤ _
  omega

theorem loadIndexSharded_capacity {thdr : TidsHeader} {tids : List Tid}
    (h : d.live.length ≤ cfg.maxIndexes) :
    (loadIndexSharded cfg env d key thdr tids).1.live.length ≤ cfg.maxIndexes := by
  unfold loadIndexSharded
  split
  · exact h
  · split
    · exact h
    · rename_i recs _
      have hslot := makeSlot_evictions cfg env d (usableGpu cfg 0)
      simp only
      split_ifs with hmatch hfull
      · exact h
      · exact hslot.length_le.trans h
      · have hshards : Evictions cfg (makeSlot cfg env d (usableGpu cfg 0)).resident
            (loadShards cfg env key 0 (makeSlot cfg env d (usableGpu cfg 0)) recs).1.resident :=
          (evictClosed_evictions cfg env).of_loadShards _ 0 recs
        split
        · rename_i heq
          rw [heq] at hshards
          exact hshards.length_le.trans (hslot.length_le.trans h)
        · rename_i heq
          rw [heq] at hshards
          exact capacity_append hfull hshards.length_le

theorem loadIndexFlat_capacity {thdr : TidsHeader} {tids : List Tid}
    (h : d.live.length ≤ cfg.maxIndexes) :
    (loadIndexFlat cfg env d key thdr tids).1.live.length ≤ cfg.maxIndexes := by
  have hslot := makeSlot_evictions cfg env d ((pickGpuForIndex cfg env d 0).getD (usableGpu cfg 0))
  simp only [loadIndexFlat]
  split_ifs with hfull
  · exact hslot.length_le.trans h
  · exact capacity_append hfull (Nat.le_refl _)

theorem loadIndexUnsharded_capacity {thdr : TidsHeader} {tids : List Tid}
    (h : d.live.length ≤ cfg.maxIndexes) :
    (loadIndexUnsharded cfg env d key thdr tids).1.live.length ≤ cfg.maxIndexes := by
  simp only [loadIndexUnsharded]
  split
  · exact h
  · rename_i gpu _
    have hvram := ensureVram_evictions cfg env d (estimateVramBytes thdr.nVecs thdr.dim 64) gpu
    split
    · rename_i heq
      rw [heq] at hvram
      exact hvram.length_le.trans h
    · rename_i d1 heq
      rw [heq] at hvram
      split
      · exact hvram.length_le.trans h
      · have hslot := makeSlot_evictions cfg env d1 gpu
        split_ifs with hfull
        · exact hslot.length_le.trans (hvram.length_le.trans h)
        · exact capacity_append hfull (Nat.le_refl _)

theorem loadIndex_capacity (cfg : Config) (env : Env) (d : Daemon) (key : Key)
    (h : d.live.length ≤ cfg.maxIndexes) :
    (loadIndex cfg env d key).1.live.length ≤ cfg.maxIndexes := by
  unfold loadIndex
  split
  · exact h
  · rename_i thdr tids _
    have hsharded : (loadIndexSharded cfg env d key thdr tids).1.live.length ≤ cfg.maxIndexes :=
      loadIndexSharded_capacity h
    split_ifs
    · exact h
    · split
      · rename_i heq
        rwa [heq] at hsharded
      · rename_i heq
        rw [heq] at hsharded
        simp only
        split_ifs
        · exact loadIndexFlat_capacity hsharded
        · exact loadIndexUnsharded_capacity hsharded

end Loads

section Actions

structure Effect.Places (cfg : Config) (x : Effect) : Prop where
  room : ∀ c, x.action = .register c → x.daemon.live.length < cfg.maxIndexes
  unflagged : ∀ i now, x.action ≠ .replace i (.stale now)

variable {cfg : Config} {env : Env} {benv : BuildEnv} {d : Daemon} {frame : BuildFrame}

theorem Effect.Places.of_keep {x : Effect} (h : x.action = .keep) : x.Places cfg where
  room _ hc := nomatch h.symm.trans hc
  unflagged _ _ hc := nomatch h.symm.trans hc

theorem installEntry_places {key : Key} {gpu : ℕ} {w : EntryWrite} {c : SlotInit}
    (hw : ∀ now, w ≠ .stale now) : (installEntry cfg env d key gpu w c).Places cfg := by
  unfold installEntry
  split
  · exact ⟨fun _ h => (nomatch h), fun i now h => hw now (RegistryAction.replace.inj h).2⟩
  · simp only
    split_ifs with hfull
    · exact .of_keep rfl
    · exact ⟨fun _ _ => Nat.lt_of_not_le hfull, fun _ _ h => (nomatch h)⟩

theorem Prepared.commit_places (frame : BuildFrame) (p : Prepared) :
    (p.commit cfg env benv frame).Places cfg := by
  cases p with
  | failed d r => exact .of_keep rfl
  | graph d t image =>
    simp only [Prepared.commit, finishBuildCommit]
    split
    · exact .of_keep rfl
    · exact installEntry_places fun _ h => by cases h
  | sharded d dir corpus shards =>
    simp only [Prepared.commit, commitSharded]
    split
    · exact .of_keep rfl
    · exact .of_keep rfl
    · exact installEntry_places fun _ h => by cases h
  | ivfpq d dir corpus gpu image =>
    simp only [Prepared.commit, commitIvfpq]
    split
    · exact .of_keep rfl
    · exact installEntry_places fun _ h => by cases h

theorem beginBuild_places {input : BuildInput} {x : Effect}
    (h : beginBuild cfg env benv d frame input = .done x) : x.Places cfg := by
  rw [beginBuild_eq] at h
  split at h
  · cases h
    exact .of_keep rfl
  · simp only [startBuild] at h
    split_ifs at h
    · cases h
      exact .of_keep rfl
    · cases h
      rw [buildSharded_eq]
      exact Prepared.commit_places _ _
    · split at h
      · cases h
        exact .of_keep rfl
      · cases h

theorem endBuild_places {kind : CorpusKind} {t : BuildTicket} {outcome : BuildOutcome} :
    (endBuild cfg env benv d kind t outcome).Places cfg := by
  cases outcome with
  | built image => exact Prepared.commit_places t.frame (.graph _ t image)
  | oom | failed => exact .of_keep rfl

theorem beginBuildFlat_error {input : BuildInput} {x : Effect}
    (h : beginBuildFlat cfg env benv d frame input = .error x) :
    x.action = .keep ∧ x.reply.status ≠ .ok := by
  have hcheck : ∀ reply, checkFlat cfg d frame input = .error reply → reply.status ≠ .ok := by
    intro reply hcheck
    unfold checkFlat at hcheck
    split at hcheck
    · cases hcheck
      decide
    · split_ifs at hcheck
      · cases hcheck
        decide
      · cases hseg : input.segment with
        | error fault =>
          simp only [hseg] at hcheck
          split_ifs at hcheck <;> cases hcheck <;> simp
        | ok seg =>
          simp only [hseg] at hcheck
          split_ifs at hcheck <;> cases hcheck <;> simp
  unfold beginBuildFlat at h
  split at h
  · rename_i reply heq
    cases h
    exact ⟨rfl, hcheck reply heq⟩
  · simp only at h
    split at h
    · cases h
      exact ⟨rfl, by simp [Effect.failure]⟩
    · cases h

theorem handleExtend_places {input : BuildInput} {outcome : ExtendOutcome} :
    (handleExtend d frame input outcome).Places cfg := by
  unfold handleExtend
  simp only
  split_ifs
  · exact .of_keep rfl
  · exact .of_keep rfl
  · split
    · exact .of_keep rfl
    · split
      · exact .of_keep rfl
      · split
        · exact .of_keep rfl
        · split
          · exact .of_keep rfl
          · split_ifs
            · exact .of_keep rfl
            · split
              · exact .of_keep rfl
              · exact ⟨fun _ h => (nomatch h), fun _ _ h => (nomatch h)⟩
              · exact ⟨fun _ h => (nomatch h), fun _ _ h => (nomatch h)⟩

theorem endCompact_places {t : CompactTicket} {image : Option (List UInt8)} :
    (endCompact cfg env d t image).Places cfg := by
  unfold endCompact
  split
  · exact .of_keep rfl
  · split
    · exact .of_keep rfl
    · split
      · exact .of_keep rfl
      · simp only
        split_ifs
        · exact .of_keep rfl
        · split
          · exact .of_keep rfl
          · split <;> exact ⟨fun _ h => (nomatch h), fun _ _ h => (nomatch h)⟩

variable {D : Type} [LT D] [DecidableLT D] {s : Server} {given : Given} {r : Resident} {x : Effect}

theorem Request.places (cfg : Config) (s : Server) (r : Request D)
    (hr : ∀ env key opens, r ≠ .markStale env key opens) : (r.effect cfg s).Places cfg := by
  cases r with
  | search | resume | batch | fanout | compact | sidecars | restart => exact .of_keep rfl
  | build env benv frame input =>
    simp only [Request.effect]
    split
    · rename_i heq
      exact beginBuild_places heq
    · exact .of_keep rfl
  | buildRetry env j =>
    simp only [Request.effect]
    split <;> exact .of_keep rfl
  | buildEnd env benv j outcome =>
    simp only [Request.effect]
    split
    · exact endBuild_places
    · exact .of_keep rfl
  | flat env benv frame input =>
    simp only [Request.effect]
    split
    · rename_i heq
      exact .of_keep (beginBuildFlat_error heq).1
    · exact .of_keep rfl
  | flatEnd env j =>
    simp only [Request.effect]
    split
    · exact installEntry_places fun _ h => by cases h
    · exact .of_keep rfl
  | ivfpq env benv frame input =>
    simp only [Request.effect, handleBuildIvfpq_eq]
    exact Prepared.commit_places _ _
  | extend frame input image => exact handleExtend_places
  | compactEnd env j image =>
    simp only [Request.effect]
    split
    · exact endCompact_places
    · exact .of_keep rfl
  | markStale env key opens => exact absurd rfl (hr env key opens)
  | drop key =>
    simp only [Request.effect, handleDrop]
    refine ⟨fun c h => ?_, fun i now h => ?_⟩
    · split at h <;> cases h
    · split at h <;> cases h

theorem EffectSpec.length_le (h : EffectSpec cfg s given d x)
    (hd : d.live.length ≤ cfg.maxIndexes) : x.daemon.live.length ≤ cfg.maxIndexes := by
  cases h with
  | serves hserving hresolved hstores hact =>
    refine (Stores.length hstores).le.trans ?_
    cases hresolved with
    | found hr =>
      rw [hr]
      exact hd
    | loaded hkey hr =>
      rw [hr]
      exact loadIndex_capacity cfg _ d _ hd
  | @commits r hevict hcommit =>
    have hr : r.1.live.length ≤ cfg.maxIndexes := hevict.length_le.trans hd
    have hsame : ∀ {reg : Registry} {disk : Disk}, x.daemon.resident = (reg, disk) →
        x.daemon.live = reg.live := fun hx => congrArg (fun r : Resident => r.1.live) hx
    cases hcommit with
    | restart hx =>
      rw [hsame hx]
      exact Nat.zero_le _
    | keep _ hx | absent _ _ hx | write _ _ _ _ hx | remove _ _ _ _ hx =>
      rw [hsame hx]
      exact hr
    | create _ _ hevict | full _ _ hevict => exact hevict.length_le.trans hr

theorem Server.step_capacity (r : Request D) (h : s.daemon.live.length ≤ cfg.maxIndexes) :
    (s.step cfg r).daemon.live.length ≤ cfg.maxIndexes := by
  have hle := (r.effect_spec cfg s).length_le h
  have hroom : ∀ c, (r.effect cfg s).action = .register c →
      (r.effect cfg s).daemon.live.length < cfg.maxIndexes := by
    intro c hc
    by_cases hr : ∀ env key opens, r ≠ .markStale env key opens
    · exact (r.places cfg s hr).room c hc
    · push Not at hr
      obtain ⟨env, key, opens, rfl⟩ := hr
      simp only [Request.effect, handleMarkStale] at hc
      split at hc <;> cases hc
  change ((r.effect cfg s).daemon.registry.act (r.effect cfg s).action).live.length ≤ _
  rcases haction : (r.effect cfg s).action with _ | ⟨i, w⟩ | c | i
  · exact hle
  · simp only [Registry.act]
    split
    · rw [Registry.set_live, List.length_set]
      exact hle
    · exact hle
  · rw [Registry.act, Registry.append_live, List.length_append, List.length_singleton]
    exact hroom c haction
  · simp only [Registry.act]
    split
    · exact (List.length_eraseIdx_le _ _).trans hle
    · exact hle

end Actions

end PgCuvs
