import PgCuvs.Search.Moves

/-! The batch worker and the merge of a fanout make the same moves. -/

namespace PgCuvs

variable {D : Type} {cfg : Config} {env : Env} {kern : Kernels D} {d : Daemon} {i : ℕ}
  {e : IndexEntry}

theorem batchResolve_spec (cfg : Config) (env : Env) (d : Daemon) (key : Key) :
    Resolved cfg env key d (batchResolve cfg env d key).1.resident ∧
      ∀ i e, (batchResolve cfg env d key).2 = some (i, e) →
        findIndex (batchResolve cfg env d key).1.live key = some i ∧
          (batchResolve cfg env d key).1.live[i]? = some e := by
  have hlookup : ∀ (d : Daemon) i e,
      ((findIndex d.live key).bind fun i => d.live[i]?.map fun e => (i, e)) = some (i, e) →
        findIndex d.live key = some i ∧ d.live[i]? = some e := by
    intro d i e h
    obtain ⟨j, hj, hslot⟩ := Option.bind_eq_some_iff.mp h
    obtain ⟨f, hf, heq⟩ := Option.map_eq_some_iff.mp hslot
    cases heq
    exact ⟨hj, hf⟩
  simp only [batchResolve]
  split
  · rename_i found hfound
    refine ⟨.found rfl, ?_⟩
    rintro i e ⟨⟩
    exact hlookup d i e hfound
  · rename_i hnone
    have hkey : NotResident key d := by
      refine findIndex_eq_none.mp ?_
      rcases hfind : findIndex d.live key with _ | i
      · rfl
      · obtain ⟨e, hslot, -⟩ := findIndex_eq_some hfind
        rw [hfind] at hnone
        simp [hslot] at hnone
    rcases hload : loadIndex cfg env d key with ⟨d1, rc⟩
    have hloaded : Resolved cfg env key d d1.resident := .loaded hkey (by rw [hload])
    cases rc with
    | loaded => exact ⟨hloaded, hlookup d1⟩
    | failed => exact ⟨hloaded, fun _ _ h => by cases h⟩
    | vram => exact ⟨hloaded, fun _ _ h => by cases h⟩

theorem failFound_stores (h : Holding L cfg d i e) (reqs : List BatchRequest) (status : Status) :
    Stores L cfg d.resident (failFound (D := D) env d i e reqs status).1.resident :=
  (h.move (EntryMove.account ..)).store

theorem recordGroup_stats (env : Env) (latencyUs n : ℕ) (e : IndexEntry) :
    ∃ lastSearch stats, recordGroup env latencyUs n e = { e with lastSearch, stats } := by
  unfold recordGroup
  induction n with
  | zero => exact ⟨e.lastSearch, e.stats, rfl⟩
  | succ n ih =>
    obtain ⟨lastSearch, stats, heq⟩ := ih
    rw [List.range_succ, List.foldl_append, heq]
    exact ⟨_, _, rfl⟩

def anyMerged (replies : List (SearchReply D)) : Bool := replies.any SearchReply.deltaMerged

theorem anyMerged_failGroup (reqs : List BatchRequest) (status : Status) :
    anyMerged (failGroup (D := D) reqs status) = false := by
  unfold anyMerged failGroup
  rw [List.any_map]
  exact List.any_eq_false.mpr fun _ _ => Bool.false_ne_true

theorem ServeSpec.of_replies {key : Key} {d0 d' : Daemon} {r : Resident}
    {replies : List (SearchReply D)} (hresolved : Resolved cfg env key d0 r)
    (h : Stores L cfg r d'.resident) (hmerged : anyMerged replies = false) :
    ServeSpec L cfg env key d0 d' (anyMerged replies) := by
  rw [hmerged]
  exact ServeSpec.of_stores hresolved h

theorem ServeSpec.of_refreshed {key : Key} {d0 : Daemon} {merged : Bool}
    (hresolved : Resolved cfg env key d0 d.resident) (hfind : findIndex d.live key = some i)
    (h : Holding L cfg d i e)
    (hcurrent : merged = true → DeltaCurrent (d.disk cfg.indexDir e.key) e) :
    ServeSpec L cfg env key d0 (d.setEntry i e) merged where
  stores := ⟨_, hresolved, h.store⟩
  current hmerged := by
    have hfind' : findIndex (d.setEntry i e).live key = some i :=
      (findIndex_congr h.keys).trans hfind
    have hslot : (d.setEntry i e).live[i]? = some e := List.getElem?_set_self h.lt
    obtain ⟨e', hslot', hkey⟩ := findIndex_eq_some hfind'
    obtain rfl : e = e' := Option.some.inj (hslot.symm.trans hslot')
    refine ⟨i, e, hfind', hslot, ?_⟩
    rw [← hkey]
    exact hcurrent hmerged

theorem bfBatchRunGroup_spec (cfg : Config) (env : Env) (kern : Kernels D) (latencyUs : ℕ)
    (d : Daemon) (r0 : BatchRequest) (reqs : List BatchRequest) :
    ServeSpec L cfg env r0.key.key d (bfBatchRunGroup cfg env kern latencyUs d r0 reqs).1
      (anyMerged (bfBatchRunGroup cfg env kern latencyUs d r0 reqs).2) := by
  obtain ⟨hresolve, hfound⟩ := batchResolve_spec cfg env d r0.key.key
  simp only [bfBatchRunGroup]
  rcases hresolved : batchResolve cfg env d r0.key.key with ⟨d1, _ | ⟨i, e⟩⟩
  · rw [hresolved] at hresolve
    exact ServeSpec.of_replies hresolve Relation.ReflTransGen.refl (anyMerged_failGroup ..)
  · rw [hresolved] at hresolve hfound
    obtain ⟨-, hslot⟩ := hfound i e rfl
    have h0 : Holding L cfg d1 i e := Holding.of_slot hslot
    simp only
    split
    · exact ServeSpec.of_replies hresolve (failFound_stores h0 ..) (anyMerged_failGroup ..)
    · set e1 := refreshMainBfCache (d1.disk cfg.indexDir e.key) (hasRoom env d1 i) env.bfBuilds
        r0.key.precision e
      have h1 : Holding L cfg d1 i e1 := h0.move (EntryMove.mainBf ..)
      split
      · exact ServeSpec.of_replies hresolve (failFound_stores h1 ..) (anyMerged_failGroup ..)
      · split
        · exact ServeSpec.of_replies hresolve (failFound_stores h1 ..) (anyMerged_failGroup ..)
        · obtain ⟨lastSearch, stats, hgroup⟩ := recordGroup_stats env latencyUs reqs.length e1
          simp only [hgroup]
          refine ServeSpec.of_replies hresolve (h1.move (EntryMove.account ..)).store ?_
          unfold anyMerged
          rw [List.any_map]
          exact List.any_eq_false.mpr fun _ _ => Bool.false_ne_true

variable [LT D] [DecidableLT D]

theorem finishGroup_stats (latencyUs kMax nDc : ℕ) (raw : List (List (SearchResult D)))
    (draw : Option (List (List (SearchResult D)))) (q : ℕ) (e : IndexEntry)
    (reqs : List BatchRequest) :
    (∃ stats, (finishGroup latencyUs kMax nDc raw draw q e reqs).1 = { e with stats }) ∧
      ∀ r ∈ (finishGroup latencyUs kMax nDc raw draw q e reqs).2,
        r.deltaMerged = true → draw.isSome := by
  induction reqs generalizing q e with
  | nil => exact ⟨⟨e.stats, rfl⟩, fun _ h => by cases h⟩
  | cons req reqs ih =>
    simp only [finishGroup]
    obtain ⟨stats, hstats⟩ := cagraFinishOne_fst e ((raw.getD q []).take kMax) req.k
      (draw.map fun rows => rows.getD q []) (min nDc req.k)
    obtain ⟨⟨stats', hrest⟩, hmerged⟩ := ih (q + 1) { e with stats := stats }
    rw [hstats]
    refine ⟨⟨stats', hrest⟩, ?_⟩
    intro r hr hr_merged
    rcases List.mem_cons.mp hr with rfl | hr
    · have hdraw := cagraFinishOne_merged hr_merged
      simpa using hdraw
    · exact hmerged r hr hr_merged

omit [LT D] [DecidableLT D] in
theorem searchDeltaBatch_isSome {queries : List Vec} {kMax nDc : ℕ}
    {draw : List (List (SearchResult D))}
    (h : searchDeltaBatch kern queries kMax e = (some draw, nDc)) : e.deltaIdx.isSome := by
  unfold searchDeltaBatch at h
  split at h
  · cases h
  · rename_i bf hbf
    rw [hbf]
    rfl

theorem cagraBatchRunGroup_spec (cfg : Config) (env : Env) (kern : Kernels D) (latencyUs : ℕ)
    (d : Daemon) (r0 : BatchRequest) (reqs : List BatchRequest) :
    ServeSpec L cfg env r0.key.key d (cagraBatchRunGroup cfg env kern latencyUs d r0 reqs).1
      (anyMerged (cagraBatchRunGroup cfg env kern latencyUs d r0 reqs).2) := by
  obtain ⟨hresolve, hfound⟩ := batchResolve_spec cfg env d r0.key.key
  simp only [cagraBatchRunGroup]
  rcases hresolved : batchResolve cfg env d r0.key.key with ⟨d1, _ | ⟨i, e⟩⟩
  · rw [hresolved] at hresolve
    exact ServeSpec.of_replies hresolve Relation.ReflTransGen.refl (anyMerged_failGroup ..)
  · rw [hresolved] at hresolve hfound
    obtain ⟨hfind, hslot⟩ := hfound i e rfl
    have h0 : Holding L cfg d1 i e := Holding.of_slot hslot
    have hfailed : ∀ status, ServeSpec L cfg env r0.key.key d (failFound (D := D) env d1 i e reqs status).1
        (anyMerged (failFound (D := D) env d1 i e reqs status).2) := fun status =>
      ServeSpec.of_replies hresolve (failFound_stores h0 reqs status) (anyMerged_failGroup ..)
    simp only
    split
    · exact hfailed _
    · split
      · exact hfailed _
      · split
        · exact hfailed _
        · rename_i raw _
          set e1 := refreshDeltaCache (d1.disk cfg.indexDir e.key) (hasRoom env d1 i) env.bfBuilds e
          have h1 : Holding L cfg d1 i e1 := h0.move (EntryMove.delta ..)
          set kMax := (reqs.map BatchRequest.k).foldr max 0
          rcases hdraw : searchDeltaBatch kern (reqs.map BatchRequest.query) kMax e1 with ⟨draw, nDc⟩
          obtain ⟨⟨stats, hstats⟩, hmerged⟩ :=
            finishGroup_stats latencyUs kMax nDc raw draw 0 e1 reqs
          obtain ⟨lastSearch, stats', hgroup⟩ :=
            recordGroup_stats env latencyUs reqs.length { e1 with stats := stats }
          simp only
          rw [hstats, hgroup]
          refine ServeSpec.of_refreshed hresolve hfind (h1.move (EntryMove.account ..)) ?_
          intro hany
          obtain ⟨r, hr, hrmerged⟩ := List.any_eq_true.mp hany
          obtain ⟨rows, rfl⟩ := Option.isSome_iff_exists.mp (hmerged r hr hrmerged)
          have hcurrent : DeltaCurrent (d1.disk cfg.indexDir e.key) e1 :=
            refreshDeltaCache_current (searchDeltaBatch_isSome hdraw)
          rwa [← refreshDeltaCache_key e] at hcurrent

theorem batchRunGroup_spec (cfg : Config) (env : Env) (kern : Kernels D) (latencyUs : ℕ)
    (d : Daemon) (r0 : BatchRequest) (reqs : List BatchRequest) :
    ServeSpec L cfg env r0.key.key d (batchRunGroup cfg env kern latencyUs d r0 reqs).1
      (anyMerged (batchRunGroup cfg env kern latencyUs d r0 reqs).2) := by
  unfold batchRunGroup
  split_ifs
  · exact cagraBatchRunGroup_spec ..
  · exact bfBatchRunGroup_spec ..

omit [LT D] [DecidableLT D] in
theorem recordFanout_leave (outs : List (ShardSearchArg × Except ℕ (List (SearchResult D))))
    (e : IndexEntry) : ∃ shards, shards.map ShardEntry.base = e.shards.map ShardEntry.base ∧
      recordFanout outs e = { e with inflight := e.inflight - 1, shards } := by
  refine ⟨_, ?_, rfl⟩
  rw [List.map_map, ← List.zipIdx_map_fst 0 e.shards, List.map_map, List.zipIdx_map_fst]
  refine List.map_congr_left ?_
  rintro ⟨s, j⟩ _
  simp only [Function.comp_apply]
  split
  · unfold recordShard
    split_ifs <;> rfl
  · rfl

theorem finishFanout_spec (hl : L) (cfg : Config) (env : Env) (senv : SearchEnv) (kern : Kernels D)
    (d : Daemon) (f : Fanout) :
    ServeSpec L cfg env f.key d (finishFanout cfg env senv kern d f).1
      (finishFanout cfg env senv kern d f).2.deltaMerged := by
  simp only [finishFanout]
  split
  · exact ServeSpec.refl
  · rename_i i e hfound
    obtain ⟨j, hfind, hslot⟩ := Option.bind_eq_some_iff.mp hfound
    obtain ⟨e0, hslot, heq⟩ := Option.map_eq_some_iff.mp hslot
    cases heq
    set e1 := recordFanout (f.args.map fun a => (a, shardSearchWorker kern f.frame f.query a)) e
    have h1 : Holding L cfg d i e1 := by
      obtain ⟨shards, hshards, heq⟩ :=
        recordFanout_leave (f.args.map fun a => (a, shardSearchWorker kern f.frame f.query a)) e
      rw [show e1 = _ from heq]
      exact (Holding.of_slot hslot).move (.leave hl shards hshards)
    split
    · exact ServeSpec.of_stores (.found rfl) (h1.move (EntryMove.account ..)).store
    · rcases hbf : f.useBf with _ | _
      · simp only [Bool.false_eq_true, if_false]
        set e2 := refreshDeltaCache (d.disk cfg.indexDir e1.key) (hasRoom env d i) env.bfBuilds e1
        have h2 : Holding L cfg d i e2 := h1.move (EntryMove.delta ..)
        rcases hdraw : searchDelta kern f.query f.frame.k (deltaGpuOf e2) e2 with ⟨draw, nDc⟩
        simp only [mergeFanout, recordAnswer]
        split
        · rename_i hsome
          refine ServeSpec.of_refreshed (.found rfl) hfind
            (h2.move (EntryMove.account ..)) ?_
          intro _
          obtain ⟨rows, rfl⟩ := Option.isSome_iff_exists.mp hsome
          have hcurrent : DeltaCurrent (d.disk cfg.indexDir e1.key) e2 :=
            refreshDeltaCache_current (searchDelta_isSome hdraw)
          rwa [← refreshDeltaCache_key e1] at hcurrent
        · rename_i hnone
          rw [Bool.eq_false_iff.mpr hnone]
          exact ServeSpec.of_stores (.found rfl) (h2.move (EntryMove.account ..)).store
      · simp only [if_true, mergeFanout, recordAnswer, Option.isSome_none, Bool.false_eq_true,
          if_false]
        exact ServeSpec.of_stores (.found rfl) (h1.move (EntryMove.account ..)).store

end PgCuvs
