import PgCuvs.Crash.Commit

/-! The sharded commit renames the manifest last. Its checksums reject every mix
of builds, so only an index that had no manifest before can be torn. -/

namespace PgCuvs

/-- Among these operations, files with one checksum have one content. -/
structure CrcDistinct (ops : List PersistOp) : Prop where
  tids : ∀ p ∈ ops, ∀ q ∈ ops, ∀ f ∈ p.tidsFile, ∀ f' ∈ q.tidsFile,
    cuvsCrc32 (tidBytes f.body) = cuvsCrc32 (tidBytes f'.body) → f.body = f'.body
  graphs : ∀ p ∈ ops, ∀ q ∈ ops, ∀ c ∈ p.shardGraphs, ∀ c' ∈ q.shardGraphs,
    cuvsCrc32 c.image = cuvsCrc32 c'.image → c = c'

section Manifest

variable {ops : List PersistOp} {a : Artifacts} {thdr : TidsHeader} {t : List Tid}
  {recs : List ShardRecord} {graphs : List Cagra}

theorem graphs_of_shardRecords {dim : ℕ} {metric : Metric} {ss : List ShardBuild}
    (hdistinct : ∀ i c, a.shardCagra i = some c → ∀ b ∈ ss,
      cuvsCrc32 c.image = cuvsCrc32 b.graph.image → c = b.graph) {i off : ℕ}
    (hfiles : ShardFiles a (shardRecords dim metric i off ss) graphs) :
    graphs = ss.map ShardBuild.graph := by
  induction ss generalizing i off graphs with
  | nil =>
    cases hfiles
    rfl
  | cons b ss ih =>
    cases hfiles with
    | cons hfile hrest =>
      obtain ⟨hgraph, hcrc⟩ := hfile
      have hhead := hdistinct i _ hgraph b List.mem_cons_self hcrc
      have htail := ih (fun i c hc b' hb' => hdistinct i c hc b' (List.mem_cons_of_mem b hb')) hrest
      rw [hhead, htail, List.map_cons]

/-- An accepted manifest ties the TIDs and all shards to the build that wrote it. -/
theorem writtenTogether_of_manifest (hcrc : CrcDistinct ops) (ha : Sourced ops a)
    (htids : TidsAccepted a thdr t) (hmanifest : ManifestAccepted a thdr recs)
    (hgraphs : ShardFiles a recs graphs) :
    WrittenTogether ops t (.sharded (graphs.map some)) := by
  obtain ⟨f, hf, hread⟩ := Option.bind_eq_some_iff.mp htids.1
  obtain ⟨q, hq, hqTids⟩ := ha.tids f hf
  obtain ⟨m, shdr, hm, hmread, hbase, -⟩ := hmanifest
  obtain ⟨p, hp, hpManifest⟩ := ha.shards m hm
  obtain ⟨dim, metric, tids, shards, vectors, fault, rfl, rfl⟩ :=
    PersistOp.manifest_eq_some hpManifest
  obtain ⟨rfl, hrecs, -⟩ := cuvsShardsRead_eq_some hmread
  have hrecords : recs = shardRecords dim metric 0 0 shards := by
    rw [hrecs]
    exact List.take_length
  have hbody : f.body = t := by
    have hmap := PersistOp.tidsFile_body hqTids hread
    rw [hqTids] at hmap
    exact Option.some.inj hmap
  have hsame : tids = t := by
    obtain ⟨-, -, -, -, -, -, htcrc⟩ := cuvsTidsRead_eq_some hread
    have hequal : cuvsCrc32 (tidBytes tids) = cuvsCrc32 (tidBytes f.body) := by
      rw [hbody, ← htcrc]
      exact hbase
    exact (hcrc.tids _ hp q hq _ rfl f hqTids hequal).trans hbody
  have hshards : graphs = shards.map ShardBuild.graph := by
    rw [hrecords] at hgraphs
    refine graphs_of_shardRecords ?_ hgraphs
    intro i c hc b hb hequal
    obtain ⟨o, ho, hco⟩ := ha.shardCagra i c hc
    exact hcrc.graphs o ho _ hp c hco b.graph (List.mem_map_of_mem hb) hequal
  refine ⟨_, hp, congrArg some hsame, .inr ?_⟩
  rw [hshards, List.map_map]
  rfl

end Manifest

/-- A crash in a sharded commit is harmless exactly when it does not put the new
TIDs next to an old unsharded graph. -/
theorem shardedCommit_crash_iff (hist : List PersistOp) (op : PersistOp) (hop : op.isSharded)
    (hcrc : CrcDistinct (hist ++ [op])) (n : ℕ) :
    LoadsOneOperation hist op n ↔ CrashSafe hist op n := by
  rw [loadsOneOperation_iff]
  constructor
  · exact crashSafe_of_loads (commits_of_isSharded hop)
  · intro hsafe t g hloads
    refine loads_sound (commits_of_isSharded hop) hsafe ?_ hloads
    intro thdr t recs graphs htids hmanifest hgraphs
    exact writtenTogether_of_manifest hcrc (sourced_crashed hist op n) htids hmanifest hgraphs

section Sample

def sampleShardedBuild : PersistOp :=
  .buildSharded 1 .l2 [201, 202, 203, 204]
    [⟨⟨[1, 0], [[20], [21]]⟩, 0, 2⟩, ⟨⟨[2, 0], [[22], [23]]⟩, 1, 2⟩] .writeFailed none

theorem sampleShardedBuild_crcDistinct :
    CrcDistinct ([sampleBuild 101 10] ++ [sampleShardedBuild]) where
  tids := by decide +kernel
  graphs := by decide +kernel

/-- The manifest completes the commit although `.cagra` is still on disk. -/
theorem shardedCommit_crash_sample :
    LoadsOneOperation [sampleBuild 101 10] sampleShardedBuild 5 := by
  refine (shardedCommit_crash_iff _ _ rfl sampleShardedBuild_crcDistinct 5).mpr ⟨?_, ?_⟩
  · intro htorn
    cases htorn
  · intro _ f p _ _ hp
    cases hp

/-- Before the manifest is renamed, an unsharded predecessor is torn. -/
theorem shardedCommit_crash_mixes :
    ¬∀ hist op, op.isSharded → CrcDistinct (hist ++ [op]) → ∀ n, LoadsOneOperation hist op n := by
  intro h
  have hpair := loadsOneOperation_iff.mp
    (h [sampleBuild 101 10] sampleShardedBuild rfl sampleShardedBuild_crcDistinct 4)
  have hfile : (crashed [sampleBuild 101 10] sampleShardedBuild 4).tids
      = some (cuvsTidsWrite 1 .l2 [201, 202, 203, 204]) := rfl
  have htids : TidsAccepted (crashed [sampleBuild 101 10] sampleShardedBuild 4)
      (cuvsTidsWrite 1 .l2 [201, 202, 203, 204]).header [201, 202, 203, 204] := by
    refine ⟨?_, Nat.one_ne_zero⟩
    rw [hfile, Option.bind_some, cuvsTidsRead_write (List.cons_ne_nil _ _) (by decide)]
  obtain ⟨q, hq, hqTids, hflat | hqGraph⟩ :=
    hpair [201, 202, 203, 204] (.cagra ⟨[0, 1], [[10], [11]]⟩) (Loads.cagra htids rfl rfl)
  · cases hflat
  · rcases List.mem_cons.mp hq with rfl | hq
    · revert hqTids
      decide
    · obtain rfl := List.mem_singleton.mp hq
      revert hqGraph
      decide

end Sample

end PgCuvs
