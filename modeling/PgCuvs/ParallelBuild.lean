import PgCuvs.Backend.HeapScan
import PgCuvs.BuiltRows

/-! A parallel CREATE INDEX hands over the tuples of its shares one after the other, so it
indexes the rows of the single-process build in another order. -/

namespace PgCuvs

section Alike

variable {cfg : Config} {env : Env} {benv : BuildEnv}

inductive Prepared.Alike : Prepared → Prepared → Prop
  | failed {d : Daemon} {r r' : Reply} (hstatus : r'.status = r.status) :
      Alike (.failed d r) (.failed d r')
  | graph {d : Daemon} {t t' : BuildTicket} {image : List UInt8}
      (hkey : t'.frame.key = t.frame.key) (hgpu : t'.targetGpu = t.targetGpu) :
      Alike (.graph d t image) (.graph d t' image)
  | sharded {d : Daemon} {dir dir' : Dir} {corpus corpus' : Corpus}
      {shards shards' : List ShardBuild} :
      Alike (.sharded d dir corpus shards) (.sharded d dir' corpus' shards')

theorem evictLru_disk (d : Daemon) (disk : Disk) (gpu : ℕ) :
    (evictLru cfg env { d with disk } gpu).1.live = (evictLru cfg env d gpu).1.live := by
  have hlive : ({ d with disk } : Daemon).live = d.live := rfl
  unfold evictLru
  rw [hlive]
  cases hlru : findLruIndex d.live gpu with
  | none => rfl
  | some i =>
    simp only
    cases hi : d.live[i]? with
    | none => rfl
    | some e =>
      simp only
      split_ifs
      · unfold saveIndex
        cases hg : e.handle with
        | none => rfl
        | some g => rcases env.saveFault e.key with _ | _ | _ | _ | _ <;> rfl
      · rfl

theorem makeSlot_disk (d : Daemon) (disk : Disk) (gpu : ℕ) :
    (makeSlot cfg env { d with disk } gpu).live = (makeSlot cfg env d gpu).live := by
  have hlive : ({ d with disk } : Daemon).live = d.live := rfl
  unfold makeSlot
  rw [hlive]
  split_ifs
  · exact evictLru_disk d disk gpu
  · rfl

theorem installEntry_registered {d : Daemon} {key : Key} {gpu : ℕ} {disk disk' : Disk}
    {w w' : EntryWrite} {c c' : SlotInit} {rows rows' : List (Tid × Vec)}
    (h : Installs key rows w c) (h' : Installs key rows' w' c') :
    ((installEntry cfg env { d with disk } key gpu w c).final.residentRows key).isSome =
      ((installEntry cfg env { d with disk := disk' } key gpu w' c').final.residentRows key).isSome := by
  have hlive : ∀ k : Disk, ({ d with disk := k } : Daemon).live = d.live := fun _ => rfl
  rw [installEntry_residentRows h.1 h.2, installEntry_residentRows h'.1 h'.2]
  simp only [makeSlot_disk, hlive]
  split_ifs <;> rfl

theorem Prepared.Alike.commit {frame frame' : BuildFrame} {p p' : Prepared} (h : p.Alike p')
    {dir dir' : Dir} {corpus corpus' : Corpus} (hkey : frame'.key = frame.key)
    (hp : p.Carries frame.key dir corpus) (hp' : p'.Carries frame.key dir' corpus') :
    (p'.commit cfg env benv frame').reply.status = (p.commit cfg env benv frame).reply.status ∧
      ((p.commit cfg env benv frame).reply.status = .ok →
        ((p.commit cfg env benv frame).final.residentRows frame.key).isSome =
          ((p'.commit cfg env benv frame').final.residentRows frame.key).isSome) := by
  cases h with
  | failed hstatus => exact ⟨hstatus, fun hok => absurd hok hp⟩
  | @graph d t t' image hkeys hgpu =>
    obtain ⟨hframe, -, -, -⟩ := hp
    simp only [Prepared.commit, finishBuildCommit]
    cases benv.fault with
    | some fault => exact ⟨rfl, by rintro ⟨⟩⟩
    | none =>
      refine ⟨by rw [installEntry_status, installEntry_status], fun _ => ?_⟩
      have hrows : ∀ t : BuildTicket, (⟨image, t.corpus.vecs⟩ : Cagra).rows = t.corpus.vecs :=
        fun _ => rfl
      have hinstalls := build_installs env.now t' (hrows t')
      simp only [hgpu, hkeys, hframe] at hinstalls ⊢
      have hfirst := build_installs env.now t (hrows t)
      rw [hframe] at hfirst
      exact installEntry_registered hfirst hinstalls
  | @sharded d _ _ c c' shards shards' =>
    obtain ⟨-, rfl, hsplit, hcount, hrows⟩ := hp
    obtain ⟨-, rfl, hsplit', hcount', hrows'⟩ := hp'
    simp only [Prepared.commit, commitSharded]
    rcases benv.shardedFault with _ | _ | done
    · refine ⟨by rw [installEntry_status, installEntry_status], fun _ => ?_⟩
      have hinstalls := @sharded_installs frame' c' env.now shards' hsplit' hcount' hrows'
      rw [hkey] at hinstalls ⊢
      exact installEntry_registered (sharded_installs env.now hsplit hcount hrows) hinstalls
    · exact ⟨rfl, by rintro ⟨⟩⟩
    · exact ⟨rfl, by rintro ⟨⟩⟩

variable {d : Daemon} {frame : BuildFrame}

theorem runBuild_congr {t t' : BuildTicket} (hgpu : t'.targetGpu = t.targetGpu) (fuel round : ℕ)
    (d : Daemon) : runBuild cfg env benv t' fuel round d = runBuild cfg env benv t fuel round d := by
  induction fuel generalizing round d with
  | zero => rfl
  | succ fuel ih =>
    have hretry : retryBuild cfg env d t' = retryBuild cfg env d t := by
      rw [retryBuild, hgpu]
      rfl
    simp only [runBuild, hretry]
    cases benv.outcome round with
    | oom =>
      rcases retryBuild cfg env d t with ⟨d1, _ | _⟩
      · rfl
      · exact ih _ _
    | built image => rfl
    | failed => rfl

theorem buildShards_congr {frame' : BuildFrame} {vecs vecs' : List Vec}
    (hlen : vecs'.length = vecs.length) (hdim : frame'.dim = frame.dim)
    (hdegree : frame'.graphDegree = frame.graphDegree) (sc todo i : ℕ) (d : Daemon) :
    (buildShards cfg env benv frame' vecs' sc todo i d).1
        = (buildShards cfg env benv frame vecs sc todo i d).1 ∧
      ((buildShards cfg env benv frame' vecs' sc todo i d).2.isSome
        = (buildShards cfg env benv frame vecs sc todo i d).2.isSome) := by
  induction todo generalizing i d with
  | zero => exact ⟨rfl, rfl⟩
  | succ todo ih =>
    simp only [buildShards, hlen, hdim, hdegree]
    rcases placeShard cfg env d
      (estimateVramBytes (shardRange vecs.length sc i).2 frame.dim frame.graphDegree)
      (usableGpu cfg (i % nUsableGpus cfg)) with ⟨d1, _ | dev⟩
    · exact ⟨rfl, rfl⟩
    · cases benv.shardImage i with
      | none => exact ⟨rfl, rfl⟩
      | some image =>
        have hrest := ih (i + 1) d1
        simp only
        rcases hshards : buildShards cfg env benv frame vecs sc todo (i + 1) d1 with ⟨d2, _ | ss⟩ <;>
          rcases hshards' : buildShards cfg env benv frame' vecs' sc todo (i + 1) d1
            with ⟨d2', _ | ss'⟩ <;> rw [hshards, hshards'] at hrest
        · exact hrest
        · cases hrest.2
        · cases hrest.2
        · exact ⟨hrest.1, rfl⟩

/-- Two requests that bring equally many rows for one index are prepared alike. -/
theorem prepareBuild_alike {frame' : BuildFrame} {input input' : BuildInput} {plan plan' : BuildPlan}
    (hplan : planBuild cfg frame input = .ok plan) (hplan' : planBuild cfg frame' input' = .ok plan')
    (hframe : frame' = { frame with nPartials := frame'.nPartials })
    (hlen : plan'.corpus.tids.length = plan.corpus.tids.length) :
    (prepareBuild cfg env benv d frame input).Alike (prepareBuild cfg env benv d frame' input') := by
  have hresolve : resolveShardCount cfg d frame' = resolveShardCount cfg d frame := by
    rw [hframe]
    rfl
  have hdim : frame'.dim = frame.dim := by rw [hframe]
  have hdegree : frame'.graphDegree = frame.graphDegree := by rw [hframe]
  have hkey : frame'.key = frame.key := by rw [hframe]
  have hvecs : plan'.corpus.vecs.length = plan.corpus.vecs.length := by
    rw [plan'.corpus.length_vecs, plan.corpus.length_vecs, hlen]
  -- the plan enters the preparation only through the row count, the dimension and the degree
  unfold prepareBuild
  rw [hplan, hplan']
  simp only [hresolve]
  split_ifs
  · exact .failed rfl
  · simp only [prepareSharded, hlen]
    split_ifs
    · exact .failed rfl
    · obtain ⟨hd, hsome⟩ := @buildShards_congr cfg env benv frame frame' _ _ hvecs hdim hdegree
        (clampShards (resolveShardCount cfg d frame) plan.corpus.tids.length)
        (clampShards (resolveShardCount cfg d frame) plan.corpus.tids.length) 0 d
      rcases hshards : buildShards cfg env benv frame plan.corpus.vecs _ _ 0 d with ⟨d1, _ | ss⟩ <;>
        rcases hshards' : buildShards cfg env benv frame' plan'.corpus.vecs _ _ 0 d
          with ⟨d1', _ | ss'⟩ <;> rw [hshards, hshards'] at hd hsome <;> cases hd
      · exact .failed rfl
      · cases hsome
      · cases hsome
      · exact .sharded
  · simp only [admitBuild, hlen, hdim, hdegree]
    cases pickGpuForIndex cfg env d
      (estimateVramBytes plan.corpus.tids.length frame.dim frame.graphDegree) with
    | none => exact .failed rfl
    | some gpu =>
      simp only
      rcases ensureVram cfg env d
        (estimateVramBytes plan.corpus.tids.length frame.dim frame.graphDegree) gpu with ⟨d1, _ | _⟩
      · exact .failed rfl
      · simp only [prepareGraph]
        rw [@runBuild_congr cfg env benv ⟨frame, plan.dir, plan.corpus, plan.vectors, gpu, _⟩
          ⟨frame', plan'.dir, plan'.corpus, plan'.vectors, gpu, _⟩ rfl]
        rcases runBuild cfg env benv _ _ 0 _ with ⟨d2, image | _ | _⟩
        · exact .graph hkey rfl
        · exact .failed rfl
        · exact .failed rfl

end Alike

section Plans

variable {cfg : Config} {env : Env} {benv : BuildEnv} {d : Daemon} {dir : Dir}
  {rows rows' : List (Tid × Vec)} {frame frame' : BuildFrame} {input input' : BuildInput}

def Brings (cfg : Config) (dir : Dir) (rows : List (Tid × Vec)) (frame : BuildFrame)
    (input : BuildInput) : Prop :=
  if (frame.nVecs < 2 ∨ frame.dim = 0) ∨ payloadOverflows frame.nVecs.toNat frame.dim then
    ∃ err, planBuild cfg frame input = .error err
  else
    ∃ plan, planBuild cfg frame input = .ok plan ∧ plan.dir = saveDir cfg dir ∧
      plan.corpus.rows = rows ∧ plan.vectors.body = plan.corpus.vecs

theorem brings_single (hpartials : frame.nPartials = 0) {seg : Segment}
    (hseg : seg.rows frame.nVecs.toNat = rows) :
    Brings cfg dir rows frame ⟨some dir, .ok seg, none⟩ := by
  unfold Brings planBuild
  by_cases hshape : frame.nVecs < 2 ∨ frame.dim = 0
  · rw [if_pos (.inl hshape)]
    simp only [if_pos hshape]
    exact ⟨_, rfl⟩
  by_cases hpayload : payloadOverflows frame.nVecs.toNat frame.dim = true
  · rw [if_pos (.inr hpayload)]
    simp only [if_neg hshape, if_pos hpayload]
    exact ⟨_, rfl⟩
  · rw [if_neg (not_or.mpr ⟨hshape, hpayload⟩)]
    simp only [if_neg hshape, if_neg hpayload, hpartials, lt_irrefl, if_false]
    exact ⟨_, rfl, rfl, (Segment.corpus_rows seg _).trans hseg, rfl⟩

def PartialDesc.Carries (rows : List (Tid × Vec)) (p : PartialDesc) : Prop :=
  p.nVecs = rows.length ∧ rows ≠ [] ∧ p.named = true ∧
    ∃ seg : Segment, p.segment = .ok seg ∧ seg.rows rows.length = rows

theorem PartialDesc.Carries.rows_eq {p : PartialDesc} (h : p.Carries rows) : p.rows = rows := by
  obtain ⟨hn, -, -, seg, hseg, hrows⟩ := h
  rw [PartialDesc.rows, hseg, hn]
  exact hrows

theorem checkPartials_carried {descs : List PartialDesc} (h : ∀ p ∈ descs, ∃ rows, p.Carries rows)
    {nVecs : ℤ} (hsum : (descs.map PartialDesc.nVecs).sum = nVecs) :
    checkPartials descs nVecs = none := by
  have hnone : descs.findSome? (fun p : PartialDesc =>
      if p.nVecs < 0 then some "negative partial n_vecs"
      else if p.nVecs = 0 then none
      else if p.named then none
      else some "partial shm name not /pg_cuvs_bld_*") = none := by
    refine List.findSome?_eq_none_iff.mpr fun p hp => ?_
    obtain ⟨rows, hn, -, hnamed, -⟩ := h p hp
    rw [if_neg (by omega), hnamed]
    simp
  unfold checkPartials
  simp only [hnone]
  rw [if_neg (not_not.mpr hsum)]

theorem mapPartials_carried {descs : List PartialDesc} (h : ∀ p ∈ descs, ∃ rows, p.Carries rows) :
    ∃ maps, mapPartials descs = .ok maps ∧ maps.length = descs.length := by
  induction descs with
  | nil => exact ⟨[], rfl, rfl⟩
  | cons p ps ih =>
    obtain ⟨maps, hmaps, hlen⟩ := ih fun q hq => h q (List.mem_cons_of_mem p hq)
    obtain ⟨rows, hn, hne, -, seg, hseg, -⟩ := h p List.mem_cons_self
    have hpos : p.nVecs ≠ 0 := by
      rw [hn]
      exact_mod_cast (List.length_pos_of_ne_nil hne).ne'
    refine ⟨(seg, p.nVecs.toNat) :: maps, ?_, by rw [List.length_cons, hlen, List.length_cons]⟩
    rw [mapPartials, if_neg hpos, hseg]
    simp only [hmaps]

theorem brings_multi {descs : List PartialDesc} (hpartials : frame.nPartials = descs.length)
    (hne : descs ≠ []) (hfew : descs.length ≤ buildMaxPartials)
    (hdescs : ∀ p ∈ descs, ∃ rows, p.Carries rows)
    (hsum : (descs.map PartialDesc.nVecs).sum = frame.nVecs)
    (hrows : descs.flatMap PartialDesc.rows = rows) :
    Brings cfg dir rows frame ⟨some dir, .error .openFailed, some descs⟩ := by
  have hpos : 0 < frame.nPartials := by
    rw [hpartials]
    exact List.length_pos_of_ne_nil hne
  unfold Brings planBuild
  by_cases hshape : frame.nVecs < 2 ∨ frame.dim = 0
  · rw [if_pos (.inl hshape)]
    simp only [if_pos hshape]
    exact ⟨_, rfl⟩
  by_cases hpayload : payloadOverflows frame.nVecs.toNat frame.dim = true
  · rw [if_pos (.inr hpayload)]
    simp only [if_neg hshape, if_pos hpayload]
    exact ⟨_, rfl⟩
  · rw [if_neg (not_or.mpr ⟨hshape, hpayload⟩)]
    simp only [if_neg hshape, if_neg hpayload, if_pos hpos]
    obtain ⟨maps, hmaps, hlen⟩ := mapPartials_carried hdescs
    have hsome : maps ≠ [] := by
      rintro rfl
      exact hne (List.eq_nil_of_length_eq_zero hlen.symm)
    have hrange : ¬(frame.nPartials = 0 ∨ buildMaxPartials < frame.nPartials) := by omega
    rw [planBuildMulti, if_neg hrange]
    simp only [checkPartials_carried hdescs hsum, hmaps]
    cases maps with
    | nil => exact absurd rfl hsome
    | cons m ms =>
      refine ⟨_, rfl, rfl, ?_, rfl⟩
      rw [assembleCorpus_rows, ← mapPartials_rows hmaps, hrows]

/-- Two requests of one index that bring the same rows in different orders: the same status, the
same multiset of rows in the files and in the entry. -/
theorem handleBuild_alike (h : Brings cfg dir rows frame input)
    (h' : Brings cfg dir rows' frame' input')
    (hframe : frame' = { frame with nPartials := frame'.nPartials })
    (hlen : rows'.length = rows.length) :
    (handleBuild cfg env benv d frame' input').reply.status
        = (handleBuild cfg env benv d frame input).reply.status ∧
      ((handleBuild cfg env benv d frame input).reply.status = .ok →
        (handleBuild cfg env benv d frame input).HoldsRows frame.key (saveDir cfg dir) rows ∧
        (handleBuild cfg env benv d frame' input').HoldsRows frame.key (saveDir cfg dir) rows' ∧
        ((handleBuild cfg env benv d frame input).final.residentRows frame.key).isSome =
          ((handleBuild cfg env benv d frame' input').final.residentRows frame.key).isSome) := by
  have hkey : frame'.key = frame.key := by rw [hframe]
  have hn : frame'.nVecs = frame.nVecs := by rw [hframe]
  have hdim : frame'.dim = frame.dim := by rw [hframe]
  unfold Brings at h h'
  rw [hn, hdim] at h'
  rw [handleBuild_eq, handleBuild_eq]
  split_ifs at h h' with hshape
  · obtain ⟨err, herr⟩ := h
    obtain ⟨err', herr'⟩ := h'
    simp only [prepareBuild, herr, herr']
    exact ⟨rfl, nofun⟩
  · obtain ⟨plan, hplan, hdir, hrows, hbody⟩ := h
    obtain ⟨plan', hplan', hdir', hrows', hbody'⟩ := h'
    have hcorpus : plan'.corpus.tids.length = plan.corpus.tids.length := by
      have hsize : ∀ c : Corpus, c.tids.length = c.rows.length := by
        intro c
        rw [← c.rows_fst, List.length_map]
      rw [hsize, hsize, hrows, hrows', hlen]
    have halike := @prepareBuild_alike cfg env benv d frame frame' input input' plan plan' hplan
      hplan' hframe hcorpus
    have hcarries := @prepareBuild_carries cfg env benv d frame input plan hplan hbody
    have hcarries' := @prepareBuild_carries cfg env benv d frame' input' plan' hplan' hbody'
    obtain ⟨hstatus, hregistered⟩ := halike.commit hkey hcarries (hkey ▸ hcarries')
    refine ⟨hstatus, fun hok => ⟨?_, ?_, hregistered hok⟩⟩
    · rw [← hdir, ← hrows]
      exact hcarries.holdsRows hok
    · rw [← hdir', ← hrows', ← hkey]
      exact hcarries'.holdsRows (hstatus.trans hok)

end Plans

section Scan

variable {dim capBytes : ℕ} {rows : List (Tid × Vec)} {bs : CuvsBuildState}

theorem CuvsBuildState.Holds.segment_rows (h : bs.Holds dim rows) :
    (mapCorpus bs.bytes rows.length dim).rows rows.length = rows := by
  refine List.ext_getElem? fun i => ?_
  rw [Segment.rows, List.getElem?_map]
  cases hr : rows[i]? with
  | none =>
    have hi : rows.length ≤ i := List.getElem?_eq_none_iff.mp hr
    rw [List.getElem?_eq_none (by simpa using hi), Option.map_none]
  | some r =>
    have hi := (List.getElem?_eq_some_iff.mp hr).1
    rw [List.getElem?_range hi, Option.map_some, h.tid hr, h.vec hr]

/-- A participant hands on exactly the rows of its share, and nothing for none. -/
theorem cuvsScanShmPartial_desc {share : List HeapTuple} {slot : CuvsPartialSlot}
    (hdim : dim ≠ 0) (h : cuvsScanShmPartial capBytes dim share = some slot) :
    slot.nVecs = (indexedRows dim share).length ∧
      if indexedRows dim share = [] then slot.desc dim = none
      else ∃ p, slot.desc dim = some p ∧ p.Carries (indexedRows dim share) := by
  obtain ⟨bs, hscan, rfl⟩ := Option.map_eq_some_iff.mp h
  have hstart : (CuvsBuildState.start dim 64).Holds dim [] := .start (.inl rfl)
  have hbs : bs.Holds dim (indexedRows dim share) := hstart.scan (.inl hdim) hscan
  rw [hbs.nVecs]
  by_cases hempty : indexedRows dim share = []
  · rw [if_pos hempty, hempty]
    exact ⟨rfl, rfl⟩
  · have hpos : 0 < (indexedRows dim share).length := List.length_pos_of_ne_nil hempty
    rw [if_neg hempty, if_pos hpos]
    have hmap : mapPartial bs.bytes (indexedRows dim share).length dim
        = .ok (mapCorpus bs.bytes (indexedRows dim share).length dim) := if_pos hbs.length_bytes
    refine ⟨rfl, _, (if_neg hpos.ne').trans (Option.map_some ..), ?_⟩
    exact ⟨rfl, hempty, rfl, _, hmap, hbs.segment_rows⟩

structure Handed (dim : ℕ) (shares : List (List HeapTuple)) (slots : List CuvsPartialSlot) : Prop where
  total : (slots.map CuvsPartialSlot.nVecs).sum = (indexedRows dim shares.flatten).length
  carries : ∀ p ∈ slots.filterMap (CuvsPartialSlot.desc dim), ∃ rows, p.Carries rows
  rows : (slots.filterMap (CuvsPartialSlot.desc dim)).flatMap PartialDesc.rows
    = indexedRows dim shares.flatten
  count : (slots.filterMap (CuvsPartialSlot.desc dim)).length
    = (shares.filter fun share => indexedRows dim share ≠ []).length

theorem handed_of_scans {shares : List (List HeapTuple)} {slots : List CuvsPartialSlot}
    (hdim : dim ≠ 0) (h : shares.mapM (cuvsScanShmPartial capBytes dim) = some slots) :
    Handed dim shares slots := by
  induction shares generalizing slots with
  | nil =>
    cases h
    exact ⟨rfl, fun _ hp => (nomatch hp), rfl, rfl⟩
  | cons share shares ih =>
    rw [List.mapM_cons] at h
    obtain ⟨slot, hslot, hrest⟩ := Option.bind_eq_some_iff.mp h
    obtain ⟨rest, hslots, hcons⟩ := Option.bind_eq_some_iff.mp hrest
    cases hcons
    have htail := ih hslots
    obtain ⟨hn, hdesc⟩ := cuvsScanShmPartial_desc hdim hslot
    have hsplit : indexedRows dim (share :: shares).flatten
        = indexedRows dim share ++ indexedRows dim shares.flatten := List.filterMap_append
    -- an empty share adds neither a row nor a descriptor
    by_cases hempty : indexedRows dim share = []
    · rw [if_pos hempty] at hdesc
      have hskip : (slot :: rest).filterMap (CuvsPartialSlot.desc dim)
          = rest.filterMap (CuvsPartialSlot.desc dim) := List.filterMap_cons_none hdesc
      refine ⟨?_, ?_, ?_, ?_⟩
      · rw [List.map_cons, List.sum_cons, hn, htail.total, hsplit, List.length_append]
      · rw [hskip]
        exact htail.carries
      · rw [hskip, hsplit, hempty, List.nil_append]
        exact htail.rows
      · rw [hskip, htail.count, List.filter_cons_of_neg (by simpa using hempty)]
    · rw [if_neg hempty] at hdesc
      obtain ⟨p, hp, hcarries⟩ := hdesc
      have hkeep : (slot :: rest).filterMap (CuvsPartialSlot.desc dim)
          = p :: rest.filterMap (CuvsPartialSlot.desc dim) := List.filterMap_cons_some hp
      refine ⟨?_, ?_, ?_, ?_⟩
      · rw [List.map_cons, List.sum_cons, hn, htail.total, hsplit, List.length_append]
      · rw [hkeep]
        exact List.forall_mem_cons.mpr ⟨⟨_, hcarries⟩, htail.carries⟩
      · rw [hkeep, hsplit, List.flatMap_cons, hcarries.rows_eq, htail.rows]
      · rw [hkeep, List.length_cons, htail.count,
          List.filter_cons_of_pos (by simpa using hempty), List.length_cons]

theorem sum_nVecs_carried {descs : List PartialDesc} (h : ∀ p ∈ descs, ∃ rows, p.Carries rows) :
    (descs.map PartialDesc.nVecs).sum = (descs.flatMap PartialDesc.rows).length := by
  induction descs with
  | nil => rfl
  | cons p ps ih =>
    obtain ⟨rows, hp⟩ := h p List.mem_cons_self
    rw [List.map_cons, List.sum_cons, ih fun q hq => h q (List.mem_cons_of_mem p hq), hp.1,
      List.flatMap_cons, List.length_append, hp.rows_eq]
    push_cast
    rfl

end Scan

section Theorem

/-- Both builds report the number of rows, end alike, and index the rows in some order. -/
def SameIndex (key : Key) (dir : Dir) (rows : List (Tid × Vec)) : HeapBuild → HeapBuild → Prop
  | .empty, .empty => rows = []
  | .sent n x, .sent n' x' => n = rows.length ∧ n' = rows.length ∧
      x'.reply.status = x.reply.status ∧
      (x.reply.status = .ok →
        (∃ held, held.Perm rows ∧ x.HoldsRows key dir held) ∧
        (∃ held, held.Perm rows ∧ x'.HoldsRows key dir held) ∧
        (x.final.residentRows key).isSome = (x'.final.residentRows key).isSome)
  | _, _ => False

variable (cfg : Config) (env : Env) (benv : BuildEnv) (d : Daemon) (info : HeapBuildInfo)

theorem cuvsBuildSingle_eq (tuples : List HeapTuple) (htypmod : 0 < info.typmod)
    (hdim : info.opened = true ∨ ∀ t ∈ tuples, ∀ vec ∈ t.value, vec.length = info.dim)
    (hlimit : cuvsBuildSingle cfg env benv d info tuples ≠ .overLimit) :
    (indexedRows info.dim tuples = [] ∧ cuvsBuildSingle cfg env benv d info tuples = .empty) ∨
    (indexedRows info.dim tuples ≠ [] ∧ ∃ input,
      Brings cfg info.indexDir (indexedRows info.dim tuples)
        (info.frame (indexedRows info.dim tuples).length info.dim 0) input ∧
      cuvsBuildSingle cfg env benv d info tuples = .sent (indexedRows info.dim tuples).length
        (handleBuild cfg env benv d
          (info.frame (indexedRows info.dim tuples).length info.dim 0) input)) := by
  have hpos : info.dim ≠ 0 := by
    rw [HeapBuildInfo.dim]
    omega
  simp only [cuvsBuildSingle] at hlimit ⊢
  set start : CuvsBuildState :=
    if 0 < info.typmod ∧ info.opened = true then .start info.dim (max info.reltuples.toNat 64)
    else .start 0 0 with hstart
  have hbegin : start.Holds info.dim [] ∧
      (start.dim ≠ 0 ∨ ∀ t ∈ tuples, ∀ vec ∈ t.value, vec.length = info.dim) := by
    rw [hstart]
    split_ifs with hopened
    · exact ⟨.start (.inl rfl), .inl hpos⟩
    · exact ⟨.start (.inr rfl), .inr (hdim.resolve_left fun h => hopened ⟨htypmod, h⟩)⟩
  cases hscan : tableIndexBuildScan info.capBytes start tuples with
  | none =>
    rw [hscan] at hlimit
    exact absurd rfl hlimit
  | some bs =>
    have hbs : bs.Holds info.dim (indexedRows info.dim tuples) := hbegin.1.scan hbegin.2 hscan
    simp only [hbs.nVecs]
    by_cases hempty : indexedRows info.dim tuples = []
    · rw [if_pos (by rw [hempty]; rfl)]
      exact .inl ⟨hempty, rfl⟩
    · have hdeclared : bs.dim = info.dim := hbs.declared.resolve_right fun h => hempty h.2
      rw [if_neg (List.length_pos_of_ne_nil hempty).ne', hdeclared]
      exact .inr ⟨hempty, _, brings_single rfl hbs.segment_rows, rfl⟩

theorem cuvsBuildParallel_eq (shares : List (List HeapTuple)) (htypmod : 0 < info.typmod)
    (hfew : (shares.filter fun share => indexedRows info.dim share ≠ []).length ≤ buildMaxPartials)
    (hlimit : cuvsBuildParallel cfg env benv d info shares ≠ .overLimit) :
    (indexedRows info.dim shares.flatten = [] ∧
      cuvsBuildParallel cfg env benv d info shares = .empty) ∨
    (indexedRows info.dim shares.flatten ≠ [] ∧ ∃ nPartials input,
      Brings cfg info.indexDir (indexedRows info.dim shares.flatten)
        (info.frame (indexedRows info.dim shares.flatten).length info.dim nPartials) input ∧
      cuvsBuildParallel cfg env benv d info shares =
        .sent (indexedRows info.dim shares.flatten).length
          (handleBuild cfg env benv d
            (info.frame (indexedRows info.dim shares.flatten).length info.dim nPartials) input)) := by
  have hpos : info.dim ≠ 0 := by
    rw [HeapBuildInfo.dim]
    omega
  unfold cuvsBuildParallel at hlimit ⊢
  cases hscans : shares.mapM (cuvsScanShmPartial info.capBytes info.dim) with
  | none =>
    rw [hscans] at hlimit
    exact absurd rfl hlimit
  | some slots =>
    have hhanded := handed_of_scans hpos hscans
    simp only [hhanded.total]
    by_cases hempty : indexedRows info.dim shares.flatten = []
    · rw [if_pos (by rw [hempty]; rfl)]
      exact .inl ⟨hempty, rfl⟩
    · rw [if_neg (List.length_pos_of_ne_nil hempty).ne']
      refine .inr ⟨hempty, _, _, brings_multi rfl ?_ ?_ hhanded.carries ?_ hhanded.rows, rfl⟩
      · intro hnil
        refine hempty ?_
        rw [← hhanded.rows, hnil]
        rfl
      · rw [hhanded.count]
        exact hfew
      · rw [sum_nVecs_carried hhanded.carries, hhanded.rows]
        rfl

/-- However the heap is divided among the leader and its workers, the parallel build indexes the
same multiset of rows as the single process, provided that at most 256 shares hold rows and
that neither build runs into its memory limit. -/
theorem parallel_build_same {tuples : List HeapTuple} {shares : List (List HeapTuple)}
    (hshares : shares.flatten.Perm tuples) (htypmod : 0 < info.typmod)
    (hserial : info.concurrent = false)
    (hdim : info.opened = true ∨ ∀ t ∈ tuples, ∀ vec ∈ t.value, vec.length = info.dim)
    (hfew : (shares.filter fun share => indexedRows info.dim share ≠ []).length ≤ buildMaxPartials)
    (hsingle : cuvsBuildCagraFromHeap cfg env benv d info tuples none ≠ .overLimit)
    (hparallel : cuvsBuildCagraFromHeap cfg env benv d info tuples (some shares) ≠ .overLimit) :
    SameIndex info.key (saveDir cfg info.indexDir) (indexedRows info.dim tuples)
      (cuvsBuildCagraFromHeap cfg env benv d info tuples none)
      (cuvsBuildCagraFromHeap cfg env benv d info tuples (some shares)) := by
  have hrows : (indexedRows info.dim shares.flatten).Perm (indexedRows info.dim tuples) :=
    hshares.filterMap _
  have hlen := hrows.length_eq
  have hgate : 0 < info.typmod ∧ (!info.concurrent) = true := ⟨htypmod, by rw [hserial]; rfl⟩
  have hfit : ¬(0 < info.capBytes ∧ 0 < info.typmod ∧ 0 < info.reltuples ∧
      info.capBytes < corpusBytes info.reltuples.toNat info.dim) := by
    intro hover
    exact hsingle (by rw [cuvsBuildCagraFromHeap, if_pos hover])
  have hsingleEq : cuvsBuildCagraFromHeap cfg env benv d info tuples none
      = cuvsBuildSingle cfg env benv d info tuples := by
    rw [cuvsBuildCagraFromHeap, if_neg hfit, if_pos hgate]
  have hparallelEq : cuvsBuildCagraFromHeap cfg env benv d info tuples (some shares)
      = cuvsBuildParallel cfg env benv d info shares := by
    rw [cuvsBuildCagraFromHeap, if_neg hfit, if_pos hgate]
  rw [hsingleEq] at hsingle ⊢
  rw [hparallelEq] at hparallel ⊢
  have hs := cuvsBuildSingle_eq cfg env benv d info tuples htypmod hdim hsingle
  have hp := cuvsBuildParallel_eq cfg env benv d info shares htypmod hfew hparallel
  rcases hs with ⟨hnone, hs⟩ | ⟨hsome, input, hbrings, hs⟩
  · rcases hp with ⟨-, hp⟩ | ⟨hsome', -⟩
    · rw [hs, hp]
      exact hnone
    · rw [hnone] at hrows
      exact absurd (List.perm_nil.mp hrows) hsome'
  · rcases hp with ⟨hnone', -⟩ | ⟨-, nPartials, input', hbrings', hp⟩
    · rw [hnone'] at hrows
      exact absurd (List.nil_perm.mp hrows) hsome
    · rw [hlen] at hbrings' hp
      rw [hs, hp]
      obtain ⟨hstatus, hok⟩ := @handleBuild_alike cfg env benv d info.indexDir _ _ _ _ input input'
        hbrings hbrings' rfl hlen
      refine ⟨rfl, rfl, hstatus, fun hgood => ?_⟩
      obtain ⟨hheld, hheld', hboth⟩ := hok hgood
      exact ⟨⟨_, .refl _, hheld⟩, ⟨_, hrows, hheld'⟩, hboth⟩

end Theorem

section Sample

def sampleHeapBuild (reltuples : ℤ) (capBytes : ℕ) : HeapBuildInfo where
  key := ⟨1, 2⟩
  metric := .l2
  shardCount := 1
  useCpuHnsw := false
  graphDegree := 0
  indexDir := ""
  typmod := 1
  reltuples := reltuples
  concurrent := false
  capBytes := capBytes
  opened := true

def sampleTuples (n : ℕ) : List HeapTuple :=
  (List.range n).map fun i => ⟨UInt32.ofNat i, 1, some [UInt32.ofNat i], true⟩

def sampleHeap (info : HeapBuildInfo) (n : ℕ) (shares : Option (List (List HeapTuple))) : HeapBuild :=
  cuvsBuildCagraFromHeap sampleConfig (Env.quiet 9 100000) (BuildEnv.quiet [])
    (Daemon.initial (fun _ => 0) Disk.fresh) info (sampleTuples n) shares

def HeapBuild.status : HeapBuild → Option Status
  | .sent _ x => some x.reply.status
  | _ => none

theorem SameIndex.status_eq {key : Key} {dir : Dir} {rows : List (Tid × Vec)} {h h' : HeapBuild}
    (hsame : SameIndex key dir rows h h') : h'.status = h.status := by
  cases h <;> cases h' <;> first | rfl | exact hsame.elim | exact congrArg some hsame.2.2.1

/-- Three rows in two shares, and an empty one. -/
theorem parallel_build_same_sample :
    (sampleHeap (sampleHeapBuild 3 0) 3 none).status = some .ok ∧
      SameIndex ⟨1, 2⟩ (saveDir sampleConfig "") (indexedRows 1 (sampleTuples 3))
        (sampleHeap (sampleHeapBuild 3 0) 3 none)
        (sampleHeap (sampleHeapBuild 3 0) 3
          (some [(sampleTuples 3).drop 1, [], (sampleTuples 3).take 1])) := by
  refine ⟨by decide +kernel, ?_⟩
  have hrun : ∀ h : HeapBuild, h.status.isSome → h ≠ .overLimit := by
    rintro h hsome rfl
    cases hsome
  exact parallel_build_same sampleConfig (Env.quiet 9 100000) (BuildEnv.quiet [])
    (Daemon.initial (fun _ => 0) Disk.fresh) (sampleHeapBuild 3 0) (by decide) (by decide) rfl
    (.inl rfl) (by decide) (hrun _ (by decide +kernel)) (hrun _ (by decide +kernel))

/-- The two builds agree on every partition that `allowed` lets through. -/
def SameForEveryPartition (allowed : HeapBuildInfo → List (List HeapTuple) → Prop) : Prop :=
  ∀ (cfg : Config) (env : Env) (benv : BuildEnv) (d : Daemon) (info : HeapBuildInfo)
    (tuples : List HeapTuple) (shares : List (List HeapTuple)), shares.flatten.Perm tuples →
    0 < info.typmod → info.concurrent = false → info.opened = true → allowed info shares →
    SameIndex info.key (saveDir cfg info.indexDir) (indexedRows info.dim tuples)
      (cuvsBuildCagraFromHeap cfg env benv d info tuples none)
      (cuvsBuildCagraFromHeap cfg env benv d info tuples (some shares))

theorem SameForEveryPartition.status_eq {allowed : HeapBuildInfo → List (List HeapTuple) → Prop}
    (h : SameForEveryPartition allowed) (info : HeapBuildInfo) (n : ℕ)
    {shares : List (List HeapTuple)} (hshares : shares.flatten = sampleTuples n)
    (htypmod : 0 < info.typmod) (hserial : info.concurrent = false) (hopened : info.opened = true)
    (hallowed : allowed info shares) :
    (sampleHeap info n (some shares)).status = (sampleHeap info n none).status := by
  have hsame := h sampleConfig (Env.quiet 9 100000) (BuildEnv.quiet [])
    (Daemon.initial (fun _ => 0) Disk.fresh) info (sampleTuples n) shares (by rw [hshares])
    htypmod hserial hopened hallowed
  exact hsame.status_eq

def sampleShares (n : ℕ) : List (List HeapTuple) := (sampleTuples n).map fun t => [t]

theorem flatten_sampleShares (n : ℕ) : (sampleShares n).flatten = sampleTuples n := by
  rw [sampleShares, ← List.flatMap_def, List.flatMap_singleton']

/-- 257 shares with a row each are refused even without a memory limit; and a share of 65 rows
doubles its buffers past a limit that the single process keeps. -/
theorem parallel_build_differs :
    ¬SameForEveryPartition (fun info _ => info.capBytes = 0) ∧
    ¬SameForEveryPartition (fun info shares =>
      (shares.filter fun share => indexedRows info.dim share ≠ []).length ≤ buildMaxPartials) := by
  constructor
  · intro h
    have hsame := h.status_eq (sampleHeapBuild 257 0) 257 (flatten_sampleShares 257) (by decide)
      rfl rfl rfl
    have hsingle : (sampleHeap (sampleHeapBuild 257 0) 257 none).status = some .ok := by
      decide +kernel
    have hparallel : (sampleHeap (sampleHeapBuild 257 0) 257 (some (sampleShares 257))).status
        = some .error := by decide +kernel
    cases (hparallel.symm.trans hsame).trans hsingle
  · intro h
    have hsame := h.status_eq (sampleHeapBuild 65 1000) 65 (@List.flatten_singleton _ (sampleTuples 65))
      (by decide) rfl rfl (by decide +kernel)
    have hsingle : (sampleHeap (sampleHeapBuild 65 1000) 65 none).status = some .ok := by
      decide +kernel
    have hparallel : (sampleHeap (sampleHeapBuild 65 1000) 65 (some [sampleTuples 65])).status
        = none := by decide +kernel
    cases (hparallel.symm.trans hsame).trans hsingle

end Sample

end PgCuvs
