import Mathlib.Data.List.Dedup
import PgCuvs.RevMap

/-! The bitset prefilter: which items its bitset lets through, which kernel output
it ends with and what it replies from that output. -/

namespace PgCuvs

variable {D : Type}

section Bits

variable {e : IndexEntry} {revTids : List Tid} {revItemIds : List ℤ} {filterTids : List Tid}

theorem excludedBits_eq_false {nVecs i : ℕ} {included : List ℕ} (hi : i < nVecs) :
    (excludedBits nVecs included)[i]? = some false ↔ i ∈ included := by
  simp [excludedBits, hi]

/-- The bitset lets through the items of the whitelisted TIDs and no others. -/
theorem excludedBits_iff (hmap : RevMap e.nVecs e.tids revTids revItemIds) (hdistinct : e.tids.Nodup)
    {i : ℕ} (hi : i < e.nVecs) :
    (excludedBits e.nVecs (includedItems e revTids revItemIds filterTids))[i]? = some false ↔
      ∃ t ∈ filterTids, e.tids[i]? = some t := by
  rw [excludedBits_eq_false hi, (hmap.lookupsExact hdistinct).prefilter]
  exact and_iff_right hi

end Bits

section Output

variable {kern : Kernels D} {frame : SearchFrame} {query : Vec} {e : IndexEntry}
  {revTids : List Tid} {revItemIds : List ℤ} {filterTids : List Tid}

def bruteForceOutput (kern : Kernels D) (frame : SearchFrame) (query : Vec) (e : IndexEntry)
    (bits : List Bool) : Option (List (SearchResult D) × SearchMode) :=
  match e.mainBfIdx with
  | none => none
  | some bf =>
    match kern.bfSearchFiltered bf query frame.k bits (deltaGpuOf e) with
    | .ok raw => some (raw.take frame.k, .gpuBf)
    | .error _ => none

/-- The kernel output the bitset search ends with. -/
def prefilterOutput (kern : Kernels D) (frame : SearchFrame) (query : Vec) (e : IndexEntry)
    (included : List ℕ) : Option (List (SearchResult D) × SearchMode) :=
  let k := frame.k
  let bits := excludedBits e.nVecs included
  match e.handle with
  | none => bruteForceOutput kern frame query e bits
  | some h =>
    match kern.cagraSearchFiltered h query k bits e.gpuDeviceId frame.itopkSize
        frame.searchWidth with
    | .error _ => bruteForceOutput kern frame query e bits
    | .ok raw =>
      let filled := (raw.take k).countP fun r => r.itemId != cuvsPadItemId
      if filled < min k included.length ∧ e.mainBfIdx.isSome then
        bruteForceOutput kern frame query e bits
      else some (raw.take k, .cagraPrefilter)

theorem prefilterSearch_snd :
    (prefilterSearch kern frame query e revTids revItemIds filterTids).2
      = (prefilterOutput kern frame query e (includedItems e revTids revItemIds filterTids)).map
          fun p => (prefilterResults e p.1, p.2) := by
  set bits := excludedBits e.nVecs (includedItems e revTids revItemIds filterTids) with hbits
  have hdev : ∀ n, deltaGpuOf { e with stats :=
      { e.stats with prefilterFallbackCount := n } } = deltaGpuOf e := fun n => rfl
  simp only [prefilterSearch, prefilterOutput, ← hbits, Bool.false_eq_true, if_false, if_true, hdev]
  have hbrute : ∀ e' : IndexEntry,
      (∀ raw : List (SearchResult D), prefilterResults e' raw = prefilterResults e raw) →
      (match e.mainBfIdx with
        | none => (e, none)
        | some bf =>
          match kern.bfSearchFiltered bf query frame.k bits (deltaGpuOf e) with
          | .ok raw => (e', some (prefilterResults e' (raw.take frame.k), SearchMode.gpuBf))
          | .error _ => (e', none)).2
        = (bruteForceOutput kern frame query e bits).map
            fun p => (prefilterResults e p.1, p.2) := by
    intro e' he'
    unfold bruteForceOutput
    split
    · rfl
    · split
      · simp only [he', Option.map_some]
      · rfl
  rcases e.handle with _ | h
  · exact hbrute e fun _ => rfl
  dsimp only
  rcases kern.cagraSearchFiltered h query frame.k bits e.gpuDeviceId frame.itopkSize
    frame.searchWidth with err | raw
  · exact hbrute e fun _ => rfl
  dsimp only
  split_ifs
  · exact hbrute _ fun _ => rfl
  · rfl

/-- The reply has every item of the output exactly when no slot outside the
corpus comes before one inside it. -/
theorem prefilterResults_eq_iff {raw : List (SearchResult D)} :
    prefilterResults e raw = raw.filterMap (baseResult e) ↔
      raw.Pairwise fun a b => baseResult e a = none → baseResult e b = none := by
  unfold prefilterResults
  induction raw with
  | nil => simp
  | cons r raw ih =>
    rw [List.pairwise_cons]
    cases hr : baseResult e r with
    | some c =>
      rw [List.takeWhile_cons_of_pos (by simp [hr]), List.filterMap_cons_some hr,
        List.filterMap_cons_some hr, List.cons_inj_right, ih]
      simp
    | none =>
      rw [List.takeWhile_cons_of_neg (by simp [hr]), List.filterMap_nil,
        List.filterMap_cons_none hr, eq_comm, List.filterMap_eq_nil_iff]
      refine ⟨fun h => ⟨fun b hb _ => h b hb, ?_⟩, fun h b hb => h.1 b hb rfl⟩
      exact List.pairwise_of_forall_mem_list fun _ _ b hb _ => h b hb

/-- A traversal that filled fewer slots than there are included items, or than
it has slots, is replaced when there is a brute-force cache. -/
theorem prefilterOutput_retry {h : Cagra} {bf : BfIndex} {raw raw' : List (SearchResult D)}
    {included : List ℕ} (hgraph : e.handle = some h) (hbf : e.mainBfIdx = some bf)
    (hcagra : kern.cagraSearchFiltered h query frame.k (excludedBits e.nVecs included) e.gpuDeviceId
      frame.itopkSize frame.searchWidth = .ok raw)
    (hretry : kern.bfSearchFiltered bf query frame.k (excludedBits e.nVecs included) (deltaGpuOf e)
      = .ok raw')
    (hshort : (raw.take frame.k).countP (fun r => r.itemId != cuvsPadItemId)
      < min frame.k included.dedup.length) :
    prefilterOutput kern frame query e included = some (raw'.take frame.k, .gpuBf) := by
  have hdistinct : included.dedup.length ≤ included.length := (List.dedup_sublist included).length_le
  have hfilled : (raw.take frame.k).countP (fun r => r.itemId != cuvsPadItemId)
      < min frame.k included.length := by omega
  simp only [prefilterOutput, bruteForceOutput, hgraph, hcagra, hbf, hretry, Option.isSome_some,
    and_true, if_pos hfilled]

/-- `k` slots, each padding or an included item, no item twice. -/
structure SlotsOf (k : ℕ) (included : List ℕ) (out : List (SearchResult D)) : Prop where
  length : out.length = k
  item : ∀ r ∈ out, r.itemId = cuvsPadItemId ∨ ∃ i ∈ included, r.itemId = i
  distinct : out.Pairwise fun a b => a.itemId ≠ cuvsPadItemId → a.itemId ≠ b.itemId

theorem SlotsOf.tids_nodup {k : ℕ} {included : List ℕ} {out : List (SearchResult D)}
    (h : SlotsOf k included out) (hlen : e.tids.length = e.nVecs) (hdistinct : e.tids.Nodup) :
    ((out.filterMap (baseResult e)).map CuvsResult.tid).Nodup := by
  rw [List.Nodup, List.pairwise_map]
  refine h.distinct.filterMap _ ?_
  intro a b hab c hc c' hc'
  obtain ⟨i, hi, hilt, rfl⟩ := itemResult_eq_some hc
  obtain ⟨j, hj, hjlt, rfl⟩ := itemResult_eq_some hc'
  have hij : i ≠ j := by
    rintro rfl
    exact hab (by rw [hi, cuvsPadItemId]; omega) (hi.trans hj.symm)
  rw [← hlen] at hilt hjlt
  rw [List.getD_eq_getElem _ _ hilt, List.getD_eq_getElem _ _ hjlt]
  exact fun heq => hij ((List.Nodup.getElem_inj_iff hdistinct).mp heq)

/-- What the prefilter is to do with a whitelist: let exactly its items through,
answer a starved traversal by brute force, and reply with all of the output. -/
structure PrefilterKeepsAll (kern : Kernels D) (frame : SearchFrame) (query : Vec)
    (e : IndexEntry) (revTids : List Tid) (revItemIds : List ℤ) (filterTids : List Tid)
    (raw : List (SearchResult D)) (mode : SearchMode) : Prop where
  bits : ∀ i < e.nVecs,
    (excludedBits e.nVecs (includedItems e revTids revItemIds filterTids))[i]? = some false ↔
      ∃ t ∈ filterTids, e.tids[i]? = some t
  retry : ∀ h bf rawCagra rawBf, e.handle = some h → e.mainBfIdx = some bf →
    kern.cagraSearchFiltered h query frame.k
      (excludedBits e.nVecs (includedItems e revTids revItemIds filterTids)) e.gpuDeviceId
      frame.itopkSize frame.searchWidth = .ok rawCagra →
    kern.bfSearchFiltered bf query frame.k
      (excludedBits e.nVecs (includedItems e revTids revItemIds filterTids)) (deltaGpuOf e)
      = .ok rawBf →
    (rawCagra.take frame.k).countP (fun r => r.itemId != cuvsPadItemId)
      < min frame.k (includedItems e revTids revItemIds filterTids).dedup.length →
    raw = rawBf.take frame.k ∧ mode = .gpuBf
  reply : (prefilterSearch kern frame query e revTids revItemIds filterTids).2
    = some (raw.filterMap (baseResult e), mode)
  once : ((raw.filterMap (baseResult e)).map CuvsResult.tid).Nodup

/-- Bitset and retry are right for every whitelist. The reply is complete exactly
when the output has no padding in front of an item. -/
theorem prefilter_keeps_all_iff (hmap : RevMap e.nVecs e.tids revTids revItemIds)
    (hlen : e.tids.length = e.nVecs) (hdistinct : e.tids.Nodup) {raw : List (SearchResult D)}
    {mode : SearchMode}
    (hslots : SlotsOf frame.k (includedItems e revTids revItemIds filterTids) raw)
    (hused : prefilterOutput kern frame query e (includedItems e revTids revItemIds filterTids)
      = some (raw, mode)) :
    PrefilterKeepsAll kern frame query e revTids revItemIds filterTids raw mode ↔
      raw.Pairwise fun a b => baseResult e a = none → baseResult e b = none := by
  have hreply : (prefilterSearch kern frame query e revTids revItemIds filterTids).2
      = some (prefilterResults e raw, mode) := by
    rw [prefilterSearch_snd, hused]
    rfl
  rw [← prefilterResults_eq_iff]
  constructor
  · intro h
    have heq := hreply.symm.trans h.reply
    exact (Prod.mk.inj (Option.some.inj heq)).1
  · intro hall
    refine ⟨fun i hi => excludedBits_iff hmap hdistinct hi, ?_, hall ▸ hreply,
      hslots.tids_nodup hlen hdistinct⟩
    intro h bf rawCagra rawBf hgraph hbf hcagra hretry hshort
    have hout := prefilterOutput_retry hgraph hbf hcagra hretry hshort
    obtain ⟨hraw, hmode⟩ := Prod.mk.inj (Option.some.inj (hused.symm.trans hout))
    exact ⟨hraw, hmode⟩

end Output

section Sample

def padEntry : IndexEntry :=
  { IndexEntry.zero with
    key := ⟨1, 2⟩, dim := 1, nVecs := 2, tids := [101, 102], handle := some ⟨[], [[10], [20]]⟩
    revTids := some [101, 102], revItemIds := some [0, 1] }

def padFrame : SearchFrame :=
  { sampleFrame with searchMode := 1, nFilterTids := 1, usePrefilter := true }

def padKernels : Kernels ℕ :=
  { sampleDeltaKernels with
    cagraSearchFiltered := fun _ _ _ _ _ _ _ => .ok [⟨cuvsPadItemId, 0⟩, ⟨1, 20⟩] }

def fullKernels : Kernels ℕ :=
  { sampleDeltaKernels with
    cagraSearchFiltered := fun _ _ _ _ _ _ _ => .ok [⟨1, 20⟩, ⟨cuvsPadItemId, 0⟩] }

theorem padEntry_revMap : RevMap padEntry.nVecs padEntry.tids [101, 102] [0, 1] where
  length_revTids := rfl
  sorted := by decide
  perm := .refl _
  paired := by
    rintro (_ | _ | j)
    · rfl
    · rfl
    · rfl

theorem prefilter_keeps_all_full :
    PrefilterKeepsAll fullKernels padFrame [1] padEntry [101, 102] [0, 1] [102]
        [⟨1, 20⟩, ⟨cuvsPadItemId, 0⟩] .cagraPrefilter ↔
      ([⟨1, 20⟩, ⟨cuvsPadItemId, 0⟩] : List (SearchResult ℕ)).Pairwise
        fun a b => baseResult padEntry a = none → baseResult padEntry b = none :=
  prefilter_keeps_all_iff padEntry_revMap rfl (by decide) ⟨rfl, by decide, by decide⟩
    (by decide +kernel)

/-- The only whitelisted row is found in the second slot and not replied. -/
theorem prefilter_drops_behind_pad :
    ¬ ∀ (kern : Kernels ℕ) (frame : SearchFrame) (query : Vec) (e : IndexEntry)
      (revTids : List Tid) (revItemIds : List ℤ) (filterTids : List Tid)
      (raw : List (SearchResult ℕ)) (mode : SearchMode),
      RevMap e.nVecs e.tids revTids revItemIds → e.tids.length = e.nVecs → e.tids.Nodup →
      SlotsOf frame.k (includedItems e revTids revItemIds filterTids) raw →
      prefilterOutput kern frame query e (includedItems e revTids revItemIds filterTids)
        = some (raw, mode) →
      PrefilterKeepsAll kern frame query e revTids revItemIds filterTids raw mode := by
  intro hall
  have hkeeps := hall padKernels padFrame [1] padEntry [101, 102] [0, 1] [102]
    [⟨cuvsPadItemId, 0⟩, ⟨1, 20⟩] .cagraPrefilter padEntry_revMap rfl (by decide)
    ⟨rfl, by decide, by decide⟩ (by decide +kernel)
  have hreply : (prefilterSearch padKernels padFrame [1] padEntry [101, 102] [0, 1] [102]).2
      = some ([], .cagraPrefilter) := by decide +kernel
  exact absurd (hreply.symm.trans hkeeps.reply) (by decide)

end Sample

end PgCuvs
