import Mathlib.Data.List.GetD
import PgCuvs.Library.Run
import PgCuvs.Lifecycle
import PgCuvs.Invariants

/-! The reverse TID map of an entry: what `build_rev_tid_map` makes, what the lookups
find in it, and which operations leave it behind. -/

namespace PgCuvs

/-- The TIDs of an index in order, each with the item it stands for. -/
structure RevMap (nVecs : ℕ) (tids revTids : List Tid) (revItemIds : List ℤ) : Prop where
  length_revTids : revTids.length = nVecs
  sorted : revTids.Pairwise (· ≤ ·)
  perm : revItemIds.Perm ((List.range nVecs).map Nat.cast)
  paired : ∀ j : ℕ, revTids[j]? = revItemIds[j]?.bind fun i => tids[i.toNat]?

/-- No map, or the map of the TID array. -/
def IndexEntry.MapAligned (e : IndexEntry) : Prop :=
  (e.revTids = none ∧ e.revItemIds = none) ∨
    ∃ revTids revItemIds, e.revTids = some revTids ∧ e.revItemIds = some revItemIds ∧
      RevMap e.nVecs e.tids revTids revItemIds

section Build

def tidPairs (nVecs : ℕ) (tids : List Tid) : List (Tid × ℤ) :=
  qsort cmpRevTid ((List.range nVecs).map fun i => (tids.getD i 0, int32 i))

theorem cmpRevTid_nonpos {a b : Tid × ℤ} : cmpRevTid a b ≤ 0 ↔ a.1 ≤ b.1 := by
  unfold cmpRevTid
  split_ifs with hgt hlt
  · simp [hgt]
  · simp [hlt.le]
  · simp [not_lt.mp hgt]

theorem tidPairs_sorted (nVecs : ℕ) (tids : List Tid) :
    ((tidPairs nVecs tids).map Prod.fst).Pairwise (· ≤ ·) := by
  have hrel : tidPairs nVecs tids = ((List.range nVecs).map fun i => (tids.getD i 0, int32 i)).insertionSort
      (fun a b => a.1 ≤ b.1) := by
    unfold tidPairs qsort
    congr 1
    funext a b
    exact propext cmpRevTid_nonpos
  have htotal : Std.Total (fun a b : Tid × ℤ => a.1 ≤ b.1) := ⟨fun a b => le_total a.1 b.1⟩
  have htrans : IsTrans (Tid × ℤ) (fun a b => a.1 ≤ b.1) := ⟨fun _ _ _ => le_trans⟩
  rw [hrel, List.pairwise_map]
  exact List.pairwise_insertionSort (fun a b : Tid × ℤ => a.1 ≤ b.1) _

theorem revMap_tidPairs {nVecs : ℕ} {tids : List Tid} (hlen : nVecs ≤ tids.length)
    (hbound : nVecs ≤ 2 ^ 31) :
    RevMap nVecs tids ((tidPairs nVecs tids).map Prod.fst) ((tidPairs nVecs tids).map Prod.snd) where
  length_revTids := by simp [tidPairs, (qsort_perm cmpRevTid _).length_eq]
  sorted := tidPairs_sorted nVecs tids
  perm := by
    have hitems : (List.range nVecs).map int32 = (List.range nVecs).map Nat.cast := by
      refine List.map_congr_left fun i hi => ?_
      exact int32_of_lt ((List.mem_range.mp hi).trans_le hbound)
    have hperm := (qsort_perm cmpRevTid
      ((List.range nVecs).map fun i => (tids.getD i 0, int32 i))).map Prod.snd
    rw [List.map_map] at hperm
    simp only [Function.comp_def, hitems] at hperm
    exact hperm
  paired := by
    intro j
    rw [List.getElem?_map, List.getElem?_map]
    cases hp : (tidPairs nVecs tids)[j]? with
    | none => rfl
    | some p =>
      have hmem := (qsort_perm cmpRevTid _).mem_iff.mp (List.mem_of_getElem? hp)
      obtain ⟨i, hi, rfl⟩ := List.mem_map.mp hmem
      have hrange : i < nVecs := List.mem_range.mp hi
      have hlt : i < tids.length := hrange.trans_le hlen
      simp [int32_of_lt (hrange.trans_le hbound), List.getElem?_eq_getElem hlt]

theorem buildRevTidMap_aligned {e : IndexEntry} (hnone : e.revTids = none ∧ e.revItemIds = none)
    (hlen : e.nVecs ≤ e.tids.length) (hbound : e.nVecs ≤ 2 ^ 31) :
    (buildRevTidMap e).MapAligned := by
  unfold buildRevTidMap
  split_ifs
  · exact .inl hnone
  · exact .inr ⟨_, _, rfl, rfl, revMap_tidPairs hlen hbound⟩

theorem buildRevTidMap_aligned_of_pos {e : IndexEntry} (hpos : 0 < e.nVecs)
    (hlen : e.nVecs ≤ e.tids.length) (hbound : e.nVecs ≤ 2 ^ 31) :
    (buildRevTidMap e).MapAligned := by
  have hne : e.tids ≠ [] := List.ne_nil_of_length_pos (hpos.trans_le hlen)
  rw [buildRevTidMap, if_neg (by simp [hne, hpos.ne'])]
  exact .inr ⟨_, _, rfl, rfl, revMap_tidPairs hlen hbound⟩

end Build

section Lookup

variable {nVecs : ℕ} {tids revTids : List Tid} {revItemIds : List ℤ} {want : Tid} {i : ℕ}

theorem RevMap.revMapItem_append (h : RevMap nVecs tids revTids revItemIds) (behindTids : List Tid)
    (behindIds : List ℤ) (want : Tid) :
    revMapItem nVecs (revTids ++ behindTids) (revItemIds ++ behindIds) want
      = revMapItem nVecs revTids revItemIds want := by
  have hids : revItemIds.length = nVecs := by simpa using h.perm.length_eq
  have hfind : BinarySearch.find closedMidpoint (fun i => (revTids ++ behindTids).getD i 0) want
      (nVecs + 1) 0 nVecs
        = BinarySearch.find closedMidpoint (fun i => revTids.getD i 0) want (nVecs + 1) 0 nVecs := by
    refine BinarySearch.find_congr within_closedMidpoint ?_
    intro i _ hi
    exact List.getD_append _ _ _ _ (h.length_revTids ▸ hi)
  unfold revMapItem
  rw [hfind]
  cases hmid : BinarySearch.find closedMidpoint (fun i => revTids.getD i 0) want (nVecs + 1) 0 nVecs with
  | none => rfl
  | some mid =>
    obtain ⟨-, hlt, -⟩ := BinarySearch.find_some within_closedMidpoint hmid
    simp only [List.getD_append _ behindIds _ _ (hids ▸ hlt)]

theorem RevMap.exists_item (h : RevMap nVecs tids revTids revItemIds) {iid : ℤ}
    (hmem : iid ∈ revItemIds) : ∃ i < nVecs, iid = i := by
  obtain ⟨i, hi, rfl⟩ := List.mem_map.mp (h.perm.mem_iff.mp hmem)
  exact ⟨i, List.mem_range.mp hi, rfl⟩

theorem RevMap.revMapItem_some (h : RevMap nVecs tids revTids revItemIds)
    (hfind : revMapItem nVecs revTids revItemIds want = some i) : i < nVecs ∧ tids[i]? = some want := by
  unfold revMapItem at hfind
  split at hfind
  · cases hfind
  · rename_i mid hmid
    obtain ⟨-, hlt, hwant⟩ := BinarySearch.find_some within_closedMidpoint hmid
    simp only at hfind
    split_ifs at hfind with hiid
    obtain rfl := Option.some.inj hfind
    have hids : revItemIds.length = nVecs := by simpa using h.perm.length_eq
    have hidlt : mid < revItemIds.length := by omega
    have htidlt : mid < revTids.length := by rwa [h.length_revTids]
    have hpair := h.paired mid
    rw [List.getElem?_eq_getElem htidlt, List.getElem?_eq_getElem hidlt, Option.bind_some] at hpair
    rw [List.getD_eq_getElem _ _ htidlt] at hwant
    refine ⟨by omega, ?_⟩
    rw [List.getD_eq_getElem _ _ hidlt, ← hpair, hwant]

theorem RevMap.revMapItem_isSome (h : RevMap nVecs tids revTids revItemIds) (hi : i < nVecs)
    (hwant : tids[i]? = some want) : (revMapItem nVecs revTids revItemIds want).isSome := by
  have hids : revItemIds.length = nVecs := by simpa using h.perm.length_eq
  have hmem : (i : ℤ) ∈ revItemIds :=
    h.perm.mem_iff.mpr (List.mem_map_of_mem (List.mem_range.mpr hi))
  obtain ⟨j, hj, hitem⟩ := List.getElem_of_mem hmem
  have hval : revTids.getD j 0 = want := by
    have hpair := h.paired j
    rw [List.getElem?_eq_getElem hj, Option.bind_some, hitem, Int.toNat_natCast, hwant] at hpair
    rw [List.getD_eq_getElem?_getD, hpair, Option.getD_some]
  have hmono : ∀ a b, 0 ≤ a → a ≤ b → b < nVecs → revTids.getD a 0 ≤ revTids.getD b 0 := by
    intro a b _ hab hb
    rw [← h.length_revTids] at hb
    rw [List.getD_eq_getElem _ _ (hab.trans_lt hb), List.getD_eq_getElem _ _ hb]
    rcases hab.eq_or_lt with rfl | hlt
    · exact le_rfl
    · exact List.pairwise_iff_getElem.mp h.sorted a b _ hb hlt
  obtain ⟨mid, hmid⟩ := Option.isSome_iff_exists.mp
    (BinarySearch.find_isSome within_closedMidpoint (by omega : nVecs - 0 < nVecs + 1) hmono
      (Nat.zero_le j) (hids ▸ hj) hval)
  obtain ⟨-, hlt, -⟩ := BinarySearch.find_some within_closedMidpoint hmid
  have hin : 0 ≤ revItemIds.getD mid 0 ∧ revItemIds.getD mid 0 < nVecs := by
    have hidlt : mid < revItemIds.length := by omega
    rw [List.getD_eq_getElem _ _ hidlt]
    obtain ⟨i, hi, heq⟩ := h.exists_item (List.getElem_mem hidlt)
    omega
  simp only [revMapItem, hmid, if_pos hin, Option.isSome_some]

/-- With distinct TIDs a lookup finds the one item that stands for a TID. -/
theorem RevMap.revMapItem_iff (h : RevMap nVecs tids revTids revItemIds) (hnodup : tids.Nodup) :
    revMapItem nVecs revTids revItemIds want = some i ↔ i < nVecs ∧ tids[i]? = some want := by
  refine ⟨h.revMapItem_some, ?_⟩
  rintro ⟨hi, hwant⟩
  obtain ⟨j, hj⟩ := Option.isSome_iff_exists.mp (h.revMapItem_isSome hi hwant)
  obtain ⟨-, hjwant⟩ := h.revMapItem_some hj
  obtain ⟨hilt, hieq⟩ := List.getElem?_eq_some_iff.mp hwant
  obtain ⟨hjlt, hjeq⟩ := List.getElem?_eq_some_iff.mp hjwant
  rw [hj, (List.Nodup.getElem_inj_iff hnodup).mp (hjeq.trans hieq.symm)]

theorem mem_dedupAdjacent {l : List Tid} {t : Tid} : t ∈ dedupAdjacent l ↔ t ∈ l := by
  induction l using dedupAdjacent.induct with
  | case1 => rfl
  | case2 => rfl
  | case3 u ts ih => simp only [dedupAdjacent, if_true, ih, List.mem_cons, or_self_left]
  | case4 t u ts hne ih => simp only [dedupAdjacent, if_neg hne, List.mem_cons, ih]

end Lookup

/-- The lookups of the prefilter and of the exact search find the whitelisted rows, and
read nothing behind the arrays. -/
structure LookupsExact (e : IndexEntry) (revTids : List Tid) (revItemIds : List ℤ) : Prop where
  prefilter : ∀ filterTids i, i ∈ includedItems e revTids revItemIds filterTids ↔
    i < e.nVecs ∧ ∃ t ∈ filterTids, e.tids[i]? = some t
  exact : ∀ filterTids i,
    i ∈ (dedupAdjacent filterTids).filterMap (revMapItem e.nVecs revTids revItemIds) ↔
      i < e.nVecs ∧ ∃ t ∈ filterTids, e.tids[i]? = some t
  inside : ∀ behindTids behindIds want,
    revMapItem e.nVecs (revTids ++ behindTids) (revItemIds ++ behindIds) want
      = revMapItem e.nVecs revTids revItemIds want

theorem RevMap.lookupsExact {e : IndexEntry} {revTids : List Tid} {revItemIds : List ℤ}
    (h : RevMap e.nVecs e.tids revTids revItemIds) (hnodup : e.tids.Nodup) :
    LookupsExact e revTids revItemIds := by
  have hitems : ∀ (l : List Tid) i, i ∈ l.filterMap (revMapItem e.nVecs revTids revItemIds) ↔
      i < e.nVecs ∧ ∃ t ∈ l, e.tids[i]? = some t := by
    intro l i
    simp only [List.mem_filterMap, h.revMapItem_iff hnodup]
    exact ⟨fun ⟨t, ht, hi, hwant⟩ => ⟨hi, t, ht, hwant⟩, fun ⟨hi, t, ht, hwant⟩ => ⟨t, ht, hi, hwant⟩⟩
  refine ⟨hitems, ?_, h.revMapItem_append⟩
  intro filterTids i
  simp only [hitems, mem_dedupAdjacent]

section Entries

/-- No TID twice, and as many as an `int32_t` can count. -/
def MapTids (tids : List Tid) : Prop := tids.Nodup ∧ tids.length < 2 ^ 31

instance (tids : List Tid) : Decidable (MapTids tids) :=
  inferInstanceAs (Decidable (_ ∧ _))

theorem MapTids.sublist {l l' : List Tid} (h : MapTids l) (hsub : l'.Sublist l) : MapTids l' :=
  ⟨h.1.sublist hsub, hsub.length_le.trans_lt h.2⟩

def MapEntry (e : IndexEntry) : Prop := e.tids.length = e.nVecs ∧ MapTids e.tids ∧ e.MapAligned

/-- The `.tids` file names no TID twice and has fewer than `2 ^ 31` of them. -/
def DistinctTids (_ : Dir) (_ : Key) (a : Artifacts) : Prop := ∀ f, a.tids = some f → MapTids f.body

variable {e e' : IndexEntry} {a : Artifacts}

theorem mapEntry_build (hlen : e.tids.length = e.nVecs) (htids : MapTids e.tids)
    (hmap : (buildRevTidMap e).MapAligned) : MapEntry (buildRevTidMap e) := by
  have hsame : (buildRevTidMap e).tids = e.tids := buildRevTidMap_field IndexEntry.tids (fun _ _ _ => rfl) e
  have hn : (buildRevTidMap e).nVecs = e.nVecs := buildRevTidMap_field IndexEntry.nVecs (fun _ _ _ => rfl) e
  exact ⟨by rw [hsame, hn, hlen], by rwa [hsame], hmap⟩

theorem mapEntry_rebuild_of_pos (hlen : e.tids.length = e.nVecs) (htids : MapTids e.tids)
    (hpos : 0 < e.nVecs) : MapEntry (buildRevTidMap e) :=
  mapEntry_build hlen htids (buildRevTidMap_aligned_of_pos hpos hlen.ge (hlen ▸ htids.2.le))

theorem mapEntry_rebuild (hlen : e.tids.length = e.nVecs) (htids : MapTids e.tids)
    (hnone : e.revTids = none ∧ e.revItemIds = none) : MapEntry (buildRevTidMap e) :=
  mapEntry_build hlen htids (buildRevTidMap_aligned hnone hlen.ge (hlen ▸ htids.2.le))

theorem EntryMove.mapEntry (hmove : EntryMove True a e e') (h : MapEntry e) : MapEntry e' := by
  cases hmove with
  | delta room builds =>
    have hsame : MapEntry (refreshDeltaCache a room builds e) = MapEntry e :=
      refreshDeltaCache_field MapEntry (fun _ => rfl) e
    rwa [hsame]
  | mainBf room builds prec =>
    have hsame : MapEntry (refreshMainBfCache a room builds prec e) = MapEntry e :=
      refreshMainBfCache_field MapEntry (fun _ _ _ _ _ _ _ => rfl) e
    rwa [hsame]
  | account lastSearch stats mode => exact h
  | enter => exact h
  | leave => exact h
  | hnsw hnswIdx => exact h
  | shardBf hsharded mtime prec shards => exact h

theorem TidsAccepted.distinct {thdr : TidsHeader} {tids : List Tid} {dir : Dir} {key : Key}
    (h : TidsAccepted a thdr tids) (ha : DistinctTids dir key a) :
    tids.length = thdr.nVecs ∧ 0 < thdr.nVecs ∧ MapTids tids := by
  obtain ⟨f, hf, hread⟩ := Option.bind_eq_some_iff.mp h.1
  obtain ⟨-, htids, hlen, hpos, -⟩ := cuvsTidsRead_eq_some hread
  refine ⟨hlen, hpos, ?_⟩
  rw [htids]
  exact (ha f hf).sublist (List.take_sublist ..)

attribute [local irreducible] buildRevTidMap

theorem SlotInit.mapEntry_load {c : SlotInit} {dir : Dir} {key : Key} (hc : c.Reads a)
    (ha : DistinctTids dir key a) (slot : IndexEntry) : MapEntry (c.apply slot) := by
  have hload : ∀ {x : IndexEntry} {thdr : TidsHeader}, TidsAccepted a thdr x.tids →
      x.nVecs = thdr.nVecs → MapEntry (buildRevTidMap x) := by
    intro x thdr htids hn
    obtain ⟨hlen, hpos, hnodup⟩ := htids.distinct ha
    rw [← hn] at hlen hpos
    exact mapEntry_rebuild_of_pos hlen hnodup hpos
  cases c with
  | loadSharded env key thdr tids shards b =>
    simp only [SlotInit.apply, initSharded, restoreStale_eq]
    exact hload hc rfl
  | loadFlat env key thdr tids gpu b =>
    simp only [SlotInit.apply, initFlat, restoreStale_eq]
    exact hload hc rfl
  | loadUnsharded env key thdr tids graph needed gpu b =>
    simp only [SlotInit.apply, initUnsharded, restoreStale_eq]
    exact hload hc rfl
  | build | sharded | flat | ivfpq => cases hc

theorem SlotInit.mapEntry_build {c : SlotInit} (hc : c.Fits) {tids : List Tid}
    (hnodup : MapTids tids) (htids : c.tids = tids) (slot : IndexEntry) : MapEntry (c.apply slot) := by
  subst htids
  have hmake : ∀ {x : IndexEntry}, MapTids x.tids → x.tids.length = x.nVecs → x.revTids = none →
      x.revItemIds = none → MapEntry (buildRevTidMap x) :=
    fun hnodup hlen hrev hids => mapEntry_rebuild hlen hnodup ⟨hrev, hids⟩
  cases c with
  | build now t graph =>
    simp only [SlotInit.apply, initBuild]
    exact hmake hnodup rfl rfl rfl
  | sharded now frame tids shards => exact ⟨rfl, hnodup, .inl ⟨rfl, rfl⟩⟩
  | flat now frame tids gpu =>
    simp only [SlotInit.apply, initFlatBuild]
    exact hmake hnodup rfl rfl rfl
  | ivfpq now frame tids codes needed gpu =>
    -- the map of the slot is not cleared, but an IVF-PQ corpus has rows
    simp only [SlotInit.apply, initIvfpq]
    exact mapEntry_rebuild_of_pos rfl hnodup hc
  | loadSharded | loadFlat | loadUnsharded => cases hc

/-- A rewrite gives the entry TIDs that can be mapped, and no sharded build finds a map
of other TIDs. -/
def EntryWrite.MapSafe (e : IndexEntry) : EntryWrite → Prop
  | .build _ t _ => MapTids t.corpus.tids
  | .sharded _ _ tids _ => MapTids tids ∧ (e.revTids = none ∨ e.tids = tids)
  | .flat _ _ tids _ | .ivfpq _ _ tids _ _ _ => MapTids tids
  | .extend _ _ new => MapTids (e.tids ++ new.tids)
  | .extendFailed .. | .compact .. | .stale _ => True

theorem EntryWrite.mapEntry {w : EntryWrite} (hsafe : w.MapSafe e) (h : MapEntry e) :
    MapEntry (w.apply e) := by
  have hmake : ∀ {x : IndexEntry}, MapTids x.tids → x.tids.length = x.nVecs → x.revTids = none →
      x.revItemIds = none → MapEntry (buildRevTidMap x) :=
    fun hnodup hlen hrev hids => mapEntry_rebuild hlen hnodup ⟨hrev, hids⟩
  obtain ⟨hlen, hnodup, hmap⟩ := h
  cases w with
  | build now t graph =>
    simp only [EntryWrite.apply, installBuild]
    exact hmake hsafe rfl rfl rfl
  | sharded now frame tids shards =>
    refine ⟨rfl, hsafe.1, ?_⟩
    rcases hsafe.2 with hnone | rfl
    · rcases hmap with hmap | ⟨revTids, _, hsome, -⟩
      · exact .inl hmap
      · rw [hnone] at hsome
        cases hsome
    · rcases hmap with hmap | ⟨revTids, revItemIds, hrev, hids, hpairs⟩
      · exact .inl hmap
      · rw [← hlen] at hpairs
        exact .inr ⟨revTids, revItemIds, hrev, hids, hpairs⟩
  | flat now frame tids gpu =>
    simp only [EntryWrite.apply, installFlat]
    exact hmake hsafe rfl rfl rfl
  | ivfpq now frame tids codes needed gpu =>
    simp only [EntryWrite.apply, installIvfpq]
    exact hmake hsafe rfl rfl rfl
  | extend g image new =>
    have htake : e.tids.take e.nVecs = e.tids := List.take_of_length_le hlen.le
    have hall : MapTids (e.tids.take e.nVecs ++ new.tids) := by
      rw [htake]
      exact hsafe
    simp only [EntryWrite.apply, extendEntry]
    refine hmake hall ?_ rfl rfl
    simp only [List.length_append, htake, hlen]
  | extendFailed g image new => exact ⟨hlen, hnodup, hmap⟩
  | compact now g image keep =>
    have hkept : MapTids (keepMarked keep (e.tids.take e.nVecs)) :=
      hnodup.sublist ((keepMarked_sublist keep _).trans (List.take_sublist ..))
    simp only [EntryWrite.apply, compactEntry]
    exact hmake hkept rfl rfl rfl
  | stale now =>
    simp only [EntryWrite.apply, flagStale]
    split_ifs
    · exact ⟨hlen, hnodup, hmap⟩
    · exact ⟨hlen, hnodup, hmap⟩

end Entries

section Files

variable {a : Artifacts} {dir : Dir} {key : Key}

/-- A file operation that renames no `.tids` but one whose TIDs can be mapped. -/
theorem distinctTids_run {ops : List FileOp} (hops : ∀ f, .renameTids f ∈ ops → MapTids f.body)
    (ha : DistinctTids dir key a) : DistinctTids dir key (runFileOps ops a) := by
  refine CrashPrefix.run_induct FileOp.apply ?_ ha
  intro o ho b hb
  cases o with
  | renameTids f =>
    rintro f' ⟨⟩
    exact hops f ho
  | unlinkTids =>
    rintro f' ⟨⟩
  | _ => exact hb

theorem distinctTids_steps {op : PersistOp} (hop : ∀ f, op.tidsFile = some f → MapTids f.body)
    (ha : DistinctTids dir key a) : DistinctTids dir key (runFileOps (op.steps a) a) :=
  distinctTids_run (fun f hf => hop f (ofOp_steps a op _ hf)) ha

theorem saveRule_distinct (cfg : Config) : SaveRule cfg MapEntry DistinctTids := by
  intro fault e g a he _ _ ha
  rw [saveEntryOps_steps fault e g a]
  refine distinctTids_steps ?_ ha
  rintro f ⟨⟩
  exact he.2.1.sublist (List.take_sublist ..)

theorem moveRule_mapEntry (cfg : Config) : MoveRule cfg MapEntry DistinctTids :=
  fun _ _ _ _ hmove he => hmove.mapEntry he

theorem loadRule_mapEntry (cfg : Config) : LoadRule cfg MapEntry DistinctTids := by
  intro env a key thdr tids init slot ha htids hplan
  obtain ⟨c, hc, -, rfl⟩ := hplan.slotInit htids
  exact SlotInit.mapEntry_load hc ha slot

end Files

section Steps

variable {D : Type} [LT D] [DecidableLT D] {cfg : Config} {s : Server}
  {given : Given} {r r0 : Resident} {x : Effect}

def MapSafeRows (cfg : Config) (d : Daemon) (use : CorpusUse) (frame : BuildFrame)
    (corpus : Corpus) : Prop :=
  MapTids corpus.tids ∧ ∀ e ∈ d.live, e.key = frame.key →
    (use = .extend → MapTids (e.tids ++ corpus.tids)) ∧
    (use = .cagra → 2 ≤ resolveShardCount cfg d frame → e.revTids = none ∨ e.tids = corpus.tids)

instance (cfg : Config) (d : Daemon) (use : CorpusUse) (frame : BuildFrame) (corpus : Corpus) :
    Decidable (MapSafeRows cfg d use frame corpus) := by
  unfold MapSafeRows
  infer_instance

structure MapInvariant (s : Server) : Prop where
  holds : Holds MapEntry DistinctTids s.daemon.resident
  builds : ∀ p ∈ s.builds, MapTids p.2.corpus.tids
  flats : ∀ t ∈ s.flats, MapTids t.tids

theorem Committed.mapEntries (hcommit : Committed cfg s given r x) (hs : MapInvariant s)
    (hr : Holds MapEntry DistinctTids r) (hlive : ∀ e ∈ r.1.live, e ∈ s.daemon.live)
    (hrows : ∀ use dir frame corpus, given.rows use dir frame corpus →
      MapSafeRows cfg s.daemon use frame corpus) :
    Holds MapEntry DistinctTids x.final.resident := by
  refine hcommit.holds hr (saveRule_distinct cfg) ?_ ?_ ?_ ?_
  · intro dir key op a hof ha
    refine distinctTids_steps ?_ ha
    cases hof with
    | build env benv image ht =>
      rintro f ⟨⟩
      exact hs.builds _ ht
    | save fault he hg =>
      rintro f ⟨⟩
      exact he.2.1.sublist (List.take_sublist ..)
    | drop => rintro f ⟨⟩
    | sharded shards stage fault hgiven =>
      rintro f ⟨⟩
      exact (hrows _ _ _ _ hgiven).1
    | flat vectors fault hgiven =>
      rintro f ⟨⟩
      exact (hrows _ _ _ _ hgiven).1
    | ivfpq ivfpq fault hgiven =>
      rintro f ⟨⟩
      exact (hrows _ _ _ _ hgiven).1
  · intro dir key a b hcore ha f hf
    exact ha f ((congrArg Artifacts.Core.tids hcore).symm.trans hf)
  · intro e he w hw hentry
    refine EntryWrite.mapEntry ?_ hentry
    cases hw with
    | build now image ht hkey => exact hs.builds _ ht
    | sharded now shards hgiven hsplit hcount hkey =>
      obtain ⟨hnodup, hover⟩ := hrows _ _ _ _ hgiven
      exact ⟨hnodup, (hover e (hlive e he) hkey).2 rfl hsplit⟩
    | flat now gpu ht hkey => exact hs.flats _ ht
    | ivfpq now needed gpu image hgiven hkey => exact (hrows _ _ _ _ hgiven).1
    | extend image hgiven hg hkey =>
      exact ((hrows _ _ _ _ hgiven).2 e (hlive e he) hkey).1 rfl
    | extendFailed | compact | stale => trivial
  · intro c slot hc
    cases hc with
    | @build now image kind t ht =>
      exact SlotInit.mapEntry_build (c := .build now t ⟨image, t.corpus.vecs⟩) rfl
        (hs.builds _ ht) rfl slot
    | @sharded now shards _ frame corpus hgiven hcount =>
      exact SlotInit.mapEntry_build (c := .sharded now frame corpus.tids shards) hcount
        (hrows _ _ _ _ hgiven).1 rfl slot
    | @flat now gpu t ht =>
      exact SlotInit.mapEntry_build (c := .flat now t.frame t.tids gpu) trivial
        (hs.flats _ ht) rfl slot
    | @ivfpq now needed gpu image _ frame corpus hgiven hpos =>
      exact SlotInit.mapEntry_build
        (c := .ivfpq now frame corpus.tids ⟨image, corpus.vecs⟩ needed gpu) hpos
        (hrows _ _ _ _ hgiven).1 rfl slot

def Request.MapSafe (cfg : Config) (s : Server) (r : Request D) : Prop :=
  ∀ p ∈ r.corpus, MapSafeRows cfg s.daemon p.1 p.2.1 p.2.2

instance (cfg : Config) (s : Server) (r : Request D) : Decidable (r.MapSafe cfg s) := by
  unfold Request.MapSafe
  infer_instance

theorem MapInvariant.step {r : Request D} (h : MapInvariant s) (hr : r.MapSafe cfg s) :
    MapInvariant (s.step cfg r) where
  holds := by
    cases r.effect_spec cfg s with
    | serves hserving hresolved hstores hact =>
      have hmoves := hresolved.moves.trans hstores.moves
      exact Holds.keep (Moves.holds (saveRule_distinct cfg) (moveRule_mapEntry cfg)
        (loadRule_mapEntry cfg) hmoves h.holds) hact
    | commits hevict hcommit =>
      exact hcommit.mapEntries h (hevict.holds (saveRule_distinct cfg) h.holds) hevict.live_subset
        fun _ _ _ _ hrows => hr _ hrows.1
  builds := by
    intro p hp
    rcases Server.step_builds hp with hold | hnew
    · exact h.builds p hold
    · exact (hr _ hnew.1).1
  flats := by
    intro t ht
    rcases Server.step_flats ht with hold | ⟨corpus, hnew, htids⟩
    · exact h.flats t hold
    · rw [htids]
      exact (hr _ hnew).1

/-- Rows are safe where a request brings some, and the TIDs of downloaded files can be
mapped. -/
def LifeEvent.MapSafe (cfg : Config) (s : Server) : LifeEvent D → Prop
  | .serve r => r.MapSafe cfg s
  | .download _ files => ∀ f ∈ files.tids, MapTids f.body
  | .startup .. | .hydrate .. | .hydrated _ => True

instance (cfg : Config) (s : Server) : (ev : LifeEvent D) → Decidable (ev.MapSafe cfg s)
  | .serve r => inferInstanceAs (Decidable (r.MapSafe cfg s))
  | .download _ files => inferInstanceAs (Decidable (∀ f ∈ files.tids, MapTids f.body))
  | .startup .. | .hydrate .. | .hydrated _ => isTrue trivial

theorem MapInvariant.lifeStep {ev : LifeEvent D} (h : MapInvariant s) (hev : ev.MapSafe cfg s) :
    MapInvariant (s.lifeStep cfg ev) := by
  have hload : ∀ (env : Env) (d : Daemon) key, Holds MapEntry DistinctTids d.resident →
      Holds MapEntry DistinctTids (loadIndex cfg env d key).1.resident :=
    fun env d key hd => loadIndex_holds (saveRule_distinct cfg)
      (fun c _ slot hc ha => SlotInit.mapEntry_load hc ha slot) hd
  cases ev with
  | serve r => exact h.step hev
  | startup env names =>
    refine ⟨startupLoadIndexes_induct names (hload env) ?_, fun _ hp => (nomatch hp),
      fun _ ht => (nomatch ht)⟩
    exact ⟨fun _ he => (nomatch he), h.holds.files⟩
  | download key files =>
    refine ⟨?_, h.builds, h.flats⟩
    have hreg := setColdState_registry (d := s.daemon) key .downloading
    have hdisk : Holds MapEntry DistinctTids (s.daemon.registry,
        s.daemon.disk.modify cfg.indexDir key fun _ => files) := by
      exact Holds.modify h.holds fun _ f hf => hev f hf
    rw [← hreg] at hdisk
    exact hdisk
  | hydrate env key durationMs =>
    refine ⟨hydrate_induct key durationMs (hload env) ?_ h.holds, h.builds, h.flats⟩
    intro reg disk i e c hreg hi
    exact hreg.set (hreg.entries e (List.mem_of_getElem? hi))
  | hydrated key =>
    have hdisk : Holds MapEntry DistinctTids (s.daemon.registry,
        s.daemon.disk.modify cfg.indexDir key fun a =>
          { a with delta := none, tombstone := none, stale := none }) :=
      Holds.modify h.holds fun ha => ha
    exact ⟨hdisk, h.builds, h.flats⟩

/-- No map or the map of the TID array, and lookups that find exactly the whitelisted
rows. -/
def IndexEntry.MapServes (e : IndexEntry) : Prop :=
  e.MapAligned ∧ ∀ revTids revItemIds, e.revTids = some revTids → e.revItemIds = some revItemIds →
    LookupsExact e revTids revItemIds

theorem MapEntry.serves {e : IndexEntry} (h : MapEntry e) : e.MapServes := by
  obtain ⟨-, ⟨hnodup, -⟩, hmap⟩ := h
  refine ⟨hmap, ?_⟩
  intro revTids revItemIds hrev hids
  rcases hmap with ⟨hnone, -⟩ | ⟨rt, ri, hrt, hri, hpairs⟩
  · rw [hnone] at hrev
    cases hrev
  · cases hrt.symm.trans hrev
    cases hri.symm.trans hids
    exact hpairs.lookupsExact hnodup

/-- In a run whose rows are safe, every map is the map of its TID array and serves
exactly the whitelisted rows. -/
theorem revTidMap_aligned (cfg : Config) (maxVram : ℕ → ℕ) (disk : Disk)
    (hdisk : ∀ dir key, DistinctTids dir key (disk dir key)) (evs : List (LifeEvent D))
    (hevs : Run.Along (Server.lifeStep cfg) (LifeEvent.MapSafe cfg) (Server.initial maxVram disk) evs) :
    Run.Along (Server.lifeStep cfg) (fun s ev => ∀ e ∈ (s.lifeStep cfg ev).daemon.live, e.MapServes)
      (Server.initial maxVram disk) evs := by
  refine Run.along_invariant MapInvariant (fun _ _ h hev => h.lifeStep hev) ?_ ?_ hevs
  · intro s ev h hev e he
    exact ((h.lifeStep hev).holds.entries e he).serves
  · exact ⟨⟨fun _ he => (nomatch he), hdisk⟩, fun _ hp => (nomatch hp), fun _ ht => (nomatch ht)⟩

end Steps

section Sample

def sampleBuilt : List (LifeEvent ℕ) :=
  [.serve (.build (Env.quiet 9 100000) (BuildEnv.quiet []) (sampleIndexBuild ⟨1, 2⟩ 2)
    (sampleInput 101 10)),
   .serve (.buildEnd (Env.quiet 9 100000) (BuildEnv.quiet []) 0 (.built []))]

def sampleSplit : LifeEvent ℕ :=
  .serve (.build (Env.quiet 9 100000) (BuildEnv.quiet [])
    { sampleIndexBuild ⟨1, 2⟩ 4 with shardCount := 2 } (sampleInput 101 10))

theorem revTidMap_aligned_sample :
    Run.Along (Server.lifeStep sampleConfig)
      (fun s ev => ∀ e ∈ (s.lifeStep sampleConfig ev).daemon.live, e.MapServes)
      (Server.initial (fun _ => 0) Disk.fresh)
      (sampleBuilt ++ [.serve (.extend (sampleIndexBuild ⟨1, 2⟩ 1) (sampleInput 103 12) (.extended [])),
        .serve (.drop ⟨1, 2⟩), sampleSplit]) :=
  revTidMap_aligned sampleConfig (fun _ => 0) Disk.fresh (by rintro dir key f ⟨⟩) _
    (by decide +kernel)

theorem IndexEntry.MapServes.length {e : IndexEntry} {revTids : List Tid} (h : e.MapServes)
    (hrev : e.revTids = some revTids) : revTids.length = e.nVecs := by
  rcases h.1 with ⟨hnone, -⟩ | ⟨rt, ri, hrt, -, hpairs⟩
  · rw [hnone] at hrev
    cases hrev
  · cases hrt.symm.trans hrev
    exact hpairs.length_revTids

/-- A sharded build in place leaves the map of the two old rows. -/
theorem revTidMap_left_behind :
    ¬∀ (cfg : Config) (maxVram : ℕ → ℕ) (disk : Disk),
      (∀ dir key, DistinctTids dir key (disk dir key)) → ∀ evs : List (LifeEvent ℕ),
      Run.Along (Server.lifeStep cfg) (fun s ev => ∀ e ∈ (s.lifeStep cfg ev).daemon.live, e.MapServes)
        (Server.initial maxVram disk) evs := by
  intro h
  have hrun := h sampleConfig (fun _ => 0) Disk.fresh (by rintro dir key f ⟨⟩)
    (sampleBuilt ++ [sampleSplit])
  have hmaps : (((Run.run (Server.lifeStep sampleConfig) (Server.initial (fun _ => 0) Disk.fresh)
      sampleBuilt).lifeStep sampleConfig sampleSplit).daemon.live.map
        fun e => (e.revTids, e.nVecs)) = [(some [101, 102], 4)] := by decide +kernel
  obtain ⟨e, he, hmap⟩ := List.mem_map.mp (hmaps ▸ List.mem_singleton_self (some [101, 102], 4))
  obtain ⟨hrev, hn⟩ := Prod.mk.inj hmap
  have hlength := (Run.along_last hrun e he).length hrev
  rw [hn] at hlength
  exact absurd hlength (by decide)

end Sample

end PgCuvs
