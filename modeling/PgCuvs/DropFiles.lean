import PgCuvs.Write

/-! What `handle_drop` leaves of the files of an index. -/

namespace PgCuvs

variable {a : Artifacts}

def Artifacts.dropped (a : Artifacts) : Artifacts := runFileOps (dropOps a) a

/-- How many shard files the unlink loop gets through. -/
def Artifacts.shardReach (a : Artifacts) : ℕ :=
  (List.range shardsMax).findIdx fun s => !(a.shardCagra s).isSome

theorem Artifacts.shardReach_le (a : Artifacts) : a.shardReach ≤ shardsMax := by
  have hle : a.shardReach ≤ (List.range shardsMax).length := List.findIdx_le_length
  rwa [List.length_range] at hle

theorem Artifacts.isSome_of_lt_reach {s : ℕ} (h : s < a.shardReach) : (a.shardCagra s).isSome := by
  have hnot := List.not_of_lt_findIdx h
  rw [List.getElem_range, Bool.not_eq_eq_eq_not, Bool.not_false] at hnot
  simpa using hnot

theorem Artifacts.shardCagra_reach (h : a.shardReach < shardsMax) :
    a.shardCagra a.shardReach = none := by
  have hlen : (List.range shardsMax).findIdx (fun s => !(a.shardCagra s).isSome)
      < (List.range shardsMax).length := by
    rw [List.length_range]
    exact h
  have hstop := @List.findIdx_getElem _ (fun s => !(a.shardCagra s).isSome) _ hlen
  rw [List.getElem_range, Bool.not_eq_eq_eq_not, Bool.not_true] at hstop
  exact Option.not_isSome_iff_eq_none.mp (Bool.eq_false_iff.mp hstop)

theorem unlinkShardFiles_zero (a : Artifacts) :
    unlinkShardFiles 0 a = (List.range a.shardReach).map .unlinkShardCagra := by
  have hstop : ((List.range shardsMax).takeWhile fun s => (a.shardCagra s).isSome)
      = List.range a.shardReach := by
    rw [List.takeWhile_eq_take_findIdx_not, List.take_range]
    exact congrArg List.range (min_eq_left a.shardReach_le)
  rw [unlinkShardFiles, Nat.sub_zero, ← List.range_eq_range', hstop]

theorem run_unlinkShards (k : ℕ) (a : Artifacts) :
    runFileOps ((List.range k).map .unlinkShardCagra) a
      = { a with shardCagra := fun s => if s < k then none else a.shardCagra s } := by
  induction k with
  | zero => rfl
  | succ k ih =>
    rw [List.range_succ, List.map_append, runFileOps, CrashPrefix.run_append]
    rw [runFileOps] at ih
    rw [ih]
    have hshards : Function.update (fun s => if s < k then none else a.shardCagra s) k none
        = fun s => if s < k + 1 then none else a.shardCagra s := by
      funext s
      rw [Function.update_apply]
      split_ifs <;> first | rfl | omega
    exact congrArg (fun f => { a with shardCagra := f }) hshards

theorem Artifacts.dropped_eq (a : Artifacts) :
    a.dropped =
      { Artifacts.empty with
        hnsw := a.hnsw, ivfpq := a.ivfpq
        shardCagra := fun s => if s < a.shardReach then none else a.shardCagra s } := by
  have hshards := run_unlinkShards a.shardReach
  rw [dropped, dropOps, unlinkShardFiles_zero, runFileOps, CrashPrefix.run_append]
  exact hshards _

theorem Artifacts.shardReach_dropped (a : Artifacts) : a.dropped.shardReach = 0 := by
  by_contra hpos
  have hfirst := isSome_of_lt_reach (Nat.pos_of_ne_zero hpos)
  rw [dropped_eq] at hfirst
  simp only at hfirst
  split_ifs at hfirst with hreach
  · cases hfirst
  · have hzero : a.shardReach = 0 := Nat.eq_zero_of_not_pos hreach
    have hnone : a.shardCagra a.shardReach = none := shardCagra_reach (by rw [hzero]; decide)
    rw [hzero] at hnone
    rw [hnone] at hfirst
    cases hfirst

theorem Artifacts.dropped_dropped (a : Artifacts) : a.dropped.dropped = a.dropped := by
  rw [dropped_eq a.dropped, shardReach_dropped]
  simp only [Nat.not_lt_zero, if_false]
  rw [dropped_eq a]

/-- The files are of kinds that the drop looks for, and its loop over the shard files meets
no gap. -/
structure Artifacts.DropKnows (a : Artifacts) : Prop where
  hnsw : a.hnsw = none
  ivfpq : a.ivfpq = none
  shards : ∀ s, (a.shardCagra s).isSome → s < shardsMax ∧ ∀ j < s, (a.shardCagra j).isSome

theorem Artifacts.dropped_eq_empty_iff : a.dropped = Artifacts.empty ↔ a.DropKnows := by
  constructor
  · intro h
    rw [dropped_eq] at h
    have hshards := congrArg Artifacts.shardCagra h
    refine ⟨congrArg Artifacts.hnsw h, congrArg Artifacts.ivfpq h, ?_⟩
    intro s hs
    have hreach : s < a.shardReach := by
      by_contra hout
      have hleft := congrFun hshards s
      simp only [if_neg hout] at hleft
      rw [hleft] at hs
      cases hs
    exact ⟨hreach.trans_le a.shardReach_le, fun j hj => isSome_of_lt_reach (hj.trans hreach)⟩
  · intro h
    have hshards : (fun s => if s < a.shardReach then none else a.shardCagra s)
        = fun _ => (none : Option Cagra) := by
      funext s
      split_ifs with hreach
      · rfl
      · by_contra hne
        obtain ⟨hmax, hbelow⟩ := h.shards s (Option.isSome_iff_ne_none.mpr hne)
        have hstop : a.shardCagra a.shardReach = none :=
          shardCagra_reach (lt_of_le_of_lt (not_lt.mp hreach) hmax)
        rcases (not_lt.mp hreach).eq_or_lt with heq | hlt
        · rw [heq] at hstop
          exact hne hstop
        · have hsome := hbelow _ hlt
          rw [hstop] at hsome
          cases hsome
    rw [dropped_eq, h.hnsw, h.ivfpq, hshards]
    rfl

theorem Artifacts.dropped_empty : Artifacts.empty.dropped = Artifacts.empty :=
  dropped_eq_empty_iff.mpr ⟨rfl, rfl, nofun⟩

structure Artifacts.DropSpares (a : Artifacts) : Prop where
  cagra : a.cagra = none
  tids : a.tids = none
  vectors : a.vectors = none
  shards : a.shards = none
  firstShard : a.shardCagra 0 = none
  delta : a.delta = none
  tombstone : a.tombstone = none
  stale : a.stale = none
  relfilenode : a.relfilenode = none

theorem Artifacts.dropped_eq_self_iff : a.dropped = a ↔ a.DropSpares := by
  constructor
  · intro h
    have hfirst := congrFun (congrArg Artifacts.shardCagra h) 0
    have hreach := shardReach_dropped a
    rw [h] at hreach
    refine ⟨?_, ?_, ?_, ?_, ?_, ?_, ?_, ?_, ?_⟩
    case refine_5 =>
      have hnone : a.shardCagra a.shardReach = none := shardCagra_reach (by rw [hreach]; decide)
      rwa [hreach] at hnone
    all_goals
      rw [← h, dropped_eq]
      rfl
  · intro h
    have hreach : a.shardReach = 0 := by
      by_contra hpos
      have hsome := isSome_of_lt_reach (Nat.pos_of_ne_zero hpos)
      rw [h.firstShard] at hsome
      cases hsome
    rw [dropped_eq, hreach]
    cases a
    obtain ⟨rfl, rfl, rfl, rfl, -, rfl, rfl, rfl, rfl⟩ := h
    simp [Artifacts.empty]

theorem handleDrop_disk (cfg : Config) (d : Daemon) (key : Key) :
    (handleDrop cfg d key).final.disk = d.disk.modify cfg.indexDir key Artifacts.dropped :=
  rfl

end PgCuvs
