import PgCuvs.Search.FilterExact
import PgCuvs.Search.Handle
import PgCuvs.Search.Whitelist

/-! The streaming search: the whitelisted rows are read from `.vectors` in chunks that fit the
device, and no cache is filled. -/

namespace PgCuvs

open Selection

variable {D : Type}

/-- Find the entry of an index, loading it on a miss; nothing is counted. -/
def streamResolve (cfg : Config) (env : Env) (d : Daemon) (key : Key) :
    Daemon × Option (ℕ × IndexEntry) :=
  match findIndex d.live key with
  | some i => (d, d.live[i]?.map fun e => (i, e))
  | none =>
    match loadIndex cfg env d key with
    | (d, .loaded) =>
      (d, (findIndex d.live key).bind fun i => d.live[i]?.map fun e => (i, e))
    | (d, _) => (d, none)

/-- A count as an `int`; a negative one reads as 0. -/
def intCount (n : ℕ) : ℕ := (Int32.ofNat n).toInt.toNat

theorem intCount_of_le {n : ℕ} (h : n ≤ int32Max) : intCount n = n := by
  have hlt : n < 2 ^ 31 := by
    rw [int32Max] at h
    omega
  rw [intCount, Int32.toInt_ofNat_of_lt hlt, Int.toNat_natCast]

section Stream

variable [LT D] [DecidableLT D]

/-- The part behind the lookup. The reply of a stream that has no rows is OK. -/
def streamEntry (cfg : Config) (env : Env) (senv : SearchEnv) (kern : Kernels D) (d : Daemon)
    (i : ℕ) (e : IndexEntry) (frame : SearchFrame) : Daemon × SearchReply D :=
  let e := { e with lastSearch := env.now }
  let d := d.setEntry i e
  let record (status : Status) (error : String) : Daemon × SearchReply D :=
    (d.setEntry i (recordSearchStat env.now e status 0 (some error)),
      .failure status error)
  if e.stale then record .stale "index stale (writes since build)"
  else if e.revTids.isNone ∨ e.revItemIds.isNone ∨ e.nVecs = 0 then (d, .failure .noVectors "")
  else if frame.metric ≠ e.metric then (d, .failure .metricMismatch "")
  else if frame.dim ≠ e.dim then (d, .failure .dimMismatch "")
  else
    match senv.query with
    | .error fault => (d, .failure .error fault.message)
    | .ok query =>
      let filter := if 0 < frame.nFilterTids then mapFilter senv frame else none
      if cuvsFilterFrameRefuses frame.nFilterTids filter.isSome then (d, .failure .noVectors "")
      else
        match searchFilterExact kern (d.disk cfg.indexDir e.key) e query
            (cuvsU64Sort (filter.getD [])) (max 1 (intCount frame.k)) (intCount frame.nVecs) with
        | .error .error => record .error "stream_bf failed"
        | .error status => (d, .failure status "")
        | .ok top => recordAnswer env senv d i e frame.k .bfExact top false

def handleSearchStreamBf (cfg : Config) (env : Env) (senv : SearchEnv) (kern : Kernels D)
    (d : Daemon) (frame : SearchFrame) : Daemon × SearchReply D :=
  match streamResolve cfg env d frame.key with
  | (d, none) => (d, .failure .notFound "")
  | (d, some (i, e)) => streamEntry cfg env senv kern d i e frame

end Stream

section Exact

variable [LinearOrder D] {cfg : Config} {env : Env} {senv : SearchEnv} {kern : Kernels D}
  {d : Daemon} {i : ℕ} {e : IndexEntry} {frame : SearchFrame} {query : Vec} {dist : Vec → D}
  {rows : List Vec} {tids : List Tid}

/-- Whatever the size of the chunks, a stream over an entry with its rows on disk finds the nearest
of the whitelisted ones. -/
theorem streamEntry_exact (M : MappedRows e rows) (V : VectorsMatch (d.disk cfg.indexDir e.key) e rows)
    (K : ExactBruteForce kern e.metric query dist (deltaGpuOf e)) (hip : e.metric ≠ .ip)
    (hstale : e.stale = false) (hmetric : frame.metric = e.metric) (hdim : frame.dim = e.dim)
    (hquery : senv.query = .ok query) (hcount : 0 < frame.nFilterTids)
    (htids : mapFilter senv frame = some tids) (hk : frame.k ≤ int32Max) :
    let r := (streamEntry cfg env senv kern d i e frame).2
    r.status = .ok ∧ r.deltaMerged = false ∧
      IsNearest e.metric.Nearer CuvsResult.distance (max 1 frame.k)
        (whitelisted tids (candidates dist e.tids rows)) r.results := by
  obtain ⟨revTids, revItemIds, hrevTids, hrevItems, -⟩ := M.map
  obtain ⟨out, hout, hnear⟩ := searchFilterExact_isNearest (k := max 1 frame.k) M V K
    (Nat.le_max_left 1 _) (cuvsU64Sort_sorted tids) hip (intCount frame.nVecs)
  rw [whitelisted_sort] at hnear
  have hsearch : searchFilterExact kern
      ((d.setEntry i { e with lastSearch := env.now }).disk cfg.indexDir e.key)
      { e with lastSearch := env.now } query (cuvsU64Sort tids) (max 1 (intCount frame.k))
      (intCount frame.nVecs) = .ok out := by
    rw [intCount_of_le hk]
    exact hout
  have hready : ¬(e.revTids.isNone = true ∨ e.revItemIds.isNone = true ∨ e.nVecs = 0) := by
    have hpos := M.pos
    rw [hrevTids, hrevItems]
    simp only [Option.isNone_some, Bool.false_eq_true, false_or]
    omega
  have hreply : (streamEntry cfg env senv kern d i e frame).2 =
      (recordAnswer env senv (d.setEntry i { e with lastSearch := env.now }) i
        { e with lastSearch := env.now } frame.k .bfExact out false).2 := by
    dsimp only [streamEntry]
    rw [if_neg (by rw [hstale]; exact Bool.false_ne_true), if_neg hready,
      if_neg (not_not.mpr hmetric), if_neg (not_not.mpr hdim), hquery]
    dsimp only
    rw [if_pos hcount, htids, cuvsFilterFrameRefuses, Option.isSome_some, Bool.not_true,
      Bool.and_false, if_neg Bool.false_ne_true, Option.getD_some, hsearch]
  intro r
  show r.status = .ok ∧ _
  have hr : r = (streamEntry cfg env senv kern d i e frame).2 := rfl
  rw [hr, hreply]
  exact ⟨rfl, rfl, hnear⟩

end Exact

end PgCuvs
