import PgCuvs.Search.FilterExact
import PgCuvs.Transient.Exact

/-! The scan call after call: it returns the nearest rows that pass the filter, whatever the calls
on the way do, or it fails; and when these rows answer the query. -/

namespace PgCuvs

open Selection

variable {D : Type}

section Fetch

variable {dist : Vec → Vec → D} {view : TableView} {r : TableRow}

theorem TableRow.decode_tid (r : TableRow) :
    cuvsTidDecode r.tid = (r.block.toNat, r.offset.toNat) :=
  cuvsTidDecode_encode r.block.toNat_lt r.offset.toNat_lt

theorem TableView.tid_ne_zero (hr : r ∈ view.rows) : r.tid ≠ 0 := by
  have hoffset := view.offset_pos r hr
  show r.block.toNat * 65536 + r.offset.toNat ≠ 0
  omega

theorem TableView.fetch_tid (hr : r ∈ view.rows) : view.fetch r.tid = some r := by
  rw [TableView.fetch, r.decode_tid]
  have hsame : ∀ s ∈ view.rows, (s.block.toNat, s.offset.toNat) = (r.block.toNat, r.offset.toNat) →
      s = r := by
    intro s hs heq
    obtain ⟨hblock, hoffset⟩ := Prod.mk.inj heq
    refine List.inj_on_of_nodup_map view.tids_nodup hs hr ?_
    rw [TableRow.tid, TableRow.tid, hblock, hoffset]
  cases hfind : view.rows.find?
      fun s => decide ((s.block.toNat, s.offset.toNat) = (r.block.toNat, r.offset.toNat)) with
  | none =>
    have hnone := List.find?_eq_none.mp hfind r hr
    exact absurd (decide_eq_true rfl) hnone
  | some s =>
    have hfound := List.find?_some hfind
    rw [hsame s (List.mem_of_find?_eq_some hfind) (of_decide_eq_true hfound)]

theorem TableView.filterMap_item {view : TableView} {query : Vec} {rows : List TableRow}
    (hrows : ∀ r ∈ rows, r ∈ view.rows) :
    (rows.map (TableRow.result dist query)).filterMap view.item = rows := by
  have hitem : ∀ r ∈ rows, (view.item ∘ TableRow.result dist query) r = some r := by
    intro r hr
    have hzero : (r.result dist query).tid ≠ 0 := view.tid_ne_zero (hrows r hr)
    rw [Function.comp_apply, TableView.item, if_neg hzero]
    exact view.fetch_tid (hrows r hr)
  rw [List.filterMap_map, List.filterMap_congr hitem, List.filterMap_some]

end Fetch

/-! The whole scan, call after call. -/

section Runs

variable [LinearOrder D] {kern : Kernels D} {dist : Metric → Vec → Vec → D} {node : TbfNode D}

/-- The daemon counts the rows in an `int`. -/
def TbfScan.Fits (scan : TbfScan) : Prop := scan.view.qualifying.length < 2 ^ 32

def TableView.Nearest (dist : Vec → Vec → D) (metric : Metric) (k : ℕ) (query : Vec)
    (view : TableView) (rows : List TableRow) : Prop :=
  IsNearest metric.Nearer (fun r => dist query r.vec) k view.qualifying rows

def TbfScan.Nearest (dist : Metric → Vec → Vec → D) (scan : TbfScan) (rows : List TableRow) : Prop :=
  ∃ q, scan.query = some q ∧ scan.view.Nearest (dist scan.metric) scan.metric scan.k q.x rows

theorem cuvsTbfBuild_nearest {scan : TbfScan} (hexact : ExactTransient kern scan.metric (dist scan.metric))
    (hfits : scan.Fits) {io : TbfIpc} {results : List (CuvsResult D)}
    (h : cuvsTbfBuild kern io scan = .ok results) :
    scan.Nearest dist (results.filterMap scan.view.item) := by
  obtain ⟨q, hquery, rows, rfl, hnear⟩ := cuvsTbfBuild_ok hexact hfits h
  have hmem : ∀ r ∈ rows, r ∈ scan.view.rows := fun r hr => List.mem_of_mem_filter (hnear.mem hr)
  rw [TableView.filterMap_item hmem]
  exact ⟨q, hquery, hnear⟩

def TbfEvent.Fits : TbfEvent → Prop := Cursor.Event.Within TbfScan.Fits fun _ => True

/-- What one scan after the other returns. -/
theorem TbfNode.run_nearest (hexact : ∀ metric, ExactTransient kern metric (dist metric))
    {scan : TbfScan} (hfits : scan.Fits) {events : List TbfEvent}
    (hevents : ∀ ev ∈ events, TbfEvent.Fits ev) :
    (Run.run (TbfNode.step kern) (.start scan) events).Answers (TbfScan.Nearest dist) :=
  Cursor.Node.run_answers hfits hevents fun scan _ _ hscan _ h =>
    cuvsTbfBuild_nearest (hexact scan.metric) hscan h

/-- Whatever the calls to the daemon do, row after row the node returns the nearest rows, each
once and in order, and ends behind the last of them, or it fails. -/
theorem TbfNode.run_nearestVectors (kern : Kernels D) (dist : Metric → Vec → Vec → D)
    (hexact : ∀ metric, ExactTransient kern metric (dist metric)) (scan : TbfScan)
    (events : List TbfEvent) (hfits : scan.Fits) (hevents : ∀ ev ∈ events, TbfEvent.Fits ev) :
    (Run.run (TbfNode.step kern) (.start scan) events).Answers (TbfScan.Nearest dist) :=
  run_nearest hexact hfits hevents

end Runs

/-! The nearest rows as the answer to a query. -/

section Query

variable [LinearOrder D] {kern : Kernels D} {dist : Metric → Vec → Vec → D} {scan : TbfScan}
  {rows : List TableRow}

/-- Ascending, NULLs last. -/
def NullsLast (r : D → D → Prop) : Option D → Option D → Prop
  | some a, some b => r a b
  | _, none => True
  | none, some _ => False

def TableView.passing (view : TableView) : List TableRow := view.rows.filter TableRow.qual

/-- `ORDER BY column <-> query LIMIT k` over the rows that pass the filter. -/
def TbfScan.OrderedLimit (dist : Metric → Vec → Vec → D) (scan : TbfScan)
    (rows : List TableRow) : Prop :=
  ∃ q, scan.query = some q ∧
    IsNearest (NullsLast scan.metric.Nearer)
      (fun r => r.value.map fun v => dist scan.metric q.x v.x) scan.k scan.view.passing rows

theorem TableRow.isSome_kept (r : TableRow) : r.kept.isSome = (r.qual && r.value.isSome) := by
  rw [TableRow.kept]
  split_ifs with hqual
  · rw [hqual, Option.isSome_map, Bool.true_and]
  · rw [Bool.eq_false_iff.mpr hqual, Bool.false_and]
    rfl

theorem TableView.qualifying_eq (view : TableView) :
    view.qualifying = view.passing.filter fun r => r.value.isSome := by
  rw [TableView.qualifying, TableView.passing, List.filter_filter]
  refine List.filter_congr fun r _ => ?_
  rw [r.isSome_kept, Bool.and_comm]

theorem TableRow.value_of_isSome {r : TableRow} (h : r.value.isSome = true) :
    ∃ v, r.value = some v ∧ r.vec = v.x := by
  obtain ⟨v, hv⟩ := Option.isSome_iff_exists.mp h
  refine ⟨v, hv, ?_⟩
  rw [TableRow.vec, hv]
  rfl

/-- The nearest rows answer the query unless the limit reaches the NULLs. -/
theorem TbfScan.Nearest.orderedLimit_iff (h : scan.Nearest dist rows) :
    scan.OrderedLimit dist rows ↔
      scan.k ≤ scan.view.qualifying.length ∨ ∀ r ∈ scan.view.passing, r.value.isSome = true := by
  obtain ⟨q, hquery, hnear⟩ := h
  have hqual := scan.view.qualifying_eq
  have hall : scan.view.qualifying.length = scan.view.passing.length ↔
      ∀ r ∈ scan.view.passing, r.value.isSome = true := by
    rw [hqual, List.length_filter_eq_length_iff]
  have hle : scan.view.qualifying.length ≤ scan.view.passing.length := by
    rw [hqual]
    exact List.length_filter_le _ _
  have hvalue : ∀ r ∈ scan.view.qualifying, ∃ v, r.value = some v ∧ r.vec = v.x := by
    intro r hr
    rw [hqual] at hr
    exact r.value_of_isSome (List.mem_filter.mp hr).2
  constructor
  · rintro ⟨q', -, hlimit⟩
    have hlen := hnear.length_eq
    rw [hlimit.length_eq] at hlen
    rw [← hall]
    omega
  · intro hcond
    obtain ⟨S, hS, hbeyond⟩ := hnear.split
    have hmem : ∀ r ∈ rows, ∃ v, r.value = some v ∧ r.vec = v.x :=
      fun r hr => hvalue r (hnear.mem hr)
    -- the scan never returns a row with a NULL vector, and SQL puts those last
    have hlast : ∀ a ∈ rows, ∀ b : TableRow,
        (b.value.isSome = true → scan.metric.Nearer (dist scan.metric q.x a.vec)
          (dist scan.metric q.x b.vec)) →
        NullsLast scan.metric.Nearer (a.value.map fun v => dist scan.metric q.x v.x)
          (b.value.map fun v => dist scan.metric q.x v.x) := by
      intro a ha b hab
      obtain ⟨v, hv, hvec⟩ := hmem a ha
      rw [hv]
      cases hb : b.value with
      | none => exact trivial
      | some w =>
        have hnearer := hab (by rw [hb]; rfl)
        have hbvec : b.vec = w.x := by
          rw [TableRow.vec, hb]
          rfl
        rwa [hvec, hbvec] at hnearer
    refine ⟨q, hquery, ?_, ?_, S ++ scan.view.passing.filter fun r => !r.value.isSome, ?_, ?_⟩
    · have hsorted := hnear.sorted
      exact hsorted.imp_of_mem fun ha _ hab => hlast _ ha _ fun _ => hab
    · rw [hnear.length_eq]
      rw [← hall] at hcond
      omega
    · rw [← List.append_assoc]
      have hparts := List.filter_append_perm (fun r : TableRow => r.value.isSome) scan.view.passing
      rw [← hqual] at hparts
      exact hparts.symm.trans (hS.append_right _)
    · intro a ha b hb
      refine hlast a ha b fun hsome => ?_
      rcases List.mem_append.mp hb with hb | hb
      · exact hbeyond a ha b hb
      · have hnull := (List.mem_filter.mp hb).2
        rw [hsome] at hnull
        cases hnull

/-- What a scan to its end returns is the answer to the query exactly when there are as many
vectors as the limit asks for, or no NULL passes the filter. -/
theorem TbfNode.run_orderedLimit_iff (kern : Kernels D) (dist : Metric → Vec → Vec → D)
    (hexact : ∀ metric, ExactTransient kern metric (dist metric)) (scan : TbfScan)
    (events : List TbfEvent) (hfits : scan.Fits) (hevents : ∀ ev ∈ events, TbfEvent.Fits ev)
    (hended : (Run.run (TbfNode.step kern) (.start scan) events).ended = true) :
    let node := Run.run (TbfNode.step kern) (.start scan) events
    node.params.OrderedLimit dist node.returned ↔
      node.params.k ≤ node.params.view.qualifying.length ∨
        ∀ r ∈ node.params.view.passing, r.value.isSome = true := by
  rcases run_nearest hexact hfits hevents with ⟨-, hrunning⟩ | ⟨rows, hnear, -, hall⟩
  · rw [hended] at hrunning
    cases hrunning
  · rw [← hall hended] at hnear
    exact hnear.orderedLimit_iff

end Query

section Sample

def sampleVector (x : UInt32) : PgVector := ⟨[x], Nat.one_lt_two_pow (Nat.succ_ne_zero 14)⟩

def sampleTable : TableView where
  rows :=
    [⟨0, 1, some (sampleVector 3), true⟩, ⟨0, 2, none, true⟩,
      ⟨7, 1, some (sampleVector 1), true⟩, ⟨7, 2, some (sampleVector 0), false⟩]
  tids_nodup := by decide
  offset_pos := by decide

def sampleTbfScan : TbfScan where
  metric := .l2
  k := 3
  k_pos := Nat.lt_add_left 2 Nat.one_pos
  k_le := Nat.le_add_left 3 99997
  maxMb := 2048
  view := sampleTable
  query := some (sampleVector 0)

def sampleTbfIpc : TbfIpc where
  corpusOpens := true
  queryShm := true
  connects := true
  sends := true
  wait := .arrives
  rowsArrive := true
  server :=
    { cfg := sampleConfig
      env := .quiet 0 4096
      daemon := .initial (fun _ => 0) .fresh
      sock := sampleIncoming false [.bytes 100, .interrupted, .bytes 56]
      corpusShm := ⟨none, false, true⟩
      queryShm := ⟨some 8, true, true⟩
      mallocs := true
      latencyUs := 42 }

def sampleTbfEvents : List TbfEvent := [.exec sampleTbfIpc, .exec sampleTbfIpc, .exec sampleTbfIpc]

theorem sortKernels_transient [LinearOrder D] (dist : Vec → Vec → D) (metric : Metric) :
    ExactTransient (sortKernels .l2 dist) metric dist := by
  intro rows query k device out hk hle hout
  obtain ⟨out', hout', hexact⟩ :=
    sortKernels_bruteForce metric .l2 dist query device rows k hk hle
  rwa [Except.ok.inj (hout.symm.trans hout')]

theorem sampleTbfEvents_fit : ∀ ev ∈ sampleTbfEvents, TbfEvent.Fits ev := by
  intro ev hev
  simp only [sampleTbfEvents, List.mem_cons, List.not_mem_nil, or_false, or_self] at hev
  rw [hev]
  trivial

theorem sampleTbfScan_fits : sampleTbfScan.Fits := by
  show sampleTable.qualifying.length < 2 ^ 32
  decide

/-- The nearest row first, and the NULL never. -/
theorem sampleTbf_answers :
    let node := Run.run (TbfNode.step (sortKernels .l2 ipDist)) (.start sampleTbfScan)
      sampleTbfEvents
    node.returned.map TableRow.tid = [458753, 1] ∧ node.ended = true ∧
      node.Answers (TbfScan.Nearest fun _ => ipDist) := by
  refine ⟨by decide +kernel, by decide +kernel, ?_⟩
  exact TbfNode.run_nearestVectors _ _ (sortKernels_transient ipDist) sampleTbfScan sampleTbfEvents
    sampleTbfScan_fits sampleTbfEvents_fit

theorem sampleTbf_orderedLimit :
    let node := Run.run (TbfNode.step (sortKernels .l2 ipDist)) (.start sampleTbfScan)
      sampleTbfEvents
    node.params.OrderedLimit (fun _ => ipDist) node.returned ↔
      node.params.k ≤ node.params.view.qualifying.length ∨
        ∀ r ∈ node.params.view.passing, r.value.isSome = true :=
  TbfNode.run_orderedLimit_iff _ _ (sortKernels_transient ipDist) sampleTbfScan sampleTbfEvents
    sampleTbfScan_fits sampleTbfEvents_fit (by decide +kernel)

end Sample

end PgCuvs
