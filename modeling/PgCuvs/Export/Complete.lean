import PgCuvs.Export.Source
import PgCuvs.Library.Run

/-! Which rows the HNSW index built from a source has an element for, over the histories of
the table. -/

namespace PgCuvs

open Run

variable {ρ : Type*} {D : IndexDef ρ Vec}

namespace SourceTable

variable {s : SourceTable ρ} {v w : ℕ} {r r' : RowVersion ρ}

def Indexes (D : IndexDef ρ Vec) (s : SourceTable ρ) (v : ℕ) : Prop :=
  ∃ r : RowVersion ρ, s.versions[v]? = some r ∧ (D.value r.row).isSome

/-- A version that the source covers is in exactly one of the places: the graph, the delta,
nowhere. -/
structure Inv (D : IndexDef ρ Vec) (s : SourceTable ρ) : Prop where
  base : ∀ v ∈ s.base, s.Indexes D v
  stored : ∀ v ∈ s.stored, s.Indexes D v
  bound : ∀ v, v ∈ s.delta ∨ v ∈ s.missed → v < s.versions.length
  placed : ∀ v r, s.versions[v]? = some r → r.status ≠ .dead → (D.value r.row).isSome →
    v ∈ s.base ∨ v ∈ s.delta ∨ v ∈ s.missed
  apart : ∀ v ∈ s.base, v ∉ s.delta ∧ v ∉ s.missed
  storedApart : ∀ v ∈ s.stored, v ∉ s.delta

section Steps

theorem inv_start : Inv D (start : SourceTable ρ) where
  base _ h := nomatch h
  stored _ h := nomatch h
  bound _ h := h.elim nofun nofun
  placed _ _ h := nomatch h
  apart _ h := nomatch h
  storedApart _ h := nomatch h

theorem base_some {rows : List ℕ} (hres : s.resident = some rows) : s.base = rows := by
  rw [base, hres, Option.getD_some]

theorem base_none (hres : s.resident = none) : s.base = s.stored := by
  rw [base, hres, Option.getD_none]

theorem Indexes.lt (h : s.Indexes D v) : v < s.versions.length := by
  obtain ⟨r, hr, -⟩ := h
  exact (List.getElem?_eq_some_iff.mp hr).1

theorem setStatus_get {f : RowStatus → RowStatus} (h : (s.setStatus v f).versions[w]? = some r) :
    ∃ r0 : RowVersion ρ, s.versions[w]? = some r0 ∧ r0.row = r.row ∧
      (r.status = r0.status ∨ r.status = f r0.status) := by
  rw [setStatus, List.getElem?_modify] at h
  obtain ⟨r0, hr0, heq⟩ := Option.map_eq_some_iff.mp h
  refine ⟨r0, hr0, ?_, ?_⟩
  · rw [← heq]
    split_ifs <;> rfl
  · rw [← heq]
    split_ifs
    · exact .inr rfl
    · exact .inl rfl

theorem Indexes.setStatus {f : RowStatus → RowStatus} (h : s.Indexes D w) :
    (s.setStatus v f).Indexes D w := by
  obtain ⟨r, hr, hval⟩ := h
  refine ⟨if v = w then { r with status := f r.status } else r, ?_, ?_⟩
  · rw [SourceTable.setStatus, List.getElem?_modify, hr]
    rfl
  · split_ifs <;> exact hval

theorem Inv.setStatus (h : s.Inv D) {f : RowStatus → RowStatus}
    (hf : ∀ x, f x ≠ .dead → x ≠ .dead) : (s.setStatus v f).Inv D where
  base w hw := (h.base w hw).setStatus
  stored w hw := (h.stored w hw).setStatus
  bound w hw := by
    rw [SourceTable.setStatus, List.length_modify]
    exact h.bound w hw
  placed w r hr hlive hval := by
    obtain ⟨r0, hr0, hrow, hstatus⟩ := setStatus_get hr
    refine h.placed w r0 hr0 ?_ (hrow ▸ hval)
    rcases hstatus with heq | heq
    · exact heq ▸ hlive
    · exact hf _ (heq ▸ hlive)
  apart := h.apart
  storedApart := h.storedApart

def written (s : SourceTable ρ) (r : RowVersion ρ) : SourceTable ρ :=
  { s with versions := s.versions ++ [r] }

theorem written_get (h : (s.written r).versions[w]? = some r') :
    s.versions[w]? = some r' ∨ (w = s.versions.length ∧ r' = r) := by
  rcases Nat.lt_or_ge w s.versions.length with hlt | hge
  · exact .inl ((List.getElem?_append_left hlt).symm.trans h)
  · have hlen := (List.getElem?_eq_some_iff.mp h).1
    rw [written, List.length_append, List.length_singleton] at hlen
    have hw : w = s.versions.length := Nat.le_antisymm (Nat.lt_succ_iff.mp hlen) hge
    subst hw
    rw [written, List.getElem?_concat_length] at h
    exact .inr ⟨rfl, (Option.some.inj h).symm⟩

theorem Indexes.written (h : s.Indexes D w) : (s.written r).Indexes D w := by
  obtain ⟨r', hr', hval⟩ := h
  exact ⟨r', (List.getElem?_append_left (List.getElem?_eq_some_iff.mp hr').1).trans hr', hval⟩

inductive Placed (s s' : SourceTable ρ) (n : ℕ) : Prop where
  | resident : s'.base = s.base ++ [n] → s'.delta = s.delta → s'.missed = s.missed →
      Placed s s' n
  | delta : s'.base = s.base → s'.delta = s.delta ++ [n] → s'.missed = s.missed → Placed s s' n
  | missed : s'.base = s.base → s'.delta = s.delta → s'.missed = s.missed ++ [n] → Placed s s' n

theorem aminsert_placed (s : SourceTable ρ) (n : ℕ) (deltaOff extended appended marked : Bool) :
    (s.aminsert n deltaOff extended appended marked).versions = s.versions ∧
      (s.aminsert n deltaOff extended appended marked).stored = s.stored ∧
      Placed s (s.aminsert n deltaOff extended appended marked) n := by
  unfold aminsert
  rcases hres : s.resident with _ | rows
  · dsimp only
    split_ifs
    · exact ⟨rfl, rfl, .missed (by rw [base, base, hres]) rfl rfl⟩
    · exact ⟨rfl, rfl, .missed (by rw [base, base, hres]) rfl rfl⟩
    · exact ⟨rfl, rfl, .delta (by rw [base, base, hres]) rfl rfl⟩
    · exact ⟨rfl, rfl, .missed (by rw [base, base, hres]) rfl rfl⟩
  · dsimp only
    split_ifs
    · exact ⟨rfl, rfl, .missed (by rw [base, base, hres]) rfl rfl⟩
    · exact ⟨rfl, rfl, .missed (by rw [base, base, hres]) rfl rfl⟩
    · exact ⟨rfl, rfl, .resident (by rw [base_some hres]; rfl) rfl rfl⟩
    · exact ⟨rfl, rfl, .delta (by rw [base, base, hres]) rfl rfl⟩
    · exact ⟨rfl, rfl, .missed (by rw [base, base, hres]) rfl rfl⟩

theorem Inv.written (h : s.Inv D) (hnone : ¬ (D.value r.row).isSome) : (s.written r).Inv D where
  base w hw := (h.base w hw).written
  stored w hw := (h.stored w hw).written
  bound w hw := by
    have hlt := h.bound w hw
    rw [SourceTable.written, List.length_append]
    exact Nat.lt_add_right _ hlt
  placed w r' hr' hlive hval := by
    rcases written_get hr' with hold | ⟨-, rfl⟩
    · exact h.placed w r' hold hlive hval
    · exact absurd hval hnone
  apart := h.apart
  storedApart := h.storedApart

theorem Inv.place (h : s.Inv D) {s' : SourceTable ρ} (hversions : s'.versions = s.versions ++ [r])
    (hstored : s'.stored = s.stored) (hplaced : s.Placed s' s.versions.length)
    (hval : (D.value r.row).isSome) : s'.Inv D := by
  have hnew : s'.Indexes D s.versions.length :=
    ⟨r, by rw [hversions, List.getElem?_concat_length], hval⟩
  have hold : ∀ w, s.Indexes D w → s'.Indexes D w := fun w hw => by
    obtain ⟨r', hr', hval'⟩ := hw.written (r := r)
    exact ⟨r', by rw [hversions]; exact hr', hval'⟩
  have hlen : s'.versions.length = s.versions.length + 1 := by
    rw [hversions, List.length_append, List.length_singleton]
  have hlt : ∀ w ∈ s.base, w ≠ s.versions.length := fun w hw => Nat.ne_of_lt (h.base w hw).lt
  have hbound : ∀ w, w ∈ s.delta ∨ w ∈ s.missed → w ≠ s.versions.length :=
    fun w hw => Nat.ne_of_lt (h.bound w hw)
  have hsplit : ∀ w r', s'.versions[w]? = some r' →
      s.versions[w]? = some r' ∨ (w = s.versions.length ∧ r' = r) := fun w r' hr' =>
    written_get (by rw [SourceTable.written, ← hversions]; exact hr')
  have hstoredApart : ∀ w ∈ s'.stored, w ∉ s.delta ∧ w ≠ s.versions.length := fun w hw =>
    ⟨h.storedApart w (hstored ▸ hw), Nat.ne_of_lt (h.stored w (hstored ▸ hw)).lt⟩
  have hplacedOld : ∀ w r', s.versions[w]? = some r' → r'.status ≠ .dead →
      (D.value r'.row).isSome → w ∈ s.base ∨ w ∈ s.delta ∨ w ∈ s.missed := h.placed
  have hapart := h.apart
  rcases hplaced with ⟨hb, hd, hm⟩ | ⟨hb, hd, hm⟩ | ⟨hb, hd, hm⟩
  all_goals
    constructor
    case stored => exact fun w hw => hold w (h.stored w (hstored ▸ hw))
    case base =>
      simp only [hb, List.mem_append, List.mem_singleton]
      grind [h.base]
    case bound =>
      simp only [hlen, hd, hm, List.mem_append, List.mem_singleton]
      grind [h.bound]
    case placed =>
      simp only [hb, hd, hm, List.mem_append, List.mem_singleton]
      grind
    case apart =>
      simp only [hb, hd, hm, List.mem_append, List.mem_singleton]
      grind
    case storedApart =>
      simp only [hd, List.mem_append, List.mem_singleton]
      grind

theorem Inv.insert (h : s.Inv D) (tid : Tid) (row : ρ) (deltaOff extended appended marked : Bool) :
    (step D s (.insert tid row deltaOff extended appended marked)).Inv D := by
  change (if (D.value row).isSome then
      (s.written ⟨tid, row, .inserting⟩).aminsert s.versions.length deltaOff extended appended marked
    else s.written ⟨tid, row, .inserting⟩).Inv D
  split_ifs with hval
  · obtain ⟨hversions, hstored, hplaced⟩ := aminsert_placed (s.written ⟨tid, row, .inserting⟩)
      s.versions.length deltaOff extended appended marked
    refine h.place hversions hstored ?_ hval
    rcases hplaced with ⟨hb, hd, hm⟩ | ⟨hb, hd, hm⟩ | ⟨hb, hd, hm⟩
    · exact .resident hb hd hm
    · exact .delta hb hd hm
    · exact .missed hb hd hm
  · exact h.written hval

theorem Inv.compact (h : s.Inv D) (deadTids : List Tid) (saved : Bool) :
    (step D s (.compact deadTids saved)).Inv D := by
  rcases hres : s.resident with _ | rows
  · simp only [step, hres]
    exact h
  simp only [step, hres]
  by_cases hshard : s.sharded
  · rw [if_pos hshard]
    exact h
  rw [if_neg hshard]
  have hbase : s.base = rows := base_some hres
  have hsub : ∀ v ∈ s.kept deadTids rows, v ∈ s.base := fun v hv =>
    hbase ▸ (List.mem_filter.mp hv).1
  constructor
  case base => exact fun v hv => h.base v (hsub v hv)
  case stored =>
    intro v hv
    change v ∈ (if saved then s.kept deadTids rows else s.stored) at hv
    split_ifs at hv
    · exact h.base v (hsub v hv)
    · exact h.stored v hv
  case bound =>
    rintro v (hv | hv)
    · exact h.bound v (.inl hv)
    · rcases List.mem_append.mp hv with hv | hv
      · exact h.bound v (.inr hv)
      · exact (h.base v (hbase ▸ (List.mem_filter.mp hv).1)).lt
  -- a dropped row that is still visible goes to the missed ones
  case placed =>
    intro v r hr hlive hval
    rcases h.placed v r hr hlive hval with hv | hv | hv
    · by_cases hkeep : v ∈ s.kept deadTids rows
      · exact .inl hkeep
      · exact .inr (.inr (List.mem_append_right _
          (List.mem_filter.mpr ⟨hbase ▸ hv, decide_eq_true hkeep⟩)))
    · exact .inr (.inl hv)
    · exact .inr (.inr (List.mem_append_left _ hv))
  case apart =>
    intro v hv
    obtain ⟨hdelta, hmissed⟩ := h.apart v (hsub v hv)
    refine ⟨hdelta, fun hmem => ?_⟩
    rcases List.mem_append.mp hmem with hmem | hmem
    · exact hmissed hmem
    · exact of_decide_eq_true (List.mem_filter.mp hmem).2 hv
  case storedApart =>
    intro v hv
    change v ∈ (if saved then s.kept deadTids rows else s.stored) at hv
    split_ifs at hv
    · exact (h.apart v (hsub v hv)).1
    · exact h.storedApart v hv

theorem mem_scan : v ∈ s.scan D ↔
    ∃ r : RowVersion ρ, s.versions[v]? = some r ∧ r.status ≠ .dead ∧ (D.value r.row).isSome := by
  rw [scan, List.mem_filter, List.mem_range]
  constructor
  · rintro ⟨-, hany⟩
    obtain ⟨r, hr, hcond⟩ := (Option.any_eq_true _ _).mp hany
    exact ⟨r, hr, of_decide_eq_true hcond⟩
  · rintro ⟨r, hr, hcond⟩
    exact ⟨(List.getElem?_eq_some_iff.mp hr).1, by rw [hr]; exact decide_eq_true hcond⟩

theorem Inv.build (h : s.Inv D) (sharded registered : Bool) :
    (step D s (.build sharded registered)).Inv D := by
  simp only [step]
  split_ifs with hempty hreg
  · exact h
  all_goals
    have hscan : ∀ v ∈ s.scan D, s.Indexes D v := fun v hv => by
      obtain ⟨r, hr, -, hval⟩ := mem_scan.mp hv
      exact ⟨r, hr, hval⟩
    exact
      { base := hscan
        stored := hscan
        bound := fun v hv => hv.elim nofun nofun
        placed := fun v r hr hlive hval => .inl (mem_scan.mpr ⟨r, hr, hlive, hval⟩)
        apart := fun v _ => ⟨List.not_mem_nil, List.not_mem_nil⟩
        storedApart := fun v _ => List.not_mem_nil }

theorem Inv.unload (h : s.Inv D) (saved : Bool) : (step D s (.unload saved)).Inv D := by
  rcases hres : s.resident with _ | rows
  · simp only [step, hres]
    exact h
  have hbase : s.base = rows := base_some hres
  simp only [step, hres]
  split_ifs
  · exact
      { base := fun v hv => h.base v (hbase ▸ hv)
        stored := fun v hv => h.base v (hbase ▸ hv)
        bound := h.bound
        placed := fun v r hr hlive hval => by
          rw [← hbase]
          exact h.placed v r hr hlive hval
        apart := fun v hv => h.apart v (hbase ▸ hv)
        storedApart := fun v hv => (h.apart v (hbase ▸ hv)).1 }
  constructor
  case base => exact h.stored
  case stored => exact h.stored
  case bound =>
    rintro v (hv | hv)
    · exact h.bound v (.inl hv)
    · rcases List.mem_append.mp (List.mem_filter.mp hv).1 with hv | hv
      · exact h.bound v (.inr hv)
      · exact (h.base v (hbase ▸ hv)).lt
  case placed =>
    intro v r hr hlive hval
    by_cases hstored : v ∈ s.stored
    · exact .inl hstored
    rcases h.placed v r hr hlive hval with hv | hv | hv
    · exact .inr (.inr (List.mem_filter.mpr
        ⟨List.mem_append_right _ (hbase ▸ hv), decide_eq_true hstored⟩))
    · exact .inr (.inl hv)
    · exact .inr (.inr (List.mem_filter.mpr
        ⟨List.mem_append_left _ hv, decide_eq_true hstored⟩))
  case apart =>
    intro v hv
    refine ⟨h.storedApart v hv, fun hmem => ?_⟩
    exact of_decide_eq_true (List.mem_filter.mp hmem).2 hv
  case storedApart => exact h.storedApart

theorem Inv.load (h : s.Inv D) : (step D s .load).Inv D := by
  rcases hres : s.resident with _ | rows
  · simp only [step, hres]
    split_ifs
    · exact h
    have hbase : s.base = s.stored := base_none hres
    exact
      { base := h.stored
        stored := h.stored
        bound := h.bound
        placed := fun v r hr hlive hval => by
          rw [base_some rfl, ← hbase]
          exact h.placed v r hr hlive hval
        apart := fun v hv => h.apart v (hbase ▸ hv)
        storedApart := h.storedApart }
  · simp only [step, hres]
    exact h

theorem Inv.step (h : s.Inv D) (e : SourceEvent ρ) : (s.step D e).Inv D := by
  cases e with
  | insert tid row deltaOff extended appended marked => exact h.insert tid row deltaOff extended appended marked
  | commit v =>
    refine Inv.setStatus h (f := fun x => if x = .inserting then .committed else x) fun x hx => ?_
    rintro rfl
    exact hx rfl
  | remove v => exact Inv.setStatus h (f := fun _ => .dead) fun x hx => absurd rfl hx
  | bulkdelete recorded marked => exact ⟨h.base, h.stored, h.bound, h.placed, h.apart, h.storedApart⟩
  | compact deadTids saved => exact h.compact deadTids saved
  | build sharded registered => exact h.build sharded registered
  | unload saved => exact h.unload saved
  | load => exact h.load

theorem inv_run (events : List (SourceEvent ρ)) : (run (SourceTable.step D) start events).Inv D :=
  run_invariant (Inv D) (C := fun _ _ => True) (fun _ e h _ => h.step e) inv_start
    (along_of_forall (fun _ _ => trivial) _)

end Steps

end SourceTable

section Elements

variable {ops : FloatOps} {x : AdjacencyExport} {width : ElemWidth} {doHierarchy : Bool}
  {draw : ℕ → ℕ} {pages : List Page}

theorem fillPages_fits {g : LinkedGraph} (h : fillPages x width doHierarchy g = .ok pages) :
    pairBytes x.dim width x.m g.maxLevel ≤ pgvUsableBytes := by
  rw [← checkHnswPageFit_ok x.dim_pos]
  cases hcheck : checkHnswPageFit x.dim width x.m g.maxLevel with
  | ok _ => rfl
  | error err =>
    rw [fillPages, hcheck] at h
    cases h

theorem fillHnswFromCagraIpc_element
    (h : fillHnswFromCagraIpc ops x width doHierarchy draw = some (.ok pages)) {i : ℕ} {tid : Tid}
    (htid : x.tids[i]? = some tid) :
    ∃ e, decodeElem x.dim width x.m pages (x.position width doHierarchy i) = some e ∧
      e.tid = tid ∧ e.vec = width.store (x.vec i) := by
  obtain ⟨g, hg, hpages⟩ := Option.map_eq_some_iff.mp h
  obtain ⟨hlen, hmax, -, hfields⟩ := fillLinks_some hg
  have hfit := fillPages_fits hpages
  rw [hmax] at hfit
  obtain ⟨metap, blocks, hfill, -, -, hdecode⟩ := fillHnswFromCagraIpc_decode hg hfit
  obtain rfl : pages = metaPage metap :: blocks := by
    rw [h] at hfill
    exact Except.ok.inj (Option.some.inj hfill)
  have hi : i < x.n := x.tids_length ▸ (List.getElem?_eq_some_iff.mp htid).1
  obtain ⟨elem, helem⟩ : ∃ elem, g.elems[i]? = some elem :=
    ⟨_, List.getElem?_eq_getElem (hlen ▸ hi)⟩
  refine ⟨_, hdecode i elem helem, ?_, rfl⟩
  exact Option.some.inj ((hfields i elem helem).1.symm.trans htid)

/-- A build that succeeds got its graph from a resident, unsharded source. -/
theorem hnswAmbuild_ok {s : SourceTable ρ} {src : CagraSource} {tgt : HnswTarget} {metric : Metric}
    {extracted : Option AdjacencyExport}
    (h : hnswAmbuild ops src tgt (handleExportAdjacency s metric extracted) draw
      = some (.ok pages)) :
    ∃ rows x, s.resident = some rows ∧ extracted = some x ∧
      fillHnswFromCagraIpc ops x tgt.width tgt.doHierarchy draw = some (.ok pages) := by
  unfold hnswAmbuild handleExportAdjacency at h
  rcases hchecks : hnswChecks src tgt with err | ok
  · rw [hchecks] at h
    exact nomatch Option.some.inj h
  rw [hchecks] at h
  rcases hres : s.resident with _ | rows
  · rw [hres] at h
    exact nomatch Option.some.inj h
  rw [hres] at h
  dsimp only at h
  split_ifs at h with hshard
  · exact nomatch Option.some.inj h
  rcases extracted with _ | x
  · exact nomatch Option.some.inj h
  dsimp only at h
  split_ifs at h with hmetric
  · exact nomatch Option.some.inj h
  · exact ⟨rows, x, rfl, rfl, h⟩

end Elements

section Conversion

namespace SourceTable

variable (s : SourceTable ρ) (T : IndexDef ρ (List ℕ)) (x : AdjacencyExport) (tgt : HnswTarget)
  (pages : List Page)

def HasElement (v : ℕ) (tid : Tid) (vec : List ℕ) : Prop :=
  ∃ i e, s.base[i]? = some v ∧
    decodeElem x.dim tgt.width x.m pages (x.position tgt.width tgt.doHierarchy i) = some e ∧
    e.tid = tid ∧ e.vec = vec

/-- Every committed row that the new index covers has its element. -/
def Complete : Prop :=
  ∀ (v : ℕ) (r : RowVersion ρ) (vec : List ℕ), s.versions[v]? = some r → r.status = .committed →
    T.value r.row = some vec → s.HasElement x tgt pages v r.tid vec

/-- Every element has the TID of a row that the source has indexed. -/
def NoForeign (D : IndexDef ρ Vec) : Prop :=
  ∀ i < x.n, ∃ (e : DecodedElem) (v : ℕ) (r : RowVersion ρ),
    decodeElem x.dim tgt.width x.m pages (x.position tgt.width tgt.doHierarchy i) = some e ∧
      s.versions[v]? = some r ∧ (D.value r.row).isSome ∧ e.tid = r.tid

/-- The source alone has what the new index needs. -/
def Provides (D : IndexDef ρ Vec) (width : ElemWidth) : Prop :=
  ∀ (v : ℕ) (r : RowVersion ρ) (vec : List ℕ), s.versions[v]? = some r → r.status = .committed →
    T.value r.row = some vec →
    (D.value r.row).map width.store = some vec ∧ v ∉ s.delta ∧ v ∉ s.missed

variable {s T x tgt pages} {ops : FloatOps} {draw : ℕ → ℕ}

theorem Exports.element {v i : ℕ} {r : RowVersion ρ} (hexports : s.Exports D s.base x)
    (hfill : fillHnswFromCagraIpc ops x tgt.width tgt.doHierarchy draw = some (.ok pages))
    (hi : s.base[i]? = some v) (hr : s.versions[v]? = some r) :
    D.value r.row = some (x.vec i) ∧
      ∃ e, decodeElem x.dim tgt.width x.m pages (x.position tgt.width tgt.doHierarchy i)
          = some e ∧ e.tid = r.tid ∧ e.vec = tgt.width.store (x.vec i) := by
  obtain ⟨htid, hvec⟩ := hexports.item i v r hi hr
  exact ⟨hvec, fillHnswFromCagraIpc_element hfill htid⟩

theorem Inv.complete_iff (hinv : s.Inv D) (hexports : s.Exports D s.base x)
    (hfill : fillHnswFromCagraIpc ops x tgt.width tgt.doHierarchy draw = some (.ok pages)) :
    s.Complete T x tgt pages ↔ s.Provides T D tgt.width := by
  constructor
  · intro hcomplete v r vec hr hcommitted hvalue
    obtain ⟨i, e, hi, he, -, hvec⟩ := hcomplete v r vec hr hcommitted hvalue
    obtain ⟨hD, e', he', -, hvec'⟩ := hexports.element hfill hi hr
    obtain rfl : e = e' := Option.some.inj (he.symm.trans he')
    refine ⟨?_, hinv.apart v (List.mem_of_getElem? hi)⟩
    rw [hD, Option.map_some, ← hvec', hvec]
  · intro hprovides v r vec hr hcommitted hvalue
    obtain ⟨hD, hdelta, hmissed⟩ := hprovides v r vec hr hcommitted hvalue
    obtain ⟨key, hkey, hstore⟩ := Option.map_eq_some_iff.mp hD
    have hlive : r.status ≠ .dead := by
      rw [hcommitted]
      decide
    have hbase : v ∈ s.base := by
      rcases hinv.placed v r hr hlive (by rw [hkey]; rfl) with hv | hv | hv
      · exact hv
      · exact absurd hv hdelta
      · exact absurd hv hmissed
    obtain ⟨i, hi⟩ := List.mem_iff_getElem?.mp hbase
    obtain ⟨hDi, e, he, htid, hvec⟩ := hexports.element hfill hi hr
    obtain rfl : key = x.vec i := Option.some.inj (hkey.symm.trans hDi)
    exact ⟨i, e, hi, he, htid, hvec.trans hstore⟩

theorem Inv.noForeign (hinv : s.Inv D) (hexports : s.Exports D s.base x)
    (hfill : fillHnswFromCagraIpc ops x tgt.width tgt.doHierarchy draw = some (.ok pages)) :
    s.NoForeign x tgt pages D := by
  intro i hi
  obtain ⟨v, hv⟩ : ∃ v, s.base[i]? = some v := ⟨_, List.getElem?_eq_getElem (hexports.count ▸ hi)⟩
  obtain ⟨r, hr, hval⟩ := hinv.base v (List.mem_of_getElem? hv)
  obtain ⟨-, e, he, htid, -⟩ := hexports.element hfill hv hr
  exact ⟨e, v, r, he, hr, hval, htid⟩

end SourceTable

section Sample

def sampleDef : IndexDef Vec Vec := ⟨fun _ => true, some⟩

def sampleTargetDef : IndexDef Vec (List ℕ) :=
  ⟨fun _ => true, fun v => some (ElemWidth.vector.store v)⟩

def sampleCagra : CagraSource := ⟨"c", 20, some 10, true, 1, 2, .l2⟩

def sampleTarget : HnswTarget := ⟨"h", 10, 1, .vector, .l2, false⟩

def sampleHistory : List (SourceEvent Vec) :=
  [.insert 65537 [0] false false true true, .insert 65538 [1] false false true true,
    .insert 65539 [2] false false true true, .commit 0, .commit 1, .commit 2, .build false true]

def sampleInsert : List (SourceEvent Vec) := [.insert 65540 [3] false false true true, .commit 3]

theorem sampleExport_exports {s : SourceTable Vec}
    (hversions : s.versions.take 3 = [⟨65537, [0], .committed⟩, ⟨65538, [1], .committed⟩,
      ⟨65539, [2], .committed⟩]) :
    s.Exports sampleDef [0, 1, 2] sampleExport where
  count := rfl
  item i v r hi hr := by
    have hlt : i < 3 := (List.getElem?_eq_some_iff.mp hi).1
    have hv : v = i := by
      match i, hlt with
      | 0, _ => exact (Option.some.inj hi).symm
      | 1, _ => exact (Option.some.inj hi).symm
      | 2, _ => exact (Option.some.inj hi).symm
    subst hv
    rw [← List.getElem?_take_of_lt hlt, hversions] at hr
    match v, hlt with
    | 0, _ => exact Option.some.inj hr ▸ ⟨rfl, rfl⟩
    | 1, _ => exact Option.some.inj hr ▸ ⟨rfl, rfl⟩
    | 2, _ => exact Option.some.inj hr ▸ ⟨rfl, rfl⟩

theorem hnswAmbuild_of_fill {s : SourceTable Vec} (hres : s.resident = some [0, 1, 2])
    (hshard : s.sharded = false) :
    ∃ pages, hnswAmbuild sampleOps sampleCagra sampleTarget
      (handleExportAdjacency s .l2 (some sampleExport)) (fun _ => 0) = some (.ok pages) := by
  obtain ⟨g, hg⟩ : ∃ g, fillLinks sampleOps sampleExport false (fun _ => 0) = some g :=
    fillLinks_flat
  have hfit : pairBytes sampleExport.dim .vector sampleExport.m
      (sampleExport.maxLevel false fun _ => 0) ≤ pgvUsableBytes := by
    rw [AdjacencyExport.maxLevel_flat]
    decide
  obtain ⟨metap, pages, hfill, -⟩ := fillHnswFromCagraIpc_decode hg hfit
  have hchecks : hnswChecks sampleCagra sampleTarget = .ok () := by
    have hpage : checkHnswPageFit 1 .vector 1 0 = .ok () :=
      (checkHnswPageFit_ok (by decide)).mpr (by decide)
    change (do checkHnswPageFit 1 .vector 1 0; _) = _
    rw [hpage]
    rfl
  have hreply : handleExportAdjacency s .l2 (some sampleExport) = .ok (sampleExport, .l2) := by
    simp [handleExportAdjacency, hres, hshard]
  refine ⟨metaPage metap :: pages, ?_⟩
  unfold hnswAmbuild
  rw [hchecks, hreply]
  exact hfill

end Sample

end Conversion

end PgCuvs
