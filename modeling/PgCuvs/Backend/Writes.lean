import PgCuvs.Backend.Append
import PgCuvs.Backend.Merge
import PgCuvs.Library.Run

/-! The write path of an index between two builds: a row goes to `.delta`, a dead row of the base
to `.tombstone`, and what cannot be written down marks the index stale. -/

namespace PgCuvs

/-- `cuvs_mark_index_stale`: the second of the marker, when the mark gets to the daemon and the
marker can be created. -/
def cuvsMarkIndexStale (mark : Option ℕ) (a : Artifacts) : Artifacts :=
  match mark with
  | none => a
  | some now => { a with stale := some (a.stale.getD now) }

structure InsertCall where
  /-- the relcache entry of the session -/
  session : ℕ
  maxDeltaRows : ℕ
  tid : Tid
  vec : Option Vec
  metric : Metric
  /-- EXTEND was sent and answered OK -/
  extended : Bool
  now : ℕ
  fault : Option AppendFault
  mark : Option ℕ

/-- The files of an index, and the relcache entries that remember a mark. -/
structure WritePath where
  files : Artifacts
  marked : List ℕ

/-- With the pending rows switched off a session marks the index once. -/
def cuvsAminsert (c : InsertCall) (s : WritePath) : WritePath :=
  match c.vec with
  | none => s
  | some vec =>
    if c.maxDeltaRows = 0 then
      if c.session ∈ s.marked then s
      else ⟨cuvsMarkIndexStale c.mark s.files, c.session :: s.marked⟩
    else if cuvsIndexIsStale s.files then s
    -- the daemon has put the row into its graph
    else if c.extended then s
    else
      let p := cuvsDeltaAppend c.maxDeltaRows c.now c.fault c.tid vec c.metric s.files
      if p.2 then { s with files := p.1 }
      else { s with files := cuvsMarkIndexStale c.mark p.1 }

structure VacuumCall where
  maxDeltaRows : ℕ
  /-- `.tids` can be opened -/
  opens : Bool
  /-- the callback, by block and offset -/
  dead : ℕ × ℕ → Bool
  deleteXid : ℕ
  /-- of the appends, in order -/
  faults : ℕ → Option AppendFault
  mark : Option ℕ
  socketSet : Bool
  compactDeleteRatio : ℚ
  /-- by the earlier bulk deletes of this VACUUM -/
  tuplesRemoved : ℕ

def VacuumCall.callback (c : VacuumCall) (tid : Tid) : Bool := c.dead (cuvsTidDecode tid)

/-- One tombstone after the other; the first that cannot be written ends the loop. -/
def bulkdeleteLoop (c : VacuumCall) : List Tid → ℕ → Artifacts → ℕ × Artifacts × Bool
  | [], removed, a => (removed, a, true)
  | t :: ts, removed, a =>
    if c.callback t then
      let p := cuvsTombstoneAppend c.maxDeltaRows (c.faults (removed - c.tuplesRemoved)) t
        c.deleteXid a
      if p.2 then bulkdeleteLoop c ts (removed + 1) p.1 else (removed + 1, p.1, false)
    else bulkdeleteLoop c ts removed a

structure BulkDelete where
  files : Artifacts
  tuplesRemoved : ℕ
  compacts : Bool

def cuvsAmbulkdelete (c : VacuumCall) (a : Artifacts) : BulkDelete :=
  if c.maxDeltaRows = 0 then ⟨cuvsMarkIndexStale c.mark a, c.tuplesRemoved, false⟩
  else if cuvsIndexIsStale a then ⟨a, c.tuplesRemoved, false⟩
  else
    match if c.opens then a.tids.bind cuvsTidsRead else none with
    | none => ⟨cuvsMarkIndexStale c.mark a, c.tuplesRemoved, false⟩
    | some (thdr, baseTids) =>
      match bulkdeleteLoop c baseTids c.tuplesRemoved a with
      | (removed, a, true) =>
        ⟨a, removed, decide (0 < c.compactDeleteRatio) && decide (0 < thdr.nVecs) && c.socketSet
          && decide (c.compactDeleteRatio ≤ (removed : ℚ) / thdr.nVecs)⟩
      | (removed, a, false) => ⟨cuvsMarkIndexStale c.mark a, removed, false⟩

inductive IndexWrite where
  | insert (c : InsertCall)
  | vacuum (c : VacuumCall)

def WritePath.step (s : WritePath) : IndexWrite → WritePath
  | .insert c => cuvsAminsert c s
  | .vacuum c => { s with files := (cuvsAmbulkdelete c s.files).files }

section Log

def IndexWrite.mark : IndexWrite → Option ℕ
  | .insert c => c.mark
  | .vacuum c => c.mark

def IndexWrite.rows : IndexWrite → List DeltaRecord
  | .insert c => if c.extended then [] else (c.vec.map (DeltaRecord.mk c.tid)).toList
  | .vacuum _ => []

def IndexWrite.tombstones (baseTids : List Tid) : IndexWrite → List TombstoneRecord
  | .insert _ => []
  | .vacuum c => (baseTids.filter c.callback).map fun t => ⟨t, c.deleteXid⟩

def pendingRows (writes : List IndexWrite) : List DeltaRecord := writes.flatMap IndexWrite.rows

def deadRows (baseTids : List Tid) (writes : List IndexWrite) : List TombstoneRecord :=
  writes.flatMap (IndexWrite.tombstones baseTids)

end Log

section Append

variable {a : Artifacts} {maxDeltaRows now : ℕ} {fault : Option AppendFault} {tid : Tid} {vec : Vec}
  {metric : Metric} {deleteXid : ℕ}

theorem deltaWrites_true {hdr : DeltaHeader} {f : DeltaFile}
    (h : (deltaWrites fault hdr tid vec f).2 = true) :
    (deltaWrites fault hdr tid vec f).1 =
      ({ f.writeRecord hdr.nRows vec.length ⟨tid, vec⟩ with
        header := some { hdr with nRows := hdr.nRows + 1 } } : DeltaFile).truncate
          (hdr.nRows + 1) := by
  cases fault with
  | none => rfl
  | some fault =>
    cases fault with
    | writeVec => cases h
    | writeHeader => cases h
    | truncate => cases h
    | sync => cases h
    | openFile => rfl
    | lock => rfl
    | writeTid => rfl

theorem tombstoneWrites_true {hdr : TombstoneHeader} {f : TombstoneFile} {r : TombstoneRecord}
    (h : (tombstoneWrites fault hdr r f).2 = true) :
    (tombstoneWrites fault hdr r f).1 =
      ({ f.writeRecord hdr.nEntries r with
        header := some { hdr with nEntries := hdr.nEntries + 1 } } : TombstoneFile).truncate
          (hdr.nEntries + 1) := by
  cases fault with
  | none => rfl
  | some fault =>
    cases fault with
    | writeHeader => cases h
    | truncate => cases h
    | sync => cases h
    | openFile => rfl
    | lock => rfl
    | writeTid => rfl
    | writeVec => rfl

theorem cuvsDeltaAppend_true
    (h : (cuvsDeltaAppend maxDeltaRows now fault tid vec metric a).2 = true) :
    ∃ hdr f, f = (a.delta.getD ⟨DeltaFile.empty, now⟩).content ∧
      deltaAppendHeader a f vec.length metric = some hdr ∧
      (cuvsDeltaAppend maxDeltaRows now fault tid vec metric a).1 =
        { a with delta := some ⟨({ f.writeRecord hdr.nRows vec.length ⟨tid, vec⟩ with
          header := some { hdr with nRows := hdr.nRows + 1 } } : DeltaFile).truncate
            (hdr.nRows + 1), now⟩ } := by
  rw [cuvsDeltaAppend] at h ⊢
  split_ifs at h ⊢ with hopen hlock
  dsimp only at h ⊢
  cases hhdr : deltaAppendHeader a (a.delta.getD ⟨DeltaFile.empty, now⟩).content vec.length metric with
  | none =>
    rw [hhdr] at h
    cases h
  | some hdr =>
    rw [hhdr] at h
    dsimp only at h ⊢
    split_ifs at h ⊢ with hfull
    refine ⟨hdr, _, rfl, hhdr, ?_⟩
    rw [deltaWrites_true h]

theorem cuvsTombstoneAppend_true
    (h : (cuvsTombstoneAppend maxDeltaRows fault tid deleteXid a).2 = true) :
    ∃ hdr f, f = a.tombstone.getD TombstoneFile.empty ∧ tombstoneAppendHeader a f = some hdr ∧
      (cuvsTombstoneAppend maxDeltaRows fault tid deleteXid a).1 =
        { a with tombstone := some (({ f.writeRecord hdr.nEntries ⟨tid, deleteXid⟩ with
          header := some { hdr with nEntries := hdr.nEntries + 1 } } : TombstoneFile).truncate
            (hdr.nEntries + 1)) } := by
  rw [cuvsTombstoneAppend] at h ⊢
  split_ifs at h ⊢ with hopen hlock
  dsimp only at h ⊢
  cases hhdr : tombstoneAppendHeader a (a.tombstone.getD TombstoneFile.empty) with
  | none =>
    rw [hhdr] at h
    cases h
  | some hdr =>
    rw [hhdr] at h
    dsimp only at h ⊢
    split_ifs at h ⊢ with hfull
    refine ⟨hdr, _, rfl, hhdr, ?_⟩
    rw [tombstoneWrites_true h]

end Append

section Logged

/-- A `.delta` of the base with checksum `crc` that holds `rows` and no torn tail. -/
def DeltaLogged (crc : UInt32) (rows : List DeltaRecord) : Option (Stamped DeltaFile) → Prop
  | none => rows = []
  | some f => ∃ hdr : DeltaHeader, f.content = ⟨some hdr, rows, 0⟩ ∧ hdr.magic = deltaMagic ∧
      hdr.version = deltaVersion ∧ hdr.reserved = 0 ∧ hdr.nRows = rows.length ∧
      hdr.baseTidsCrc32 = crc ∧ rows ≠ [] ∧ ∀ r ∈ rows, r.vec.length = hdr.dim

def TombstoneLogged (crc : UInt32) (recs : List TombstoneRecord) : Option TombstoneFile → Prop
  | none => recs = []
  | some f => ∃ hdr : TombstoneHeader, f = ⟨some hdr, recs, 0⟩ ∧ hdr.magic = tombstoneMagic ∧
      hdr.version = tombstoneVersion ∧ hdr.reserved = 0 ∧ hdr.nEntries = recs.length ∧
      hdr.baseTidsCrc32 = crc

structure Logged (base : TidsFile) (rows : List DeltaRecord) (recs : List TombstoneRecord)
    (a : Artifacts) : Prop where
  tids : a.tids = some base
  crc : cuvsReadTidsCrc a = some base.header.bodyCrc32
  delta : DeltaLogged base.header.bodyCrc32 rows a.delta
  tombstone : TombstoneLogged base.header.bodyCrc32 recs a.tombstone

variable {base : TidsFile} {rows : List DeltaRecord} {recs : List TombstoneRecord} {a : Artifacts}
  {maxDeltaRows now : ℕ} {fault : Option AppendFault} {tid : Tid} {vec : Vec} {metric : Metric}
  {deleteXid : ℕ}

theorem DeltaFile.writeRecord_end (hdr hdr' : DeltaHeader) (rows : List DeltaRecord) (dim : ℕ)
    (r : DeltaRecord) :
    ({ (⟨some hdr, rows, 0⟩ : DeltaFile).writeRecord rows.length dim r with
      header := some hdr' } : DeltaFile).truncate (rows.length + 1) = ⟨some hdr', rows ++ [r], 0⟩ := by
  have hbody : (rows.take rows.length ++
      List.replicate (rows.length - rows.length) (⟨0, List.replicate dim 0⟩ : DeltaRecord) ++
        r :: rows.drop (rows.length + 1)).take (rows.length + 1) = rows ++ [r] := by
    have hdrop : rows.drop (rows.length + 1) = [] := List.drop_eq_nil_of_le (Nat.le_succ _)
    rw [List.take_length, Nat.sub_self, List.replicate_zero, List.append_nil, hdrop]
    apply List.take_of_length_le
    rw [List.length_append, List.length_singleton]
  rw [DeltaFile.truncate, DeltaFile.writeRecord]
  exact congrArg (fun body => (⟨some hdr', body, 0⟩ : DeltaFile)) hbody

theorem TombstoneFile.writeRecord_end (hdr hdr' : TombstoneHeader) (recs : List TombstoneRecord)
    (r : TombstoneRecord) :
    ({ (⟨some hdr, recs, 0⟩ : TombstoneFile).writeRecord recs.length r with
      header := some hdr' } : TombstoneFile).truncate (recs.length + 1) =
        ⟨some hdr', recs ++ [r], 0⟩ := by
  have hbody : (recs.take recs.length ++ List.replicate (recs.length - recs.length) (⟨0, 0⟩ : TombstoneRecord) ++
        r :: recs.drop (recs.length + 1)).take (recs.length + 1) = recs ++ [r] := by
    have hdrop : recs.drop (recs.length + 1) = [] := List.drop_eq_nil_of_le (Nat.le_succ _)
    rw [List.take_length, Nat.sub_self, List.replicate_zero, List.append_nil, hdrop]
    apply List.take_of_length_le
    rw [List.length_append, List.length_singleton]
  rw [TombstoneFile.truncate, TombstoneFile.writeRecord]
  exact congrArg (fun body => (⟨some hdr', body, 0⟩ : TombstoneFile)) hbody

theorem Logged.deltaAppend (h : Logged base rows recs a)
    (hok : (cuvsDeltaAppend maxDeltaRows now fault tid vec metric a).2 = true) :
    Logged base (rows ++ [⟨tid, vec⟩]) recs
      (cuvsDeltaAppend maxDeltaRows now fault tid vec metric a).1 := by
  obtain ⟨hdr, f, hf, hhdr, hfiles⟩ := cuvsDeltaAppend_true hok
  rw [hfiles]
  refine ⟨h.tids, h.crc, ?_, h.tombstone⟩
  have hdelta := h.delta
  cases hfile : a.delta with
  | none =>
    -- the first record of the file: its header is made from the checksum of the base
    rw [hfile] at hdelta hf
    obtain rfl : rows = [] := hdelta
    obtain rfl : f = DeltaFile.empty := hf
    rw [deltaAppendHeader, if_pos (by rfl), h.crc] at hhdr
    obtain rfl : cuvsDeltaHeaderInit vec.length metric base.header.bodyCrc32 = hdr :=
      Option.some.inj hhdr
    refine ⟨_, rfl, rfl, rfl, rfl, rfl, rfl, List.cons_ne_nil _ _, fun r hr => ?_⟩
    rw [List.mem_singleton.mp hr]
    rfl
  | some g =>
    rw [hfile] at hdelta hf
    obtain ⟨hdr', hcontent, hmagic, hversion, hreserved, hcount, hcrc, -, hdim⟩ := hdelta
    rw [Option.getD_some, hcontent] at hf
    subst hf
    have hfull : (⟨some hdr', rows, 0⟩ : DeltaFile).isEmpty = false := rfl
    rw [deltaAppendHeader, hfull, if_neg Bool.false_ne_true] at hhdr
    obtain ⟨heq, hfits⟩ := Option.filter_eq_some_iff.mp hhdr
    obtain rfl : hdr' = hdr := Option.some.inj heq
    have hlen : hdr'.dim = vec.length := by
      simp only [Bool.and_eq_true, beq_iff_eq] at hfits
      exact hfits.2
    refine ⟨{ hdr' with nRows := hdr'.nRows + 1 }, ?_, hmagic, hversion, hreserved, ?_, hcrc,
      List.append_ne_nil_of_right_ne_nil _ (List.cons_ne_nil _ _), fun r hr => ?_⟩
    · rw [hcount]
      exact DeltaFile.writeRecord_end _ _ rows _ _
    · rw [List.length_append, List.length_singleton, hcount]
    · rcases List.mem_append.mp hr with hr | hr
      · exact hdim r hr
      · rw [List.mem_singleton.mp hr]
        exact hlen.symm

theorem Logged.tombstoneAppend (h : Logged base rows recs a)
    (hok : (cuvsTombstoneAppend maxDeltaRows fault tid deleteXid a).2 = true) :
    Logged base rows (recs ++ [⟨tid, deleteXid⟩])
      (cuvsTombstoneAppend maxDeltaRows fault tid deleteXid a).1 := by
  obtain ⟨hdr, f, hf, hhdr, hfiles⟩ := cuvsTombstoneAppend_true hok
  rw [hfiles]
  refine ⟨h.tids, h.crc, h.delta, ?_⟩
  have htombstone := h.tombstone
  cases hfile : a.tombstone with
  | none =>
    rw [hfile] at htombstone hf
    obtain rfl : recs = [] := htombstone
    obtain rfl : f = TombstoneFile.empty := hf
    rw [tombstoneAppendHeader, if_pos (by rfl), h.crc] at hhdr
    obtain rfl : cuvsTombstoneHeaderInit base.header.bodyCrc32 = hdr := Option.some.inj hhdr
    exact ⟨_, rfl, rfl, rfl, rfl, rfl, rfl⟩
  | some g =>
    rw [hfile] at htombstone hf
    obtain ⟨hdr', hcontent, hmagic, hversion, hreserved, hcount, hcrc⟩ := htombstone
    rw [Option.getD_some, hcontent] at hf
    subst hf
    have hfull : (⟨some hdr', recs, 0⟩ : TombstoneFile).isEmpty = false := rfl
    rw [tombstoneAppendHeader, hfull, if_neg Bool.false_ne_true] at hhdr
    obtain ⟨heq, -⟩ := Option.filter_eq_some_iff.mp hhdr
    obtain rfl : hdr' = hdr := Option.some.inj heq
    refine ⟨{ hdr' with nEntries := hdr'.nEntries + 1 }, ?_, hmagic, hversion, hreserved, ?_, hcrc⟩
    · rw [hcount]
      exact TombstoneFile.writeRecord_end _ _ recs _
    · rw [List.length_append, List.length_singleton, hcount]

end Logged

section Kept

variable {base : TidsFile} {thdr : TidsHeader} {baseTids : List Tid} {rows : List DeltaRecord}
  {recs : List TombstoneRecord} {s : WritePath} {a : Artifacts}

/-- The index is stale, or its files hold every write. -/
def WritePath.Kept (base : TidsFile) (rows : List DeltaRecord) (recs : List TombstoneRecord)
    (s : WritePath) : Prop :=
  cuvsIndexIsStale s.files = true ∨ s.marked = [] ∧ Logged base rows recs s.files

theorem cuvsIndexIsStale_mark {mark : Option ℕ} (hmark : mark.isSome = true) (a : Artifacts) :
    cuvsIndexIsStale (cuvsMarkIndexStale mark a) = true := by
  obtain ⟨now, rfl⟩ := Option.isSome_iff_exists.mp hmark
  rfl

theorem cuvsIndexIsStale_mark_of_stale (mark : Option ℕ) (h : cuvsIndexIsStale a = true) :
    cuvsIndexIsStale (cuvsMarkIndexStale mark a) = true := by
  cases mark with
  | none => exact h
  | some now => rfl

/-- A mark stays, whatever is written after it. -/
theorem WritePath.step_stale (h : cuvsIndexIsStale s.files = true) (w : IndexWrite) :
    cuvsIndexIsStale (s.step w).files = true := by
  cases w with
  | insert c =>
    show cuvsIndexIsStale (cuvsAminsert c s).files = true
    rw [cuvsAminsert]
    cases c.vec with
    | none => exact h
    | some vec =>
      dsimp only
      rw [if_pos h]
      split_ifs
      · exact h
      · exact cuvsIndexIsStale_mark_of_stale c.mark h
      · exact h
  | vacuum c =>
    show cuvsIndexIsStale (cuvsAmbulkdelete c s.files).files = true
    rw [cuvsAmbulkdelete, if_pos h]
    split_ifs
    · exact cuvsIndexIsStale_mark_of_stale c.mark h
    · exact h

theorem WritePath.Kept.insert (h : s.Kept base rows recs) (c : InsertCall)
    (hmark : c.mark.isSome = true) :
    (cuvsAminsert c s).Kept base (rows ++ (IndexWrite.insert c).rows) recs := by
  rcases h with hstale | ⟨hmarked, hlogged⟩
  · exact Or.inl (WritePath.step_stale hstale (.insert c))
  · by_cases hfresh : cuvsIndexIsStale s.files = true
    · exact Or.inl (WritePath.step_stale hfresh (.insert c))
    · have hsame : (IndexWrite.insert c).rows = [] → s.Kept base (rows ++ (IndexWrite.insert c).rows) recs := by
        intro hnone
        rw [hnone, List.append_nil]
        exact Or.inr ⟨hmarked, hlogged⟩
      rw [cuvsAminsert]
      cases hvec : c.vec with
      | none =>
        apply hsame
        rw [IndexWrite.rows, hvec, Option.map_none, Option.toList_none, ite_self]
      | some vec =>
        dsimp only
        have hsession : c.session ∉ s.marked := by
          rw [hmarked]
          exact List.not_mem_nil
        rw [if_neg hfresh, if_neg hsession]
        split_ifs with hoff hextended happend
        · exact Or.inl (cuvsIndexIsStale_mark hmark _)
        · apply hsame
          rw [IndexWrite.rows, if_pos hextended]
        · right
          refine ⟨hmarked, ?_⟩
          have hrows : (IndexWrite.insert c).rows = [⟨c.tid, vec⟩] := by
            rw [IndexWrite.rows, if_neg hextended, hvec]
            rfl
          rw [hrows]
          exact hlogged.deltaAppend happend
        · exact Or.inl (cuvsIndexIsStale_mark hmark _)

/-- A loop that runs to its end has written a tombstone for every TID the callback names. -/
theorem bulkdeleteLoop_logged (c : VacuumCall) :
    ∀ (tids : List Tid) (removed : ℕ) (a : Artifacts) (recs : List TombstoneRecord),
      Logged base rows recs a → (bulkdeleteLoop c tids removed a).2.2 = true →
      Logged base rows (recs ++ (tids.filter c.callback).map fun t => ⟨t, c.deleteXid⟩)
        (bulkdeleteLoop c tids removed a).2.1 := by
  intro tids
  induction tids with
  | nil =>
    intro removed a recs h _
    rw [List.filter_nil, List.map_nil, List.append_nil]
    exact h
  | cons t ts ih =>
    intro removed a recs h hok
    rw [bulkdeleteLoop] at hok ⊢
    by_cases hdead : c.callback t = true
    · rw [if_pos hdead] at hok ⊢
      dsimp only at hok ⊢
      rw [List.filter_cons_of_pos hdead, List.map_cons, List.append_cons]
      split_ifs at hok ⊢ with happend
      exact ih _ _ _ (h.tombstoneAppend happend) hok
    · rw [if_neg hdead] at hok ⊢
      rw [List.filter_cons_of_neg hdead]
      exact ih _ _ _ h hok

theorem WritePath.Kept.vacuum (h : s.Kept base rows recs)
    (hbase : cuvsTidsRead base = some (thdr, baseTids)) (c : VacuumCall)
    (hmark : c.mark.isSome = true) :
    (s.step (.vacuum c)).Kept base rows (recs ++ (IndexWrite.vacuum c).tombstones baseTids) := by
  rcases h with hstale | ⟨hmarked, hlogged⟩
  · exact Or.inl (WritePath.step_stale hstale (.vacuum c))
  · by_cases hfresh : cuvsIndexIsStale s.files = true
    · exact Or.inl (WritePath.step_stale hfresh (.vacuum c))
    · have hresult : cuvsIndexIsStale (cuvsAmbulkdelete c s.files).files = true ∨
          Logged base rows (recs ++ (IndexWrite.vacuum c).tombstones baseTids)
            (cuvsAmbulkdelete c s.files).files := by
        rw [cuvsAmbulkdelete, if_neg hfresh, hlogged.tids, Option.bind_some, hbase]
        by_cases hoff : c.maxDeltaRows = 0
        · rw [if_pos hoff]
          exact Or.inl (cuvsIndexIsStale_mark hmark _)
        · rw [if_neg hoff]
          cases hopens : c.opens with
          | false => exact Or.inl (cuvsIndexIsStale_mark hmark _)
          | true =>
            rw [if_pos rfl]
            dsimp only
            have hloop := bulkdeleteLoop_logged c baseTids c.tuplesRemoved s.files recs hlogged
            rcases hout : bulkdeleteLoop c baseTids c.tuplesRemoved s.files with ⟨removed, files, ok⟩
            rw [hout] at hloop
            cases ok with
            | true => exact Or.inr (hloop rfl)
            | false => exact Or.inl (cuvsIndexIsStale_mark hmark _)
      rcases hresult with hstale | hnext
      · exact Or.inl hstale
      · exact Or.inr ⟨hmarked, hnext⟩

theorem WritePath.Kept.step (h : s.Kept base rows recs)
    (hbase : cuvsTidsRead base = some (thdr, baseTids)) (w : IndexWrite)
    (hmark : w.mark.isSome = true) :
    (s.step w).Kept base (rows ++ w.rows) (recs ++ w.tombstones baseTids) := by
  cases w with
  | insert c =>
    have hnone : (IndexWrite.insert c).tombstones baseTids = [] := rfl
    rw [hnone, List.append_nil]
    exact h.insert c hmark
  | vacuum c =>
    have hnone : (IndexWrite.vacuum c).rows = [] := rfl
    rw [hnone, List.append_nil]
    exact h.vacuum hbase c hmark

structure Built (base : TidsFile) (thdr : TidsHeader) (baseTids : List Tid) (a : Artifacts) :
    Prop where
  tids : a.tids = some base
  read : cuvsTidsRead base = some (thdr, baseTids)
  delta : a.delta = none
  tombstone : a.tombstone = none

theorem Built.kept (h : Built base thdr baseTids a) : WritePath.Kept base [] [] ⟨a, []⟩ := by
  right
  obtain ⟨hhdr, -, -, -, hmagic, hversion, -⟩ := cuvsTidsRead_eq_some h.read
  have hcrc : cuvsReadTidsCrc a = some base.header.bodyCrc32 := by
    have hown : ¬(base.header.magic ≠ tidsMagic ∨ base.header.version ≠ tidsVersion) := by
      rw [← hhdr, hmagic, hversion]
      exact not_or_intro (not_not.mpr rfl) (not_not.mpr rfl)
    rw [cuvsReadTidsCrc, h.tids]
    dsimp only
    rw [if_neg hown]
  refine ⟨rfl, h.tids, hcrc, ?_, ?_⟩
  · rw [h.delta]
    rfl
  · rw [h.tombstone]
    rfl

theorem WritePath.kept_run (h : Built base thdr baseTids a) (writes : List IndexWrite)
    (hmarks : ∀ w ∈ writes, w.mark.isSome = true) :
    (Run.run WritePath.step ⟨a, []⟩ writes).Kept base (pendingRows writes)
      (deadRows baseTids writes) := by
  have hstep : ∀ past (s : WritePath) (w : IndexWrite),
      s.Kept base (pendingRows past) (deadRows baseTids past) → w.mark.isSome = true →
      (s.step w).Kept base (pendingRows (past ++ [w])) (deadRows baseTids (past ++ [w])) := by
    intro past s w hs hmark
    rw [pendingRows, deadRows, List.flatMap_append, List.flatMap_append, List.flatMap_singleton,
      List.flatMap_singleton]
    exact hs.step h.read w hmark
  have hrun : (Run.run WritePath.step ⟨a, []⟩ writes).Kept base (pendingRows ([] ++ writes))
      (deadRows baseTids ([] ++ writes)) :=
    Run.run_history hstep h.kept (Run.along_of_forall hmarks _)
  exact hrun

def Artifacts.pending (a : Artifacts) : List DeltaRecord :=
  (a.delta.map fun f => f.content.records).getD []

def Artifacts.recordedDead (a : Artifacts) : List TombstoneRecord :=
  match a.tombstone with
  | some ⟨some hdr, body, _⟩ => body.take hdr.nEntries
  | _ => []

/-- No write is lost, and none is written down twice: after every run of inserts and bulk deletes
whose marks arrive, whichever of their calls fail, the index is stale or its files hold the rows and
the dead TIDs of the run in their order. -/
theorem WritePath.run_logged (h : Built base thdr baseTids a) (writes : List IndexWrite)
    (hmarks : ∀ w ∈ writes, w.mark.isSome = true) :
    let files := (Run.run WritePath.step ⟨a, []⟩ writes).files
    cuvsIndexIsStale files = true ∨
      files.pending = pendingRows writes ∧ files.recordedDead = deadRows baseTids writes := by
  intro files
  rcases WritePath.kept_run h writes hmarks with hstale | ⟨-, hlogged⟩
  · exact Or.inl hstale
  · right
    constructor
    · have hdelta := hlogged.delta
      rw [Artifacts.pending]
      cases hfile : files.delta with
      | none =>
        rw [show files.delta = none from hfile] at hdelta
        exact hdelta.symm
      | some f =>
        rw [show files.delta = some f from hfile] at hdelta
        obtain ⟨hdr, hcontent, -, -, -, hcount, -⟩ := hdelta
        rw [Option.map_some, Option.getD_some, DeltaFile.records, hcontent]
        dsimp only
        rw [hcount, List.take_length]
    · have htombstone := hlogged.tombstone
      rw [Artifacts.recordedDead]
      cases hfile : files.tombstone with
      | none =>
        rw [show files.tombstone = none from hfile] at htombstone
        exact htombstone.symm
      | some f =>
        rw [show files.tombstone = some f from hfile] at htombstone
        obtain ⟨hdr, rfl, -, -, -, hcount, -⟩ := htombstone
        dsimp only
        rw [hcount, List.take_length]

end Kept

section Scan

open Selection

variable {D : Type} [LinearOrder D] {base : TidsFile} {thdr : TidsHeader} {baseTids : List Tid}
  {rows : List DeltaRecord} {recs : List TombstoneRecord} {a : Artifacts} {g : Guc} {dim : ℕ}

theorem Logged.deltaRowsForScan (h : Logged base rows recs a)
    (hgate : cuvsIndexDeltaUnusable g a = false) (hdim : ∀ r ∈ rows, r.vec.length = dim) :
    deltaRowsForScan g a dim = .ok rows := by
  have hdelta := h.delta
  rw [PgCuvs.deltaRowsForScan]
  cases hfile : a.delta with
  | none =>
    rw [hfile] at hdelta
    obtain rfl : rows = [] := hdelta
    rfl
  | some f =>
    rw [hfile] at hdelta
    obtain ⟨hdr, hcontent, hmagic, hversion, hreserved, hcount, hcrc, hne, hrows⟩ := hdelta
    obtain ⟨r, hr⟩ := List.exists_mem_of_ne_nil _ hne
    have hsame : hdr.dim = dim := (hrows r hr).symm.trans (hdim r hr)
    have hread : cuvsDeltaReadHeader f.content = some hdr := by
      rw [cuvsDeltaReadHeader, hcontent, Option.filter_some, hmagic, hversion, hreserved]
      rfl
    rw [cuvsIndexDeltaUnusable, hfile] at hgate
    dsimp only at hgate ⊢
    rw [hread] at hgate
    dsimp only at hgate
    split_ifs at hgate with hvalid hmax
    rw [hcontent] at hvalid ⊢
    have hfits : ¬(hdr.magic ≠ deltaMagic ∨ hdr.version ≠ deltaVersion ∨ hdr.dim ≠ dim ∨
        cuvsDeltaValidate hdr (DeltaFile.bodyBytes ⟨some hdr, rows, 0⟩) = false ∨
        g.maxDeltaRows < hdr.nRows ∨ cuvsReadTidsCrc a ≠ some hdr.baseTidsCrc32) := by
      rw [h.crc, hcrc]
      simp only [hmagic, hversion, hsame, hmax, ne_eq, not_true_eq_false, false_or, or_false]
      rw [Bool.not_eq_false]
      rwa [Bool.not_eq_true', Bool.not_eq_false] at hvalid
    dsimp only
    rw [if_neg hfits, hcount, List.take_length]

theorem Logged.tombstonesForScan (h : Logged base rows recs a)
    (hgate : cuvsIndexTombstoneUnusable g a = false) :
    tombstoneRecordsForScan a = recs ∧ cuvsTombstoneCount a = recs.length := by
  have htombstone := h.tombstone
  rw [tombstoneRecordsForScan, cuvsTombstoneCount]
  cases hfile : a.tombstone with
  | none =>
    rw [hfile] at htombstone
    obtain rfl : recs = [] := htombstone
    exact ⟨rfl, rfl⟩
  | some f =>
    rw [hfile] at htombstone
    obtain ⟨hdr, rfl, hmagic, hversion, hreserved, hcount, hcrc⟩ := htombstone
    have hread : cuvsTombstoneReadHeader ⟨some hdr, recs, 0⟩ = some hdr := by
      rw [cuvsTombstoneReadHeader, Option.filter_some, hmagic, hversion, hreserved]
      rfl
    rw [cuvsIndexTombstoneUnusable, hfile] at hgate
    dsimp only at hgate ⊢
    rw [hread] at hgate ⊢
    dsimp only at hgate ⊢
    split_ifs at hgate with hvalid hmax
    have hfits : ¬(hdr.magic ≠ tombstoneMagic ∨ hdr.version ≠ tombstoneVersion ∨
        cuvsTombstoneValidate hdr (TombstoneFile.bodyBytes ⟨some hdr, recs, 0⟩) = false ∨
        cuvsReadTidsCrc a ≠ some hdr.baseTidsCrc32) := by
      rw [h.crc, hcrc]
      simp only [hmagic, hversion, ne_eq, not_true_eq_false, false_or, or_false]
      rw [Bool.not_eq_false]
      rwa [Bool.not_eq_true', Bool.not_eq_false] at hvalid
    have hown : ¬cuvsReadTidsCrc a ≠ some hdr.baseTidsCrc32 := by
      rw [h.crc, hcrc]
      exact not_not.mpr rfl
    rw [if_neg hfits, if_neg hvalid, if_neg hown, hcount, List.take_length]
    exact ⟨rfl, rfl⟩

/-- The candidates that no tombstone the snapshot sees names. -/
def remaining (snap : Snapshot) (recs : List TombstoneRecord) (L : List (CuvsResult D)) :
    List (CuvsResult D) :=
  L.filter fun c => !tombstoned snap recs c.tid

/-- A scan over logged files: base and pending rows without the dead ones. -/
theorem Logged.gettupleSearch (h : Logged base rows recs a) {p : PlanEnv} {snap : Snapshot}
    {dist : Vec → D} {metric : Metric} {search : ℕ → SearchReply D} {B : List (CuvsResult D)}
    (hgate : cuvsPlanGate g p a = none) (hdim : ∀ r ∈ rows, r.vec.length = dim)
    (hmode : g.deltaSearch ≠ .gpu)
    (hmerged : g.deltaSearch = .cpu → (search (scanFetchK g a)).deltaMerged = false)
    (hcount : recs.length ≤ g.cuvsK)
    (hnodup : ((B ++ deltaCandidates dist rows).map CuvsResult.tid).Nodup)
    (hok : (search (scanFetchK g a)).status = .ok)
    (hdaemon : NearestOf metric (scanFetchK g a) B (deltaCandidates dist rows)
      (search (scanFetchK g a)).results (search (scanFetchK g a)).deltaMerged) :
    ∃ out, gettupleSearch g false a snap dist dim metric search = .ok out ∧
      IsNearest metric.Nearer CuvsResult.distance g.cuvsK
        (remaining snap recs (B ++ deltaCandidates dist rows)) (out.take g.cuvsK) := by
  obtain ⟨hon, -, -, -, -, -, hdelta, htomb⟩ := cuvsPlanGate_eq_none.mp hgate
  obtain ⟨hrecs, hlength⟩ := h.tombstonesForScan htomb
  have hrows : PgCuvs.deltaRowsForScan g a dim = .ok rows := h.deltaRowsForScan hdelta hdim
  obtain ⟨R, hR, hnear⟩ := gettupleSearch_eq hon htomb hrows hok hdaemon
  have hwide : scanFetchK g a = g.cuvsK + cuvsTombstoneCount a :=
    scanFetchK_eq htomb (hlength.trans_le hcount)
  -- the daemon's merge and the backend's together count every pending row once
  have honce : ¬(g.deltaSearch = .cpu ∧ (search (scanFetchK g a)).deltaMerged = true) := by
    rintro ⟨hcpu, htrue⟩
    rw [hmerged hcpu] at htrue
    cases htrue
  have hpool : scanPool g (search (scanFetchK g a)).deltaMerged B (deltaCandidates dist rows) = _ :=
    scanPool_once hmode honce
  rw [scanPool] at hpool
  rw [hpool, hwide] at hnear
  have hlive := applyTombstones_isNearest hnear (countP_tombstoned_le snap a _ hnodup)
  rw [liveCandidates, hrecs] at hlive
  exact ⟨_, hR, hlive⟩

/-- After every run of inserts and bulk deletes whose marks arrive, the planner refuses the index or
a scan finds the nearest of the rows the daemon holds and the rows that were written down, without
those that were recorded dead. -/
theorem WritePath.run_scans (h : Built base thdr baseTids a) (writes : List IndexWrite)
    (hmarks : ∀ w ∈ writes, w.mark.isSome = true) {p : PlanEnv} {snap : Snapshot} {dist : Vec → D}
    {metric : Metric} {search : ℕ → SearchReply D} {B : List (CuvsResult D)}
    (hdim : ∀ r ∈ pendingRows writes, r.vec.length = dim) (hmode : g.deltaSearch ≠ .gpu)
    (hcount : (deadRows baseTids writes).length ≤ g.cuvsK)
    (hnodup : ((B ++ deltaCandidates dist (pendingRows writes)).map CuvsResult.tid).Nodup)
    (hdaemon : ∀ k, (search k).status = .ok ∧
      (g.deltaSearch = .cpu → (search k).deltaMerged = false) ∧
      NearestOf metric k B (deltaCandidates dist (pendingRows writes)) (search k).results
        (search k).deltaMerged) :
    let files := (Run.run WritePath.step ⟨a, []⟩ writes).files
    cuvsPlanGate g p files ≠ none ∨
      ∃ out, gettupleSearch g false files snap dist dim metric search = .ok out ∧
        IsNearest metric.Nearer CuvsResult.distance g.cuvsK
          (remaining snap (deadRows baseTids writes)
            (B ++ deltaCandidates dist (pendingRows writes)))
          (out.take g.cuvsK) := by
  intro files
  by_cases hgate : cuvsPlanGate g p files = none
  · right
    have hfresh := (cuvsPlanGate_eq_none.mp hgate).2.2.1
    rcases WritePath.kept_run h writes hmarks with hstale | ⟨-, hlogged⟩
    · rw [hfresh] at hstale
      cases hstale
    · obtain ⟨hok, hmerged, hnear⟩ := hdaemon (scanFetchK g files)
      exact hlogged.gettupleSearch hgate hdim hmode hmerged hcount hnodup hok hnear
  · exact Or.inl hgate

end Scan

section Sample

open Selection

def sampleBaseTids : TidsFile := cuvsTidsWrite 1 .l2 [101, 102]

def sampleBaseFiles : Artifacts := { Artifacts.empty with tids := some sampleBaseTids }

def sampleNewRow (tid : Tid) (vec : Vec) : IndexWrite :=
  .insert
    { session := 1, maxDeltaRows := 10, tid, vec := some vec, metric := .l2, extended := false
      now := 7, fault := none, mark := some 8 }

def sampleVacuum : IndexWrite :=
  .vacuum
    { maxDeltaRows := 10, opens := true, dead := fun p => p == (0, 102), deleteXid := 3
      faults := fun _ => none, mark := some 9, socketSet := false, compactDeleteRatio := 1 / 10
      tuplesRemoved := 0 }

theorem sampleBaseFiles_built :
    Built sampleBaseTids sampleBaseTids.header [101, 102] sampleBaseFiles where
  tids := rfl
  read := by decide +kernel
  delta := rfl
  tombstone := rfl

def sampleWrites : List IndexWrite := [sampleNewRow 103 [5], sampleVacuum]

theorem sampleWrites_marks : ∀ w ∈ sampleWrites, w.mark.isSome = true := by
  intro w hw
  simp only [sampleWrites, List.mem_cons, List.not_mem_nil, or_false] at hw
  rcases hw with rfl | rfl
  · rfl
  · rfl

theorem sampleWrites_logged :
    let files := (Run.run WritePath.step ⟨sampleBaseFiles, []⟩ sampleWrites).files
    cuvsIndexIsStale files = false ∧
      (cuvsIndexIsStale files = true ∨ files.pending = pendingRows sampleWrites ∧
        files.recordedDead = deadRows [101, 102] sampleWrites) := by
  refine ⟨by decide +kernel, ?_⟩
  exact WritePath.run_logged sampleBaseFiles_built sampleWrites sampleWrites_marks

def sampleBaseReply (k : ℕ) : SearchReply ℕ where
  status := .ok
  results := (qsort (cuvsCandCmp .l2) [⟨101, 10⟩, ⟨102, 20⟩]).take k
  latencyUs := 7
  deltaMerged := false
  error := ""

theorem sampleWrites_scans :
    let files := (Run.run WritePath.step ⟨sampleBaseFiles, []⟩ sampleWrites).files
    cuvsPlanGate Guc.default ⟨false, true, 2⟩ files = none ∧
      (cuvsPlanGate Guc.default ⟨false, true, 2⟩ files ≠ none ∨
        ∃ out, gettupleSearch Guc.default false files ⟨fun _ => true, fun _ => false⟩
            (fun v => (v.headD 0).toNat) 1 .l2 sampleBaseReply = .ok out ∧
          IsNearest Metric.l2.Nearer CuvsResult.distance Guc.default.cuvsK
            (remaining ⟨fun _ => true, fun _ => false⟩ (deadRows [101, 102] sampleWrites)
              ([⟨101, 10⟩, ⟨102, 20⟩] ++
                deltaCandidates (fun v => (v.headD 0).toNat) (pendingRows sampleWrites)))
            (out.take Guc.default.cuvsK)) := by
  refine ⟨by decide +kernel, ?_⟩
  refine WritePath.run_scans sampleBaseFiles_built sampleWrites sampleWrites_marks (by decide) (by decide)
    (by decide) (by decide) ?_
  intro k
  refine ⟨rfl, fun _ => rfl, ?_⟩
  exact .plain (isNearest_qsort .l2 k _)

end Sample

end PgCuvs
