import PgCuvs.Disk

/-! Appending a record to the `.delta` and `.tombstone` sidecars. The header
counts the records; a torn tail behind them is overwritten by the next append. -/

namespace PgCuvs

inductive AppendFault where
  | openFile
  | lock
  | writeTid
  | writeVec
  | writeHeader
  | truncate
  | sync
deriving DecidableEq, Repr

section Delta

def DeltaFile.empty : DeltaFile where
  header := none
  body := []
  tail := 0

def DeltaFile.isEmpty (f : DeltaFile) : Bool := f.header.isNone && f.body.isEmpty && f.tail == 0

def DeltaFile.records (f : DeltaFile) : List DeltaRecord :=
  match f.header with
  | some h => f.body.take h.nRows
  | none => []

/-- Only the TID of slot `n` reached the file. -/
def DeltaFile.writeTid (n dim : ℕ) (tid : Tid) (f : DeltaFile) : DeltaFile :=
  if n < f.body.length then { f with body := f.body.modify n fun r => { r with tid } }
  else { f with tail := max f.tail ((n - f.body.length) * cuvsDeltaRecordBytes dim + 8) }

/-- The whole record reached slot `n`; missing slots before it read as zeros. -/
def DeltaFile.writeRecord (n dim : ℕ) (r : DeltaRecord) (f : DeltaFile) : DeltaFile where
  header := f.header
  body := f.body.take n ++ List.replicate (n - f.body.length) ⟨0, List.replicate dim 0⟩
    ++ r :: f.body.drop (n + 1)
  tail := f.tail - (n + 1 - f.body.length) * cuvsDeltaRecordBytes dim

def DeltaFile.truncate (n : ℕ) (f : DeltaFile) : DeltaFile :=
  { f with body := f.body.take n, tail := 0 }

/-- The header an append counts from: a new one for the current base build, or
the one in the file when it fits. -/
def deltaAppendHeader (a : Artifacts) (f : DeltaFile) (dim : ℕ) (metric : Metric) :
    Option DeltaHeader :=
  if f.isEmpty then (cuvsReadTidsCrc a).map (cuvsDeltaHeaderInit dim metric)
  else
    f.header.filter fun h => h.magic == deltaMagic && h.version == deltaVersion && h.dim == dim

def deltaWrites (fault : Option AppendFault) (hdr : DeltaHeader) (tid : Tid) (vec : Vec)
    (f : DeltaFile) : DeltaFile × Bool :=
  let n := hdr.nRows
  let full := f.writeRecord n vec.length ⟨tid, vec⟩
  let counted := { full with header := some { hdr with nRows := n + 1 } }
  match fault with
  | some .writeVec => (f.writeTid n vec.length tid, false)
  | some .writeHeader => (full, false)
  | some .truncate => (counted, false)
  | some .sync => (counted.truncate (n + 1), false)
  | _ => (counted.truncate (n + 1), true)

/-- `cuvs_delta_append`; `now` is the second its writes are stamped with. -/
def cuvsDeltaAppend (maxDeltaRows now : ℕ) (fault : Option AppendFault) (tid : Tid) (vec : Vec)
    (metric : Metric) (a : Artifacts) : Artifacts × Bool :=
  if fault = some .openFile then (a, false)
  else
    let f := a.delta.getD ⟨DeltaFile.empty, now⟩
    -- `O_CREAT`: a refused append leaves an empty file where there was none
    let opened := { a with delta := some f }
    if fault = some .lock then (opened, false)
    else
      match deltaAppendHeader a f.content vec.length metric with
      | none => (opened, false)
      | some hdr =>
        if maxDeltaRows ≤ hdr.nRows ∨ fault = some .writeTid then (opened, false)
        else
          let p := deltaWrites fault hdr tid vec f.content
          ({ a with delta := some ⟨p.1, now⟩ }, p.2)

end Delta

section Tombstone

def TombstoneFile.empty : TombstoneFile where
  header := none
  body := []
  tail := 0

def TombstoneFile.isEmpty (f : TombstoneFile) : Bool :=
  f.header.isNone && f.body.isEmpty && f.tail == 0

def TombstoneFile.writeRecord (n : ℕ) (r : TombstoneRecord) (f : TombstoneFile) :
    TombstoneFile where
  header := f.header
  body := f.body.take n ++ List.replicate (n - f.body.length) ⟨0, 0⟩ ++ r :: f.body.drop (n + 1)
  tail := f.tail - (n + 1 - f.body.length) * tombstoneRecordBytes

def TombstoneFile.truncate (n : ℕ) (f : TombstoneFile) : TombstoneFile :=
  { f with body := f.body.take n, tail := 0 }

def tombstoneAppendHeader (a : Artifacts) (f : TombstoneFile) : Option TombstoneHeader :=
  if f.isEmpty then (cuvsReadTidsCrc a).map cuvsTombstoneHeaderInit
  else f.header.filter fun h => h.magic == tombstoneMagic && h.version == tombstoneVersion

def tombstoneWrites (fault : Option AppendFault) (hdr : TombstoneHeader) (r : TombstoneRecord)
    (f : TombstoneFile) : TombstoneFile × Bool :=
  let n := hdr.nEntries
  let full := f.writeRecord n r
  let counted := { full with header := some { hdr with nEntries := n + 1 } }
  match fault with
  | some .writeHeader => (full, false)
  | some .truncate => (counted, false)
  | some .sync => (counted.truncate (n + 1), false)
  | _ => (counted.truncate (n + 1), true)

/-- `cuvs_tombstone_append`; its record is one write. -/
def cuvsTombstoneAppend (maxDeltaRows : ℕ) (fault : Option AppendFault) (tid : Tid)
    (deleteXid : ℕ) (a : Artifacts) : Artifacts × Bool :=
  if fault = some .openFile then (a, false)
  else
    let f := a.tombstone.getD TombstoneFile.empty
    let opened := { a with tombstone := some f }
    if fault = some .lock then (opened, false)
    else
      match tombstoneAppendHeader a f with
      | none => (opened, false)
      | some hdr =>
        if maxDeltaRows ≤ hdr.nEntries ∨ fault = some .writeTid ∨ fault = some .writeVec then
          (opened, false)
        else
          let p := tombstoneWrites fault hdr ⟨tid, deleteXid⟩ f
          ({ a with tombstone := some p.1 }, p.2)

end Tombstone

section Grows

structure DeltaFile.Grows (f f' : DeltaFile) : Prop where
  header : ∀ h, f.header = some h → ∃ h', f'.header = some h' ∧ h.nRows ≤ h'.nRows
  body : ∀ h n, f.header = some h → n ≤ h.nRows → n ≤ f.body.length →
    n ≤ f'.body.length ∧ f'.body.take n = f.body.take n

theorem DeltaFile.Grows.refl (f : DeltaFile) : f.Grows f :=
  ⟨fun h hh => ⟨h, hh, le_rfl⟩, fun _ _ _ _ hn => ⟨hn, rfl⟩⟩

theorem writeRecord_body (n dim : ℕ) (r : DeltaRecord) (f : DeltaFile) {m : ℕ} (hm : m ≤ n)
    (hlen : m ≤ f.body.length) :
    m ≤ (f.writeRecord n dim r).body.length ∧
      (f.writeRecord n dim r).body.take m = f.body.take m := by
  have htake : m ≤ (f.body.take n).length := by
    rw [List.length_take]
    exact le_min hm hlen
  have hbody : (f.writeRecord n dim r).body = f.body.take n ++
      (List.replicate (n - f.body.length) ⟨0, List.replicate dim 0⟩ ++ r :: f.body.drop (n + 1)) :=
    List.append_assoc ..
  rw [hbody]
  refine ⟨?_, ?_⟩
  · rw [List.length_append]
    exact htake.trans (Nat.le_add_right _ _)
  · rw [List.take_append_of_le_length htake, List.take_take, min_eq_left hm]

theorem writeTid_body (n dim : ℕ) (tid : Tid) (f : DeltaFile) {m : ℕ} (hm : m ≤ n)
    (hlen : m ≤ f.body.length) :
    m ≤ (f.writeTid n dim tid).body.length ∧
      (f.writeTid n dim tid).body.take m = f.body.take m := by
  unfold DeltaFile.writeTid
  split_ifs
  · refine ⟨?_, ?_⟩
    · rw [List.length_modify]
      exact hlen
    · rw [List.take_modify, List.modify_eq_self]
      rw [List.length_take]
      exact (min_le_left _ _).trans hm
  · exact ⟨hlen, rfl⟩

theorem truncate_body (n : ℕ) (f : DeltaFile) {m : ℕ} (hm : m ≤ n) (hlen : m ≤ f.body.length) :
    m ≤ (f.truncate n).body.length ∧ (f.truncate n).body.take m = f.body.take m := by
  have hbody : (f.truncate n).body = f.body.take n := rfl
  rw [hbody]
  refine ⟨?_, ?_⟩
  · rw [List.length_take]
    exact le_min hm hlen
  · rw [List.take_take, min_eq_left hm]

theorem deltaWrites_grows {fault : Option AppendFault} {hdr : DeltaHeader} {tid : Tid} {vec : Vec}
    {f : DeltaFile} (hheader : ∀ h, f.header = some h → h = hdr) :
    f.Grows (deltaWrites fault hdr tid vec f).1 := by
  have hfull : ∀ h n, f.header = some h → n ≤ h.nRows → n ≤ f.body.length →
      n ≤ (f.writeRecord hdr.nRows vec.length ⟨tid, vec⟩).body.length ∧
        (f.writeRecord hdr.nRows vec.length ⟨tid, vec⟩).body.take n = f.body.take n := by
    intro h n hh hn hlen
    rw [hheader h hh] at hn
    exact writeRecord_body _ _ _ f hn hlen
  have hbumped : ∀ h, f.header = some h → h.nRows ≤ hdr.nRows + 1 := by
    intro h hh
    rw [hheader h hh]
    exact Nat.le_succ _
  have hdone : f.Grows (({ f.writeRecord hdr.nRows vec.length ⟨tid, vec⟩ with
      header := some { hdr with nRows := hdr.nRows + 1 } } : DeltaFile).truncate
        (hdr.nRows + 1)) := by
    refine ⟨fun h hh => ⟨_, rfl, hbumped h hh⟩, ?_⟩
    intro h n hh hn hlen
    obtain ⟨hlen', htake⟩ := hfull h n hh hn hlen
    have hcut := truncate_body (hdr.nRows + 1)
      { f.writeRecord hdr.nRows vec.length ⟨tid, vec⟩ with
        header := some { hdr with nRows := hdr.nRows + 1 } } (hn.trans (hbumped h hh)) hlen'
    exact ⟨hcut.1, hcut.2.trans htake⟩
  unfold deltaWrites
  simp only
  split
  · refine ⟨fun h hh => ⟨h, ?_, le_rfl⟩, ?_⟩
    · unfold DeltaFile.writeTid
      split_ifs <;> exact hh
    · intro h n hh hn hlen
      rw [hheader h hh] at hn
      exact writeTid_body _ _ _ f hn hlen
  · exact ⟨fun h hh => ⟨h, hh, le_rfl⟩, hfull⟩
  · exact ⟨fun h hh => ⟨_, rfl, hbumped h hh⟩, hfull⟩
  · exact hdone
  · exact hdone

/-- What an append does to the files: nothing, a new `.delta`, or a stamped one
that has grown. -/
theorem cuvsDeltaAppend_cases (maxDeltaRows now : ℕ) (fault : Option AppendFault) (tid : Tid)
    (vec : Vec) (metric : Metric) (a : Artifacts) :
    ∃ delta, (cuvsDeltaAppend maxDeltaRows now fault tid vec metric a).1 = { a with delta } ∧
      (delta = a.delta ∨ a.delta = none ∧ (∃ f', delta = some ⟨f', now⟩) ∨
        ∃ f f', a.delta = some f ∧ delta = some ⟨f', now⟩ ∧ f.content.Grows f') := by
  simp only [cuvsDeltaAppend]
  split
  · exact ⟨a.delta, rfl, .inl rfl⟩
  · have hopened : ∃ delta, { a with delta := some (a.delta.getD ⟨DeltaFile.empty, now⟩) }
        = { a with delta } ∧ (delta = a.delta ∨ a.delta = none ∧ (∃ f', delta = some ⟨f', now⟩) ∨
          ∃ f f', a.delta = some f ∧ delta = some ⟨f', now⟩ ∧ f.content.Grows f') := by
      refine ⟨_, rfl, ?_⟩
      cases hfile : a.delta with
      | none => exact .inr (.inl ⟨rfl, _, rfl⟩)
      | some f => exact .inl rfl
    split
    · exact hopened
    · split
      · exact hopened
      · rename_i hdr hhdr
        split
        · exact hopened
        · refine ⟨_, rfl, .inr ?_⟩
          cases hfile : a.delta with
          | none => exact .inl ⟨rfl, _, rfl⟩
          | some f =>
            refine .inr ⟨f, _, rfl, rfl, deltaWrites_grows ?_⟩
            intro h hh
            rw [hfile, Option.getD_some] at hhdr
            unfold deltaAppendHeader at hhdr
            have hnonempty : f.content.isEmpty = false := by
              unfold DeltaFile.isEmpty
              rw [hh]
              rfl
            rw [hnonempty, if_neg Bool.false_ne_true, hh] at hhdr
            exact (Option.filter_eq_some_iff.mp hhdr).1 |> Option.some.inj

end Grows

end PgCuvs
