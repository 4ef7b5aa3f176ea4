import PgCuvs.Export.HnswlibBounds

/-! The fill from a hnswlib sidecar refuses the stream or stays in bounds exactly when the
header's offsets agree with the slots and the levels with the page. -/

namespace PgCuvs

namespace Hnswlib

open Records Traced

section Input

variable (x : Sidecar)

def Sidecar.width : ElemWidth :=
  match x.targetChecks with
  | .ok (width, _) => width
  | .error _ => .vector

def Sidecar.metric : Metric :=
  match x.targetChecks with
  | .ok (_, metric) => metric
  | .error _ => .l2

def Sidecar.upperAt (i : ℕ) : ℕ := upperPos x.stream (96 + x.blockBytes) i

def Sidecar.level (i : ℕ) : ℕ := x.levelAt x.hdr.m (x.upperAt i)

def Sidecar.needed : ℕ := pairNeeded x.dim x.width x.hdr.m x.hdr.maxlevel

def Sidecar.ReadsAll : Prop := ∀ i < x.hdr.curElementCount, x.hdr.Reads x.block i

/-- One of the checks that come before the first page refuses the input. -/
inductive Sidecar.Refused : Prop where
  | target {msg : String} (h : x.targetChecks = .error msg)
  | header (h : x.stream.length < 96)
  | empty (h : x.hdr.curElementCount = 0)
  | degree (h : ¬ (0 < cInt x.hdr.M ∧ 0 < cInt x.hdr.maxM0))
  | tids (h : cuvsTidsRead x.tids = none)
  | fewer (h : x.tids.header.nVecs < x.hdr.curElementCount)
  | metric (h : x.metric ≠ x.tids.header.metric)
  | block (h : x.stream.length < 96 + x.blockBytes)
  | label {i : ℕ} (hi : i < x.hdr.curElementCount) (hread : ∀ j ≤ i, x.hdr.Reads x.block j)
      (h : x.tids.header.nVecs ≤ x.hdr.label x.block i)
  | upper {i : ℕ} (hread : x.ReadsAll) (hi : i < x.hdr.curElementCount)
      (h : x.Truncated x.hdr.m (x.upperAt i))
  | page (hread : x.ReadsAll) (h : pgvUsableBytes < x.needed)
  | offset (hread : x.ReadsAll) (hneeded : x.needed ≠ 0) (h : cLong x.hdr.offsetLevel0 < 0)

def Sidecar.Fits (level : ℕ) : Prop :=
  24 + 2 * 4 + PgCuvs.elemTupleSize x.dim x.width + PgCuvs.neighTupleSize level x.hdr.m
    ≤ 8192 - 8

/-- The header's offsets keep an element's fields in its slot, its counts are `int`s, and no
element that gets a page has a level of more than eight bits. -/
structure Sidecar.Tight : Prop where
  degree : x.hdr.M < 2 ^ 31
  degree0 : x.hdr.maxM0 < 2 ^ 31
  slots : x.hdr.SlotsHold
  vector : x.hdr.offsetLevel0 + x.hdr.offsetData + x.dim * 4 ≤ x.hdr.sizeDataPerElement
  maxlevel : CountFits x.hdr.maxlevel x.hdr.m
  levels : ∀ i < x.hdr.curElementCount, (∀ j < i, x.Fits (x.level j)) →
    CountFits (x.level i) x.hdr.m ∧ (x.Fits (x.level i) → x.level i < 2 ^ 8)

end Input

section Stages

variable {x : Sidecar}

theorem targetChecks_ok {width : ElemWidth} {metric : Metric}
    (h : x.targetChecks = .ok (width, metric)) :
    width = x.width ∧ metric = x.metric ∧ 0 < x.dim := by
  refine ⟨by rw [Sidecar.width, h], by rw [Sidecar.metric, h], ?_⟩
  rw [Sidecar.targetChecks] at h
  split_ifs at h with hext hdim
  rw [Sidecar.dim]
  omega

theorem dim_lt (x : Sidecar) : x.dim < 2 ^ 31 := by
  have := x.atttypmod.toInt_lt
  rw [Sidecar.dim]
  omega

theorem parseHeader_returns {hdr : HnswlibHeader} :
    x.parseHeader.Returns hdr
      ↔ 96 ≤ x.stream.length ∧ hdr = x.hdr ∧ x.hdr.curElementCount ≠ 0 ∧
        0 < cInt x.hdr.M ∧ 0 < cInt x.hdr.maxM0 := by
  rw [Sidecar.parseHeader, Sidecar.hdr]
  cases hread : readHnswlibHeader x.stream with
  | none =>
    have hshort : ¬ 96 ≤ x.stream.length := by
      intro hlen
      obtain ⟨hdr, hhdr⟩ := readHnswlibHeader_takes x.stream hlen
      cases hread.symm.trans hhdr
    simp [hshort]
  | some p =>
    have hlen := (readHnswlibHeader_eq_some hread).1
    simp only [returns_bind, returns_sized, returns_raiseUnless, returns_pure, Option.map_some,
      Option.getD_some, hlen, true_and, exists_const]
    constructor
    · rintro ⟨hempty, hdegree, rfl⟩
      exact ⟨rfl, hempty, hdegree⟩
    · rintro ⟨rfl, hempty, hdegree⟩
      exact ⟨hempty, hdegree, rfl⟩

theorem parseHeader_stops {S : Stop → Prop} (h : x.parseHeader.Stops S) :
    (x.stream.length < 96 ∨ x.hdr.curElementCount = 0 ∨
      ¬ (0 < cInt x.hdr.M ∧ 0 < cInt x.hdr.maxM0)) ∧ ∃ msg, S (.error msg) := by
  rw [Sidecar.parseHeader] at h
  rw [Sidecar.hdr]
  cases hread : readHnswlibHeader x.stream with
  | none =>
    rw [hread, stops_raise] at h
    refine ⟨Or.inl (Nat.not_le.mp fun hlen => ?_), _, h⟩
    obtain ⟨hdr, hhdr⟩ := readHnswlibHeader_takes x.stream hlen
    cases hread.symm.trans hhdr
  | some p =>
    rw [hread] at h
    simp only [stops_bind, returns_sized, stops_sized, returns_raiseUnless, stops_raiseUnless,
      stops_pure, false_or, or_false, true_and, exists_const, and_false] at h
    rcases h with ⟨hempty, hS⟩ | ⟨-, hdegree, hS⟩
    · exact ⟨Or.inr (Or.inl (not_not.mp hempty)), _, hS⟩
    · exact ⟨Or.inr (Or.inr hdegree), _, hS⟩

theorem parseTids_returns {metric : Metric} {p : TidsHeader × List Tid} :
    (x.parseTids x.hdr metric).Returns p
      ↔ cuvsTidsRead x.tids = some p ∧ x.hdr.curElementCount ≤ x.tids.header.nVecs ∧
        metric = x.tids.header.metric := by
  rw [Sidecar.parseTids]
  cases hread : cuvsTidsRead x.tids with
  | none => simp
  | some q =>
    obtain ⟨tidsHdr, tids⟩ := q
    obtain ⟨rfl, -⟩ := cuvsTidsRead_eq_some hread
    simp only [returns_bind, returns_raiseUnless, returns_pure, exists_const, Option.some.injEq]
    constructor
    · rintro ⟨hcount, hmetric, hp⟩
      exact ⟨hp, hcount, hmetric⟩
    · rintro ⟨hp, hcount, hmetric⟩
      exact ⟨hcount, hmetric, hp⟩

theorem parseTids_stops {metric : Metric} {S : Stop → Prop}
    (h : (x.parseTids x.hdr metric).Stops S) :
    (cuvsTidsRead x.tids = none ∨ x.tids.header.nVecs < x.hdr.curElementCount ∨
      metric ≠ x.tids.header.metric) ∧ ∃ msg, S (.error msg) := by
  rw [Sidecar.parseTids] at h
  cases hread : cuvsTidsRead x.tids with
  | none =>
    rw [hread, stops_raise] at h
    exact ⟨Or.inl rfl, _, h⟩
  | some q =>
    obtain ⟨tidsHdr, tids⟩ := q
    rw [hread] at h
    obtain ⟨rfl, -⟩ := cuvsTidsRead_eq_some hread
    simp only [stops_bind, returns_raiseUnless, stops_raiseUnless, stops_pure, exists_const,
      and_false, or_false] at h
    rcases h with ⟨hcount, hS⟩ | ⟨-, hmetric, hS⟩
    · exact ⟨Or.inr (Or.inl (Nat.not_le.mp hcount)), _, hS⟩
    · exact ⟨Or.inr (Or.inr hmetric), _, hS⟩

end Stages

section Parse

structure Sidecar.Checked (x : Sidecar) : Prop where
  target : ∃ p, x.targetChecks = .ok p
  header : 96 ≤ x.stream.length
  nonempty : x.hdr.curElementCount ≠ 0
  degree : 0 < cInt x.hdr.M ∧ 0 < cInt x.hdr.maxM0
  tids : ∃ p, cuvsTidsRead x.tids = some p
  count : x.hdr.curElementCount ≤ x.tids.header.nVecs
  metric : x.metric = x.tids.header.metric
  block : 96 + x.blockBytes ≤ x.stream.length

def Sidecar.Parses (x : Sidecar) (i : ℕ) : Prop :=
  x.hdr.Reads x.block i ∧ x.hdr.label x.block i < x.tids.header.nVecs

structure Sidecar.Accepted (x : Sidecar) : Prop extends x.Checked where
  elements : ∀ i < x.hdr.curElementCount, x.Parses i
  upper : ∀ i < x.hdr.curElementCount, ¬ x.Truncated x.hdr.m (x.upperAt i)
  page : x.needed ≠ 0 ∧ x.needed ≤ pgvUsableBytes
  offset : 0 ≤ cLong x.hdr.offsetLevel0

/-- The parser leaves its block, or divides by zero. -/
inductive Sidecar.Faults (x : Sidecar) : Prop where
  | element {i : ℕ} (hc : x.Checked) (hi : i < x.hdr.curElementCount)
      (hbefore : ∀ j < i, x.Parses j) (h : ¬ x.hdr.Reads x.block i)
  | division (hc : x.Checked) (helements : ∀ i < x.hdr.curElementCount, x.Parses i)
      (hupper : ∀ i < x.hdr.curElementCount, ¬ x.Truncated x.hdr.m (x.upperAt i))
      (h : x.needed = 0)

structure Parsed.Of (p : Parsed) (x : Sidecar) : Prop where
  width : p.width = x.width
  hdr : p.hdr = x.hdr
  length : p.elems.length = x.hdr.curElementCount
  level : ∀ i e, p.elems[i]? = some e → e.level = x.level i
  offno : ∀ e ∈ p.elems, e.elemOffno = 1 ∧ e.neighOffno = 2

variable {x : Sidecar} {p : Parsed}

theorem Sidecar.Checked.dim_pos (h : x.Checked) : 0 < x.dim := by
  obtain ⟨⟨width, metric⟩, htarget⟩ := h.target
  exact (targetChecks_ok htarget).2.2

theorem parse_returns (h : x.parse.Returns p) : x.Accepted ∧ p.Of x := by
  simp only [Sidecar.parse, returns_bind, returns_ofChecked, parseHeader_returns] at h
  obtain ⟨⟨width, metric⟩, htarget, _, ⟨hheader, rfl, hempty, hdegree⟩, h⟩ := h
  simp only [parseTids_returns] at h
  obtain ⟨⟨tidsHdr, tids⟩, ⟨htids, hcount, hmetric⟩, h⟩ := h
  obtain ⟨hwidth, hmetric', hdim⟩ := targetChecks_ok htarget
  obtain ⟨hhdr, -⟩ := cuvsTidsRead_eq_some htids
  simp only [checkHnswPageFit_returns hdim, returns_raiseUnless, returns_pure] at h
  obtain ⟨level0, hlevel0, elems, hupper, -, hpage, -, hoffset, rfl⟩ := h
  obtain ⟨hblock, hlen0, hzero, helements⟩ := parseLevel0_returns hlevel0
  obtain ⟨hlen, htrunc, hlevels⟩ := parseUpper_returns x.hdr.m_lt hzero hupper
  subst hwidth hmetric' hhdr
  refine ⟨⟨⟨⟨_, htarget⟩, hheader, hempty, hdegree, ⟨_, htids⟩, hcount, hmetric, hblock⟩,
    helements, fun i hi => htrunc i (hlen0 ▸ hi), hpage, hoffset⟩, ⟨rfl, rfl, ?_, ?_, ?_⟩⟩
  · simp only [layoutPass, List.length_mapIdx, hlen, hlen0]
  · intro i e he
    simp only [layoutPass, List.getElem?_mapIdx] at he
    obtain ⟨e', he', rfl⟩ := Option.map_eq_some_iff.mp he
    exact hlevels i e' he'
  · intro e he
    obtain ⟨i, -, rfl⟩ := List.mem_mapIdx.mp he
    simp [Nat.mod_one]

theorem parse_stops {S : Stop → Prop} (h : x.parse.Stops S) :
    (x.Refused ∧ ∃ msg, S (.error msg)) ∨ (x.Faults ∧ S .fault) := by
  simp only [Sidecar.parse, stops_bind, returns_ofChecked, stops_ofChecked, parseHeader_returns]
    at h
  rcases h with ⟨msg, htarget, hS⟩ | ⟨⟨width, metric⟩, htarget, h⟩
  · exact Or.inl ⟨.target htarget, _, hS⟩
  obtain ⟨hwidth, hmetric', hdim⟩ := targetChecks_ok htarget
  rcases h with h | ⟨_, ⟨hheader, rfl, hempty, hdegree⟩, h⟩
  · obtain ⟨hshort | hempty | hdegree, hS⟩ := parseHeader_stops h
    · exact Or.inl ⟨.header hshort, hS⟩
    · exact Or.inl ⟨.empty hempty, hS⟩
    · exact Or.inl ⟨.degree hdegree, hS⟩
  simp only [parseTids_returns] at h
  rcases h with h | ⟨⟨tidsHdr, tids⟩, ⟨htids, hcount, hmetric⟩, h⟩
  · obtain ⟨hnone | hfewer | hmetric, hS⟩ := parseTids_stops h
    · exact Or.inl ⟨.tids hnone, hS⟩
    · exact Or.inl ⟨.fewer hfewer, hS⟩
    · exact Or.inl ⟨.metric (hmetric' ▸ hmetric), hS⟩
  obtain ⟨hhdr, -⟩ := cuvsTidsRead_eq_some htids
  subst hwidth hmetric' hhdr
  simp only [stops_raiseUnless, stops_pure, and_false, exists_false, or_false] at h
  rcases h with h | ⟨level0, hlevel0, h⟩
  · rcases parseLevel0_stops.mp h with ⟨hblock, hS⟩ | ⟨hblock, i, hi, hbefore, hstop⟩
    · exact Or.inl ⟨.block hblock, _, hS⟩
    · have hc : x.Checked :=
        ⟨⟨_, htarget⟩, hheader, hempty, hdegree, ⟨_, htids⟩, hcount, hmetric, hblock⟩
      rcases parseElem_stops.mp hstop with ⟨hread, hS⟩ | ⟨hread, hlabel, hS⟩
      · exact Or.inr ⟨.element hc hi hbefore hread, hS⟩
      · refine Or.inl ⟨.label hi (fun j hj => ?_) hlabel, _, hS⟩
        rcases Nat.lt_or_eq_of_le hj with hlt | rfl
        · exact (hbefore j hlt).1
        · exact hread
  obtain ⟨hblock, hlen0, hzero, helements⟩ := parseLevel0_returns hlevel0
  have hreads : x.ReadsAll := fun i hi => (helements i hi).1
  rcases h with h | ⟨elems, hupper, h⟩
  · obtain ⟨⟨i, hi, htrunc⟩, hS⟩ := parseUpper_stops x.hdr.m_lt h
    exact Or.inl ⟨.upper hreads (hlen0 ▸ hi) htrunc, hS⟩
  obtain ⟨hlen, htrunc, -⟩ := parseUpper_returns x.hdr.m_lt hzero hupper
  rcases h with h | ⟨_, hpage, h⟩
  · rcases checkHnswPageFit_stops hdim h with ⟨hdiv, hS⟩ | ⟨hpage, hS⟩
    · exact Or.inr ⟨.division
        ⟨⟨_, htarget⟩, hheader, hempty, hdegree, ⟨_, htids⟩, hcount, hmetric, hblock⟩ helements
        (fun i hi => htrunc i (hlen0 ▸ hi)) hdiv, hS⟩
    · exact Or.inl ⟨.page hreads hpage, hS⟩
  · rw [checkHnswPageFit_returns hdim] at hpage
    exact Or.inl ⟨.offset hreads hpage.1 (Int.not_le.mp h.1), _, h.2⟩

theorem Sidecar.Accepted.not_refused (h : x.Accepted) : ¬ x.Refused := by
  intro hr
  cases hr with
  | target htarget =>
    obtain ⟨p, hp⟩ := h.target
    exact nomatch hp.symm.trans htarget
  | header hshort => exact absurd h.header (Nat.not_le.mpr hshort)
  | empty hempty => exact h.nonempty hempty
  | degree hdegree => exact hdegree h.degree
  | tids hnone =>
    obtain ⟨p, hp⟩ := h.tids
    exact nomatch hp.symm.trans hnone
  | fewer hfewer => exact absurd h.count (Nat.not_le.mpr hfewer)
  | metric hmetric => exact hmetric h.metric
  | block hblock => exact absurd h.block (Nat.not_le.mpr hblock)
  | label hi _ hlabel => exact absurd (h.elements _ hi).2 (Nat.not_lt.mpr hlabel)
  | upper _ hi htrunc => exact h.upper _ hi htrunc
  | page _ hpage => exact absurd h.page.2 (Nat.not_le.mpr hpage)
  | offset _ _ hoffset => exact absurd h.offset (Int.not_le.mpr hoffset)

theorem Sidecar.Checked.refused (h : x.Checked) (hr : x.Refused) :
    (∃ i < x.hdr.curElementCount, (∀ j ≤ i, x.hdr.Reads x.block j) ∧ ¬ x.Parses i) ∨
      x.ReadsAll ∧ ((∃ i < x.hdr.curElementCount, x.Truncated x.hdr.m (x.upperAt i)) ∨
        x.needed ≠ 0) := by
  cases hr with
  | target htarget =>
    obtain ⟨p, hp⟩ := h.target
    exact nomatch hp.symm.trans htarget
  | header hshort => exact absurd h.header (Nat.not_le.mpr hshort)
  | empty hempty => exact absurd hempty h.nonempty
  | degree hdegree => exact absurd h.degree hdegree
  | tids hnone =>
    obtain ⟨p, hp⟩ := h.tids
    exact nomatch hp.symm.trans hnone
  | fewer hfewer => exact absurd h.count (Nat.not_le.mpr hfewer)
  | metric hmetric => exact absurd h.metric hmetric
  | block hblock => exact absurd h.block (Nat.not_le.mpr hblock)
  | label hi hread hlabel => exact Or.inl ⟨_, hi, hread, fun h => Nat.not_lt.mpr hlabel h.2⟩
  | upper hread hi htrunc => exact Or.inr ⟨hread, Or.inl ⟨_, hi, htrunc⟩⟩
  | page hread hpage => exact Or.inr ⟨hread, Or.inr (by omega)⟩
  | offset hread hneeded _ => exact Or.inr ⟨hread, Or.inr hneeded⟩

theorem Sidecar.Faults.not_refused (h : x.Faults) : ¬ x.Refused := by
  intro hr
  cases h with
  | @element i hc hi hbefore hread =>
    obtain ⟨k, hk, hreads, hparse⟩ | ⟨hreads, -⟩ := hc.refused hr
    · rcases Nat.lt_or_ge k i with hlt | hge
      · exact hparse (hbefore k hlt)
      · exact hread (hreads i hge)
    · exact hread (hreads i hi)
  | division hc helements hupper hzero =>
    obtain ⟨k, hk, -, hparse⟩ | ⟨-, ⟨k, hk, htrunc⟩ | hneeded⟩ := hc.refused hr
    · exact hparse (helements k hk)
    · exact hupper k hk htrunc
    · exact hneeded hzero

theorem parse_refuses_iff : x.parse.Stops Stop.IsError ↔ x.Refused := by
  constructor
  · intro h
    obtain ⟨hr, -⟩ | ⟨-, hfault⟩ := parse_stops h
    · exact hr
    · exact (isError_fault.mp hfault).elim
  · intro hr
    cases hres : x.parse.result with
    | ok p => exact absurd hr (parse_returns hres).1.not_refused
    | error s =>
      obtain ⟨-, msg, hmsg⟩ | ⟨hfault, -⟩ := @parse_stops x (· = s) ⟨s, hres, rfl⟩
      · exact ⟨s, hres, msg, hmsg.symm⟩
      · exact absurd hr hfault.not_refused

@[simp] theorem isPage_access {i pos len : ℕ} {field : Field} :
    (Event.access i field pos len).IsPage ↔ False :=
  Iff.rfl

@[simp] theorem isPage_upper {off len size : ℕ} : (Event.upper off len size).IsPage ↔ False :=
  Iff.rfl

@[simp] theorem isPage_size {intended computed : ℤ} :
    (Event.size intended computed).IsPage ↔ False :=
  Iff.rfl

theorem parse_unwritten (x : Sidecar) : x.parse.All fun e => ¬ e.IsPage := by
  have hhdr : x.parseHeader.All fun e => ¬ e.IsPage := by
    rw [Sidecar.parseHeader]
    cases readHnswlibHeader x.stream with
    | none => exact all_raise.mpr trivial
    | some p => simp
  have htids : ∀ hdr metric, (x.parseTids hdr metric).All fun e => ¬ e.IsPage := by
    intro hdr metric
    rw [Sidecar.parseTids]
    cases cuvsTidsRead x.tids with
    | none => exact all_raise.mpr trivial
    | some p => simp
  have hslot : ∀ block i field off len,
      (readSlot block i field off len).All fun e => ¬ e.IsPage := by
    intro block i field off len
    simp only [readSlot, all_bind, all_emit, all_require, all_pure, isPage_access,
      not_false_eq_true, implies_true, and_true]
  have helem : ∀ hdr tidsHdr tids block i,
      (parseElem hdr tidsHdr tids block i).All fun e => ¬ e.IsPage := by
    intro hdr tidsHdr tids block i
    simp only [parseElem, all_bind, all_sized, all_raiseUnless, all_pure, hslot, isPage_size,
      not_false_eq_true, implies_true, and_true]
  have hupper : ∀ m i pos e, (x.parseUpperElem m i pos e).All fun e => ¬ e.IsPage := by
    intro m i pos e
    simp only [Sidecar.parseUpperElem, all_bind, all_sized, all_raiseUnless]
    refine ⟨id, fun _ _ => ⟨trivial, fun _ _ => ⟨id, fun _ _ => ?_⟩⟩⟩
    split_ifs
    · exact all_pure.mpr trivial
    · simp only [all_bind, all_raiseUnless, all_pure, implies_true, and_true, true_and]
      exact fun _ _ => all_visitAll.mpr fun _ _ _ _ => by
        simp [parseUpperLevel, readUpper]
  simp only [Sidecar.parse, Sidecar.parseLevel0, Sidecar.parseUpper, checkHnswPageFit,
    elemsPerPage, elemTupleSize, neighTupleSize, all_bind, all_ofChecked, all_sized,
    all_raiseUnless, all_require, all_pure, all_visitAll, hhdr, htids, helem, hupper,
    isPage_size, not_false_eq_true, implies_true, and_true]

end Parse

section Write

variable {x : Sidecar} {p : Parsed} {i : ℕ} {e : ElemDesc} {slot : ℕ}

theorem writeElemPage_ok_iff {dim m : ℕ} {width : ElemWidth} {allElems : List ElemDesc} {vec : Vec}
    (hvec : vec.length = dim) (heoff : e.elemOffno = 1) (hnoff : e.neighOffno = 2) :
    (∃ page, writeElemPage dim width m allElems (e, vec) = .ok page)
      ↔ 24 + 2 * 4 + PgCuvs.elemTupleSize dim width + PgCuvs.neighTupleSize e.level m ≤ 8192 - 8 := by
  have halign : maxalign8 (elemTuple dim width e vec).length = PgCuvs.elemTupleSize dim width := by
    rw [elemTuple_length hvec]
    exact maxalign8_maxalign8 _
  have hnalign : maxalign8 (neighTuple allElems e m).length = PgCuvs.neighTupleSize e.level m := by
    rw [neighTuple_length]
    exact maxalign8_maxalign8 _
  simp only [writeElemPage, writeElemPair, pageAddItem, newPage, halign, hnalign]
  by_cases helem : 24 + 4 + PgCuvs.elemTupleSize dim width ≤ 8192 - 8
  · by_cases hneigh : 24 + 4 + 4 + PgCuvs.neighTupleSize e.level m
        ≤ 8192 - 8 - PgCuvs.elemTupleSize dim width
    · simp only [if_pos helem, if_pos hneigh, heoff, hnoff, List.length_nil, List.nil_append,
        List.length_singleton, ne_eq, not_true_eq_false, if_false]
      exact ⟨fun _ => by omega, fun _ => ⟨_, rfl⟩⟩
    · simp only [if_pos helem, if_neg hneigh, heoff, List.length_nil, ne_eq, not_true_eq_false,
        if_false]
      exact ⟨by rintro ⟨_, ⟨⟩⟩, fun h => by omega⟩
  · simp only [if_neg helem]
    exact ⟨by rintro ⟨_, ⟨⟩⟩, fun h => by omega⟩

def Sidecar.vectorPos (x : Sidecar) (i : ℕ) : ℕ :=
  96 + x.hdr.offsetLevel0 + i * x.hdr.sizeDataPerElement + x.hdr.offsetData

/-- The vectors are in their slots, and the block is in the stream. -/
structure Sidecar.VectorsHold (x : Sidecar) : Prop where
  slots : x.hdr.SlotsHold
  vector : x.hdr.offsetLevel0 + x.hdr.offsetData + x.dim * 4 ≤ x.hdr.sizeDataPerElement
  block : 96 + x.blockBytes ≤ x.stream.length

theorem Sidecar.VectorsHold.pos_le (h : x.VectorsHold) (hi : i < x.hdr.curElementCount) :
    x.vectorPos i + x.dim * 4 ≤ x.stream.length ∧
      InSlot x.hdr.sizeDataPerElement i (x.vectorPos i) (x.dim * 4) := by
  have hslot := HnswlibHeader.SlotsHold.slot_le hi
  have hvector := h.vector
  have hblock := h.block
  rw [h.slots.blockBytes_eq] at hblock
  rw [InSlot, Nat.succ_mul, Sidecar.vectorPos]
  omega

theorem cLong_natCast {n : ℕ} (h : n < 2 ^ 63) : cLong n = n := by
  refine (cLong_eq_iff.mpr ?_).symm
  omega

theorem Sidecar.VectorsHold.offsets (h : x.VectorsHold) (hi : i < x.hdr.curElementCount) :
    cSize (i * x.hdr.sizeDataPerElement) = i * x.hdr.sizeDataPerElement ∧
      cLong x.hdr.offsetLevel0 = x.hdr.offsetLevel0 ∧
      cLong (i * x.hdr.sizeDataPerElement : ℕ) = (i * x.hdr.sizeDataPerElement : ℕ) ∧
      cLong x.hdr.offsetData = x.hdr.offsetData ∧
      cLong (96 + x.hdr.offsetLevel0 + (i * x.hdr.sizeDataPerElement : ℕ) + x.hdr.offsetData)
        = (x.vectorPos i : ℕ) := by
  have hlt := x.stream_lt
  have hpos := (h.pos_le hi).1
  rw [Sidecar.vectorPos] at hpos
  refine ⟨cSize_natCast (h.slots.lt hi), cLong_natCast (by omega), cLong_natCast (by omega),
    cLong_natCast (by omega), ?_⟩
  exact cLong_natCast (n := x.vectorPos i) (by rw [Sidecar.vectorPos]; omega)

theorem writeElem_eq (hp : p.Of x) (h : x.VectorsHold) (hi : i < x.hdr.curElementCount) :
    x.writeElem p i e = (do
      sized (i * x.hdr.sizeDataPerElement) (i * x.hdr.sizeDataPerElement : ℕ)
      sized x.hdr.offsetLevel0 x.hdr.offsetLevel0
      sized (i * x.hdr.sizeDataPerElement : ℕ) (i * x.hdr.sizeDataPerElement : ℕ)
      sized x.hdr.offsetData x.hdr.offsetData
      sized (x.vectorPos i) (x.vectorPos i)
      raiseUnless True s!"pg_cuvs: fseek to vector for element {i} failed"
      emit (.access i .vector (x.vectorPos i) (x.dim * 4))
      raiseUnless (x.vectorPos i + x.dim * 4 ≤ x.stream.length)
        s!"pg_cuvs: short read on vector for element {i}"
      let vec := (List.range x.dim).map fun k =>
        UInt32.ofNat (wordAt 4 (x.vectorPos i + 4 * k) x.stream)
      let _ ← elemTupleSize x.dim x.width
      let nsize ← neighTupleSize e.level x.hdr.m
      raiseUnless (nsize ≤ maxAllocSize) s!"invalid memory alloc request size {nsize}"
      require (nsize = PgCuvs.neighTupleSize e.level x.hdr.m) .fault
      let page ← ofChecked (writeElemPage x.dim x.width x.hdr.m p.elems (e, vec))
      emit (.elemPage e.level)
      pure page) := by
  obtain ⟨hbase, hlevel0, helem, hdata, hsum⟩ := h.offsets hi
  have hnonneg : (0 : ℤ) ≤ (x.vectorPos i : ℤ) ↔ True := iff_true_intro (Int.natCast_nonneg _)
  rw [Sidecar.writeElem, hp.hdr, hp.width]
  simp only [hbase, hlevel0, helem, hdata, hsum, hnonneg, Int.toNat_natCast]
  rfl

theorem fits_le_alloc (h : x.Fits e.level) :
    PgCuvs.neighTupleSize e.level x.hdr.m ≤ maxAllocSize := by
  have hmax : maxAllocSize = 0x3fffffff := rfl
  rw [Sidecar.Fits] at h
  omega

theorem writeElem_exists (hp : p.Of x) (h : x.VectorsHold) (hi : i < x.hdr.curElementCount)
    (he : e.elemOffno = 1 ∧ e.neighOffno = 2) (hcount : CountFits e.level x.hdr.m) :
    (∃ page, (x.writeElem p i e).Returns page) ↔ x.Fits e.level := by
  have hlen := (h.pos_le hi).1
  simp only [writeElem_eq hp h hi, returns_bind, returns_sized, returns_raiseUnless, returns_emit,
    returns_elemTupleSize, returns_neighTupleSize, returns_require, returns_ofChecked,
    returns_pure, neighBytes_eq hcount]
  set vec : Vec := (List.range x.dim).map fun k =>
    UInt32.ofNat (wordAt 4 (x.vectorPos i + 4 * k) x.stream) with hvecDef
  have hvec : vec.length = x.dim := by rw [hvecDef, List.length_map, List.length_range]
  rw [Sidecar.Fits, ← writeElemPage_ok_iff (m := x.hdr.m) hvec he.1 he.2]
  constructor
  · rintro ⟨_, -, -, -, -, -, -, -, -, -, -, -, -, -, -, -, -, _, -, _, rfl, -, -, -, -, page, hpage, -⟩
    exact ⟨page, hpage⟩
  · rintro ⟨page, hpage⟩
    have hfits : x.Fits e.level := by
      rw [Sidecar.Fits, ← writeElemPage_ok_iff (m := x.hdr.m) hvec he.1 he.2]
      exact ⟨page, hpage⟩
    exact ⟨page, (), trivial, (), trivial, (), trivial, (), trivial, (), trivial, (), trivial, (),
      trivial, (), hlen, _, rfl, _, rfl, (), fits_le_alloc hfits, (), rfl, page, hpage, (), trivial,
      rfl⟩

theorem writeElem_defined (hp : p.Of x) (h : x.VectorsHold) (hi : i < x.hdr.curElementCount)
    (hcount : CountFits e.level x.hdr.m) : ¬ (x.writeElem p i e).Stops (· = .fault) := by
  simp only [writeElem_eq hp h hi, stops_bind, stops_sized, stops_raiseUnless, stops_emit,
    stops_elemTupleSize, stops_neighTupleSize, returns_neighTupleSize, stops_require,
    stops_ofChecked, stops_pure, neighBytes_eq hcount]
  simp

theorem writeElem_sound (hp : p.Of x) (h : x.VectorsHold) (hi : i < x.hdr.curElementCount)
    (he : e.elemOffno = 1 ∧ e.neighOffno = 2) (hlevel : e.level < 2 ^ 31) :
    (x.writeElem p i e).All (Event.Sound x.hdr.sizeDataPerElement)
      ↔ CountFits e.level x.hdr.m ∧ (x.Fits e.level → e.level < 2 ^ 8) := by
  have hm := x.hdr.m_lt
  have hpos := h.pos_le hi
  have hneigh : (neighTupleSize e.level x.hdr.m).All (Event.Sound x.hdr.sizeDataPerElement)
      ↔ CountFits e.level x.hdr.m :=
    neighTupleSize_sound_iff (by omega) (Int.natCast_nonneg _) (by omega)
  have hbase : (i : ℤ) * x.hdr.sizeDataPerElement = (i * x.hdr.sizeDataPerElement : ℕ) := rfl
  simp only [writeElem_eq hp h hi, all_bind, all_sized, all_raiseUnless, all_emit, all_require,
    all_ofChecked, all_pure, returns_sized, returns_raiseUnless, returns_emit,
    returns_elemTupleSize, returns_neighTupleSize, returns_require, returns_ofChecked,
    Event.Sound, hneigh, hbase, implies_true, and_true, true_and, forall_const, forall_eq']
  set vec : Vec := (List.range x.dim).map fun k =>
    UInt32.ofNat (wordAt 4 (x.vectorPos i + 4 * k) x.stream) with hvecDef
  have hvec : vec.length = x.dim := by rw [hvecDef, List.length_map, List.length_range]
  have hwrite : (∃ page, writeElemPage x.dim x.width x.hdr.m p.elems (e, vec) = .ok page)
      ↔ x.Fits e.level := writeElemPage_ok_iff hvec he.1 he.2
  constructor
  · rintro ⟨-, hrest⟩
    obtain ⟨-, hcount, hpage⟩ := hrest hpos.1
    refine ⟨hcount, fun hfits => ?_⟩
    obtain ⟨page, hok⟩ := hwrite.mpr hfits
    rw [neighBytes_eq hcount] at hpage
    exact hpage (fits_le_alloc hfits) rfl page hok
  · rintro ⟨hcount, hlevels⟩
    refine ⟨hpos.2, fun _ => ⟨elemTupleSize_sound (dim_lt x) x.width, hcount, ?_⟩⟩
    exact fun _ _ page hok => hlevels (hwrite.mp ⟨page, hok⟩)

theorem vectorsHold_of_sound (hp : p.Of x) (hslots : x.hdr.SlotsHold)
    (hblock : 96 + x.blockBytes ≤ x.stream.length)
    (h : (x.writeElem p 0 e).All (Event.Sound x.hdr.sizeDataPerElement)) : x.VectorsHold := by
  have hzero : cSize (((0 : ℕ) : ℤ) * (x.hdr.sizeDataPerElement : ℤ)) = 0 := by simp [cSize]
  simp only [Sidecar.writeElem, hp.hdr, all_bind, all_sized, returns_sized, all_raiseUnless,
    returns_raiseUnless, all_emit, Event.Sound, true_and, forall_const, hzero] at h
  obtain ⟨-, hlevel0, -, hdata, hsum, hrest⟩ := h
  rw [← hlevel0, ← hdata] at hsum hrest
  have hcast : cLong ((0 : ℕ) : ℤ) = 0 := by decide
  rw [hcast] at hsum hrest
  rw [← hsum] at hrest
  have haccess := (hrest (by omega)).1
  rw [InSlot] at haccess
  refine ⟨hslots, ?_, hblock⟩
  omega

end Write

section WritePass

variable {x : Sidecar} {p : Parsed}

theorem level_lt (x : Sidecar) (i : ℕ) : x.level i < 2 ^ 31 := by
  have hmul := levelAt_mul_le x x.hdr.m (x.upperAt i)
  have hsize := linkListSize_lt x.stream (x.upperAt i)
  have hfour : x.level i * 4 ≤ x.level i * ((x.hdr.m + 1) * 4) := Nat.mul_le_mul_left _ (by omega)
  have hle : x.level i * 4 ≤ linkListSize x.stream (x.upperAt i) := hfour.trans hmul
  omega

def Sidecar.LevelHolds (x : Sidecar) (i : ℕ) : Prop :=
  CountFits (x.level i) x.hdr.m ∧ (x.Fits (x.level i) → x.level i < 2 ^ 8)

theorem elem_of_lt (hp : p.Of x) {i : ℕ} (hi : i < x.hdr.curElementCount) :
    ∃ e, p.elems[i]? = some e ∧ p.elems.zipIdx[i]? = some (e, i) ∧ e.level = x.level i ∧
      e.elemOffno = 1 ∧ e.neighOffno = 2 := by
  have he := List.getElem?_eq_getElem (hp.length ▸ hi)
  exact ⟨_, he, getElem?_zipIdx_of he, hp.level i _ he, hp.offno _ (List.mem_of_getElem? he)⟩

theorem before_fits (hp : p.Of x) (h : x.VectorsHold)
    (hlevels : ∀ i < x.hdr.curElementCount, (∀ j < i, x.Fits (x.level j)) → x.LevelHolds i) {k : ℕ}
    (hk : k ≤ x.hdr.curElementCount) :
    Before (fun (e, i) => x.writeElem p i e) p.elems.zipIdx k ↔ ∀ j < k, x.Fits (x.level j) := by
  have hwrite : ∀ j < x.hdr.curElementCount, (∀ i < j, x.Fits (x.level i)) → ∀ e,
      p.elems[j]? = some e → ((∃ page, (x.writeElem p j e).Returns page) ↔ x.Fits (x.level j)) := by
    intro j hj hbefore e he
    have hlevel := hp.level j e he
    rw [← hlevel]
    exact writeElem_exists hp h hj (hp.offno e (List.mem_of_getElem? he))
      (hlevel ▸ (hlevels j hj hbefore).1)
  constructor
  · intro hbefore j
    induction j using Nat.strong_induction_on with
    | _ j ih =>
      intro hj
      obtain ⟨e, he, hidx, -⟩ := elem_of_lt hp (hj.trans_le hk)
      exact (hwrite j (hj.trans_le hk) (fun i hi => ih i hi (hi.trans hj)) e he).mp
        (hbefore j (e, j) hj hidx)
  · rintro hfits j ⟨e, i⟩ hj hidx
    obtain ⟨he, rfl⟩ := zipIdx_getElem? hidx
    exact (hwrite i (hj.trans_le hk) (fun k hki => hfits k (hki.trans hj)) e he).mpr (hfits i hj)

theorem levelHolds_of_sound (hp : p.Of x) (h : x.VectorsHold)
    (hall : (x.write p).All (Event.Sound x.hdr.sizeDataPerElement)) :
    ∀ i < x.hdr.curElementCount, (∀ j < i, x.Fits (x.level j)) → x.LevelHolds i := by
  simp only [Sidecar.write, all_bind, all_pure, implies_true, and_true, all_visitAll] at hall
  have hsound := hall.2 () (returns_emit.mpr trivial)
  intro i
  induction i using Nat.strong_induction_on with
  | _ i ih =>
    intro hi hfits
    obtain ⟨e, he, hidx, hlevel, hoff⟩ := elem_of_lt hp hi
    have hbefore : Before (fun (e, i) => x.writeElem p i e) p.elems.zipIdx i := by
      rintro j ⟨e', j'⟩ hj hidx'
      obtain ⟨he', rfl⟩ := zipIdx_getElem? hidx'
      have hj' := hj.trans hi
      have hlevel' := hp.level j' e' he'
      have hholds := ih j' hj hj' fun k hk => hfits k (hk.trans hj)
      refine (writeElem_exists hp h hj' (hp.offno e' (List.mem_of_getElem? he')) ?_).mpr ?_
      · rw [hlevel']
        exact hholds.1
      · rw [hlevel']
        exact hfits j' hj
    have hiff := writeElem_sound hp h hi hoff (hlevel ▸ level_lt x i)
    rw [hlevel] at hiff
    exact hiff.mp (hsound i (e, i) hidx hbefore)

theorem write_sound (hp : p.Of x) (h : x.VectorsHold)
    (hlevels : ∀ i < x.hdr.curElementCount, (∀ j < i, x.Fits (x.level j)) → x.LevelHolds i) :
    (x.write p).All (Event.Sound x.hdr.sizeDataPerElement) ∧
      ¬ (x.write p).Stops (· = .fault) := by
  have hholds : ∀ k e i, p.elems.zipIdx[k]? = some (e, i) →
      Before (fun (e, i) => x.writeElem p i e) p.elems.zipIdx k →
      i < x.hdr.curElementCount ∧ (e.elemOffno = 1 ∧ e.neighOffno = 2) ∧ e.level = x.level i ∧
        x.LevelHolds i := by
    intro k e i hidx hbefore
    obtain ⟨he, rfl⟩ := zipIdx_getElem? hidx
    have hi : i < x.hdr.curElementCount := hp.length ▸ (List.getElem?_eq_some_iff.mp he).1
    exact ⟨hi, hp.offno e (List.mem_of_getElem? he), hp.level i e he,
      hlevels i hi ((before_fits hp h hlevels hi.le).mp hbefore)⟩
  constructor
  · simp only [Sidecar.write, all_bind, all_emit, all_pure, implies_true, and_true, all_visitAll]
    refine ⟨trivial, fun _ _ k q hidx hbefore => ?_⟩
    obtain ⟨hi, hoff, hlevel, hhold⟩ := hholds k q.1 q.2 hidx hbefore
    refine (writeElem_sound hp h hi hoff (hlevel ▸ level_lt x q.2)).mpr ?_
    rw [hlevel]
    exact hhold
  · simp only [Sidecar.write, stops_bind, stops_emit, stops_pure, stops_visitAll, false_or,
      and_false, exists_false, or_false]
    rintro ⟨-, -, k, q, hidx, hbefore, hstop⟩
    obtain ⟨hi, hoff, hlevel, hhold⟩ := hholds k q.1 q.2 hidx hbefore
    refine writeElem_defined hp h hi ?_ hstop
    rw [hlevel]
    exact hhold.1

end WritePass

section Safe

variable {x : Sidecar} {p : Parsed}

/-- The fill raises an error before it writes a page, or all it does is in bounds. -/
def Sidecar.Safe (x : Sidecar) : Prop :=
  RefusesFirst x.fillHnswFromHnswlib ∨ InBounds x.hdr.sizeDataPerElement x.fillHnswFromHnswlib

theorem refusesFirst_iff : RefusesFirst x.fillHnswFromHnswlib ↔ x.Refused := by
  rw [← parse_refuses_iff]
  constructor
  · rintro ⟨⟨msg, hmsg⟩, hpage⟩
    have hstop : x.fillHnswFromHnswlib.Stops Stop.IsError := ⟨_, hmsg, msg, rfl⟩
    rw [Sidecar.fillHnswFromHnswlib, stops_bind] at hstop
    rcases hstop with hstop | ⟨p, hp, -⟩
    · exact hstop
    · have hall : x.fillHnswFromHnswlib.All fun e => ¬ e.IsPage := hpage
      rw [Sidecar.fillHnswFromHnswlib, all_bind] at hall
      have hmeta := hall.2 p hp
      simp only [Sidecar.write, all_bind, all_emit] at hmeta
      exact (hmeta.1 trivial).elim
  · intro h
    obtain ⟨s, hs, msg, rfl⟩ := (stops_bind.mpr (Or.inl h) :
      x.fillHnswFromHnswlib.Stops Stop.IsError)
    refine ⟨⟨msg, hs⟩, ?_⟩
    change x.fillHnswFromHnswlib.All fun e => ¬ e.IsPage
    refine all_bind.mpr ⟨parse_unwritten x, fun p hp => ?_⟩
    obtain ⟨s', hs', -⟩ := h
    cases hp.symm.trans hs'

theorem parseHeader_sound_iff {slot : ℕ} (h : 96 ≤ x.stream.length) :
    x.parseHeader.All (Event.Sound slot) ↔ x.hdr.M < 2 ^ 31 ∧ x.hdr.maxM0 < 2 ^ 31 := by
  obtain ⟨hdr, hread⟩ := readHnswlibHeader_takes x.stream h
  have hhdr : x.hdr = hdr := by rw [Sidecar.hdr, hread]; rfl
  rw [Sidecar.parseHeader, hread, hhdr]
  simp only [all_bind, all_sized, returns_sized, all_raiseUnless, all_pure, implies_true,
    and_true, forall_const, Event.Sound, cInt_eq_iff]
  omega

theorem parseTids_sound {slot : ℕ} (hdr : HnswlibHeader) (metric : Metric) :
    (x.parseTids hdr metric).All (Event.Sound slot) := by
  rw [Sidecar.parseTids]
  cases cuvsTidsRead x.tids with
  | none => exact all_raise.mpr trivial
  | some p => simp

/-- The parser's events are sound when it returns only if the header's fields agree. -/
theorem parse_sound (hp : x.parse.Returns p)
    (h : x.parse.All (Event.Sound x.hdr.sizeDataPerElement)) :
    (x.hdr.M < 2 ^ 31 ∧ x.hdr.maxM0 < 2 ^ 31) ∧ x.hdr.SlotsHold ∧
      CountFits x.hdr.maxlevel x.hdr.m := by
  obtain ⟨ha, -⟩ := parse_returns hp
  simp only [Sidecar.parse, returns_bind, returns_ofChecked, parseHeader_returns] at hp
  obtain ⟨⟨width, metric⟩, htarget, _, ⟨hheader, rfl, hempty, hdegree⟩, hp⟩ := hp
  simp only [returns_raiseUnless] at hp
  obtain ⟨⟨tidsHdr, tids⟩, htids, level0, hlevel0, elems, hupper, -⟩ := hp
  simp only [Sidecar.parse, all_bind] at h
  obtain ⟨hhdr, h⟩ := h.2 _ (returns_ofChecked.mpr htarget)
  have h := ((h x.hdr (parseHeader_returns.mpr ⟨hheader, rfl, hempty, hdegree⟩)).2 _ htids)
  refine ⟨(parseHeader_sound_iff hheader).mp hhdr, slotsHold_of_level0 hempty hlevel0 h.1, ?_⟩
  exact countFits_of_sound ha.dim_pos (maxlevel_lt x) x.hdr.m_lt
    ((h.2 _ hlevel0).2 _ hupper).1

theorem Sidecar.Tight.parse_sound (h : x.Tight) :
    x.parse.All (Event.Sound x.hdr.sizeDataPerElement) := by
  simp only [Sidecar.parse, all_bind, all_ofChecked, returns_ofChecked, parseHeader_returns,
    all_raiseUnless, all_pure, implies_true, and_true, true_and]
  rintro ⟨width, metric⟩ htarget
  have hhdr : x.parseHeader.All (Event.Sound x.hdr.sizeDataPerElement) := by
    rcases Nat.lt_or_ge x.stream.length 96 with hshort | hlen
    · rw [Sidecar.parseHeader]
      cases hread : readHnswlibHeader x.stream with
      | none => exact all_raise.mpr trivial
      | some p => exact absurd (readHnswlibHeader_eq_some hread).1 (Nat.not_le.mpr hshort)
    · exact (parseHeader_sound_iff hlen).mpr ⟨h.degree, h.degree0⟩
  refine ⟨hhdr, ?_⟩
  rintro _ ⟨-, rfl, -⟩
  refine ⟨parseTids_sound x.hdr metric, fun tids _ => ⟨parseLevel0_sound h.slots, fun _ _ =>
    ⟨parseUpper_sound x.hdr.m_lt, fun _ _ => ?_⟩⟩⟩
  exact checkHnswPageFit_sound (dim_lt x) (maxlevel_lt x) x.hdr.m_lt h.maxlevel

theorem Sidecar.Tight.needed_ne_zero (h : x.Tight) : x.needed ≠ 0 := by
  have hm := x.hdr.m_lt
  have hsum := @pairNeeded_eq x.dim x.width x.hdr.m x.hdr.maxlevel (dim_lt x) (maxlevel_lt x)
    (Int.natCast_nonneg _) (by omega) h.maxlevel
  rw [Sidecar.needed]
  omega

theorem tight_of_inBounds (h : InBounds x.hdr.sizeDataPerElement x.fillHnswFromHnswlib)
    (hp : x.parse.Returns p) : x.Tight := by
  obtain ⟨-, hall⟩ := inBounds_iff.mp h
  rw [Sidecar.fillHnswFromHnswlib, all_bind] at hall
  obtain ⟨hparse, hwrite⟩ := hall
  obtain ⟨ha, hof⟩ := parse_returns hp
  obtain ⟨⟨hdegree, hdegree0⟩, hslots, hmaxlevel⟩ := parse_sound hp hparse
  have hwrite := hwrite p hp
  obtain ⟨e, -, hidx, -⟩ := elem_of_lt hof (Nat.pos_of_ne_zero ha.nonempty)
  have hfirst : (x.writeElem p 0 e).All (Event.Sound x.hdr.sizeDataPerElement) := by
    have hsplit := hwrite
    simp only [Sidecar.write, all_bind, all_pure, implies_true, and_true, all_visitAll] at hsplit
    exact hsplit.2 () (returns_emit.mpr trivial) 0 (e, 0) hidx before_zero
  have hvectors := vectorsHold_of_sound hof hslots ha.block hfirst
  exact ⟨hdegree, hdegree0, hslots, hvectors.vector, hmaxlevel,
    levelHolds_of_sound hof hvectors hwrite⟩

theorem inBounds_of_tight (h : x.Tight) :
    InBounds x.hdr.sizeDataPerElement x.fillHnswFromHnswlib := by
  have hwrite : ∀ p, x.parse.Returns p →
      (x.write p).All (Event.Sound x.hdr.sizeDataPerElement) ∧
        ¬ (x.write p).Stops (· = .fault) := by
    intro p hp
    obtain ⟨ha, hof⟩ := parse_returns hp
    exact write_sound hof ⟨h.slots, h.vector, ha.block⟩ h.levels
  rw [inBounds_iff, Sidecar.fillHnswFromHnswlib, stops_bind, all_bind]
  refine ⟨?_, h.parse_sound, fun p hp => (hwrite p hp).1⟩
  rintro (hstop | ⟨p, hp, hstop⟩)
  · obtain ⟨-, msg, hmsg⟩ | ⟨hfault, -⟩ := parse_stops hstop
    · exact nomatch hmsg
    · cases hfault with
      | element hc hi _ hread => exact hread (h.slots.reads hc.block hi)
      | division _ _ _ hzero => exact h.needed_ne_zero hzero
  · exact (hwrite p hp).2 hstop

theorem fillHnswFromHnswlib_safe_iff (x : Sidecar) : x.Safe ↔ x.Refused ∨ x.Tight := by
  rw [Sidecar.Safe, refusesFirst_iff]
  constructor
  · rintro (hr | hin)
    · exact Or.inl hr
    · cases hres : x.parse.result with
      | ok p => exact Or.inr (tight_of_inBounds hin hres)
      | error s =>
        cases s with
        | error msg => exact Or.inl (parse_refuses_iff.mp ⟨_, hres, msg, rfl⟩)
        | fault =>
          have hstop : x.fillHnswFromHnswlib.Stops (· = .fault) :=
            stops_bind.mpr (Or.inl ⟨_, hres, rfl⟩)
          exact absurd hstop (inBounds_iff.mp hin).1
  · rintro (hr | htight)
    · exact Or.inl hr
    · exact Or.inr (inBounds_of_tight htight)

def sampleStream : List UInt8 :=
  leBytes 8 0 ++ leBytes 8 1 ++ leBytes 8 1 ++ leBytes 8 20 ++ leBytes 8 12 ++ leBytes 8 20 ++
    leBytes 4 0 ++ leBytes 4 0 ++ leBytes 8 1 ++ leBytes 8 2 ++ leBytes 8 1 ++ leBytes 8 0 ++
    leBytes 8 10 ++ List.replicate 20 0 ++ leBytes 4 0

def sampleSidecar : Sidecar where
  pgvector := true
  cagraOid := 1
  atttypmod := 1
  hnswOid := 2
  target := some ⟨"h", true, true, some (1, "vector"), .l2⟩
  stream := sampleStream
  stream_lt := by decide +kernel
  tids := cuvsTidsWrite 1 .l2 [65537]

/-- The element's vector is taken from the upper link lists, and written. -/
theorem fillHnswFromHnswlib_foreign_vector : ¬ sampleSidecar.Safe := by
  have hpage : Event.metaPage ∈ sampleSidecar.fillHnswFromHnswlib.events := by decide +kernel
  have hread : Event.access 0 .vector 116 4 ∈ sampleSidecar.fillHnswFromHnswlib.events := by
    decide +kernel
  rintro (h | h)
  · exact h.unwritten _ hpage trivial
  · have hslot := h.slots 0 .vector 116 4 hread
    have hsize : sampleSidecar.hdr.sizeDataPerElement = 20 := by decide +kernel
    rw [InSlot, hsize] at hslot
    omega

end Safe

end Hnswlib

end PgCuvs
