import PgCuvs.Export.Hnswlib

/-! When the hnswlib parser stays inside the slots of the elements, and which streams its
checks refuse. -/

namespace PgCuvs

namespace Hnswlib

open Records Traced

section Machine

theorem cSize_natCast {n : ℕ} (h : n < 2 ^ 64) : cSize n = n := by
  unfold cSize
  omega

theorem cSize_eq_iff {z : ℤ} : (z = (cSize z : ℤ)) ↔ 0 ≤ z ∧ z < 2 ^ 64 := by
  unfold cSize
  omega

theorem cSize_mul_iff {a b : ℕ} : ((a : ℤ) * b = (cSize (a * b) : ℤ)) ↔ a * b < 2 ^ 64 := by
  rw [cSize_eq_iff]
  constructor
  · rintro ⟨-, h⟩
    exact_mod_cast h
  · intro h
    exact ⟨Int.mul_nonneg (Int.natCast_nonneg a) (Int.natCast_nonneg b), by exact_mod_cast h⟩

theorem cSize_le {z : ℤ} {n : ℕ} (hz : 0 ≤ z) (h : z ≤ n) : cSize z ≤ n := by
  unfold cSize
  omega

theorem cInt_eq_iff {z : ℤ} : z = cInt z ↔ -2 ^ 31 ≤ z ∧ z < 2 ^ 31 := by
  rw [cInt, Int.bmod_def]
  split_ifs <;> omega

theorem cInt_bounds (z : ℤ) : -2 ^ 31 ≤ cInt z ∧ cInt z < 2 ^ 31 := by
  rw [cInt, Int.bmod_def]
  split_ifs <;> omega

theorem cLong_eq_iff {z : ℤ} : z = cLong z ↔ -2 ^ 63 ≤ z ∧ z < 2 ^ 63 := by
  rw [cLong, Int.bmod_def]
  split_ifs <;> omega

theorem cInt_mul (a b : ℤ) : cInt (cInt a * b) = cInt (a * b) := Int.bmod_mul_bmod

theorem cSize_cInt_eq_iff {z : ℤ} (h : z < 2 ^ 63) :
    z = (cSize (cInt z) : ℤ) ↔ 0 ≤ z ∧ z < 2 ^ 31 := by
  have hle := cInt_bounds z
  have hmod : (2 ^ 32 : ℤ) ∣ z - cInt z := Int.dvd_self_sub_bmod
  unfold cSize
  omega

theorem HnswlibHeader.m_lt (hdr : HnswlibHeader) : hdr.m < 2 ^ 31 := by
  have := cInt_bounds hdr.M
  unfold m
  omega

theorem HnswlibHeader.m0_lt (hdr : HnswlibHeader) : hdr.m0 < 2 ^ 31 := by
  have := cInt_bounds hdr.maxM0
  unfold m0
  omega

end Machine

section Property

variable {α : Type}

/-- The bytes `pos ..< pos + len` of the stream are in the slot of element `i`. -/
def InSlot (slot i pos len : ℕ) : Prop := 96 + i * slot ≤ pos ∧ pos + len ≤ 96 + (i + 1) * slot

structure RefusesFirst (r : Fill α) : Prop where
  refuses : ∃ msg, r.result = .error (.error msg)
  unwritten : ∀ e ∈ r.events, ¬ e.IsPage

structure InBounds (slot : ℕ) (r : Fill α) : Prop where
  defined : r.result ≠ .error .fault
  slots : ∀ i field pos len, .access i field pos len ∈ r.events → InSlot slot i pos len
  buffers : ∀ off len size, .upper off len size ∈ r.events → off + len ≤ size
  sizes : ∀ intended computed, .size intended computed ∈ r.events → intended = computed
  levels : ∀ level, .elemPage level ∈ r.events → level < 2 ^ 8
  sameSlot : ∀ i pos len pos' len', .access i .links pos len ∈ r.events →
    .access i .vector pos' len' ∈ r.events →
      ∃ j, InSlot slot j pos len ∧ InSlot slot j pos' len'

def Event.Sound (slot : ℕ) : Event → Prop
  | .access i _ pos len => InSlot slot i pos len
  | .upper off len room => off + len ≤ room
  | .size intended computed => intended = computed
  | .metaPage => True
  | .elemPage level => level < 2 ^ 8

def Stop.IsError (s : Stop) : Prop := ∃ msg, s = .error msg

theorem inBounds_iff {slot : ℕ} {r : Fill α} :
    InBounds slot r ↔ ¬ r.Stops (· = .fault) ∧ r.All (Event.Sound slot) := by
  constructor
  · intro h
    refine ⟨fun ⟨s, hs, hfault⟩ => h.defined (hfault ▸ hs), fun e he => ?_⟩
    cases e with
    | access i field pos len => exact h.slots i field pos len he
    | upper off len size => exact h.buffers off len size he
    | size intended computed => exact h.sizes intended computed he
    | metaPage => trivial
    | elemPage level => exact h.levels level he
  · rintro ⟨hdefined, hall⟩
    have hslots : ∀ i field pos len, .access i field pos len ∈ r.events → InSlot slot i pos len :=
      fun i field pos len he => hall _ he
    exact {
      defined := fun hfault => hdefined ⟨_, hfault, rfl⟩
      slots := hslots
      buffers := fun off len size he => hall _ he
      sizes := fun intended computed he => hall _ he
      levels := fun level he => hall _ he
      sameSlot := fun i pos len pos' len' hlinks hvector =>
        ⟨i, hslots i _ _ _ hlinks, hslots i _ _ _ hvector⟩ }

@[simp] theorem all_sized {P : Event → Prop} {intended computed : ℤ} :
    (sized intended computed).All P ↔ P (.size intended computed) :=
  all_emit

@[simp] theorem returns_sized {intended computed : ℤ} {u : Unit} :
    (sized intended computed).Returns u ↔ True :=
  returns_emit

@[simp] theorem stops_sized {intended computed : ℤ} {S : Stop → Prop} :
    (sized intended computed).Stops S ↔ False :=
  stops_emit

@[simp] theorem all_raise {P : Event → Prop} {msg : String} :
    (raise msg : Fill α).All P ↔ True :=
  all_stop

@[simp] theorem returns_raise {msg : String} {a : α} : (raise msg : Fill α).Returns a ↔ False :=
  returns_stop

@[simp] theorem stops_raise {msg : String} {S : Stop → Prop} :
    (raise msg : Fill α).Stops S ↔ S (.error msg) :=
  stops_stop

section Unless

variable {c : Prop} [Decidable c] {msg : String}

@[simp] theorem all_raiseUnless {P : Event → Prop} : (raiseUnless c msg).All P ↔ True :=
  all_require

@[simp] theorem returns_raiseUnless {u : Unit} : (raiseUnless c msg).Returns u ↔ c :=
  returns_require

@[simp] theorem stops_raiseUnless {S : Stop → Prop} :
    (raiseUnless c msg).Stops S ↔ ¬ c ∧ S (.error msg) :=
  stops_require

end Unless

@[simp] theorem all_ofChecked {P : Event → Prop} {r : Except String α} :
    (ofChecked r).All P ↔ True := by
  cases r <;> simp [ofChecked]

@[simp] theorem returns_ofChecked {r : Except String α} {a : α} :
    (ofChecked r).Returns a ↔ r = .ok a := by
  cases r <;> simp [ofChecked]

@[simp] theorem stops_ofChecked {r : Except String α} {S : Stop → Prop} :
    (ofChecked r).Stops S ↔ ∃ msg, r = .error msg ∧ S (.error msg) := by
  cases r <;> simp [ofChecked]

@[simp] theorem isError_error {msg : String} : Stop.IsError (.error msg) ↔ True :=
  ⟨fun _ => trivial, fun _ => ⟨msg, rfl⟩⟩

@[simp] theorem isError_fault : Stop.IsError .fault ↔ False :=
  ⟨fun ⟨_, h⟩ => (nomatch h), False.elim⟩

end Property

section Geometry

variable {dim : ℕ} {width : ElemWidth} {m level : ℤ} {slot : ℕ}

def elemBytes (dim : ℕ) (width : ElemWidth) : ℕ := aligned (cSize (72 + 8 + dim * width.bytesPerDim + 7))

def neighBytes (level m : ℤ) : ℕ :=
  aligned (cSize (4 + cSize (cInt (cInt (level + 2) * m)) * 6 + 7))

def pairNeeded (dim : ℕ) (width : ElemWidth) (m level : ℤ) : ℕ :=
  cSize (elemBytes dim width + 2 * 4 + neighBytes level m + 2 * 4)

@[simp] theorem returns_elemTupleSize {n : ℕ} :
    (elemTupleSize dim width).Returns n ↔ elemBytes dim width = n := by
  simp [elemTupleSize, elemBytes]

@[simp] theorem stops_elemTupleSize {S : Stop → Prop} :
    (elemTupleSize dim width).Stops S ↔ False := by
  simp [elemTupleSize]

@[simp] theorem returns_neighTupleSize {n : ℕ} :
    (neighTupleSize level m).Returns n ↔ neighBytes level m = n := by
  simp [neighTupleSize, neighBytes]

@[simp] theorem stops_neighTupleSize {S : Stop → Prop} :
    (neighTupleSize level m).Stops S ↔ False := by
  simp [neighTupleSize]

theorem ElemWidth.bytesPerDim_le (width : ElemWidth) : width.bytesPerDim ≤ 4 := by
  cases width <;> decide

theorem elemSum_lt (hdim : dim < 2 ^ 31) (width : ElemWidth) :
    72 + 8 + dim * width.bytesPerDim + 7 < 2 ^ 64 := by
  have := Nat.mul_le_mul_left dim (ElemWidth.bytesPerDim_le width)
  omega

theorem elemBytes_eq (hdim : dim < 2 ^ 31) (width : ElemWidth) :
    elemBytes dim width = PgCuvs.elemTupleSize dim width :=
  congrArg aligned (cSize_natCast (elemSum_lt hdim width))

theorem elemTupleSize_sound (hdim : dim < 2 ^ 31) (width : ElemWidth) :
    (elemTupleSize dim width).All (Event.Sound slot) := by
  have hsum := elemSum_lt hdim width
  simp only [elemTupleSize, all_bind, all_sized, all_pure, implies_true, and_true, Event.Sound]
  rw [cSize_eq_iff]
  omega

def CountFits (level m : ℤ) : Prop := 0 ≤ (level + 2) * m ∧ (level + 2) * m < 2 ^ 31

theorem neighTupleSize_sound_iff (hlevel : level < 2 ^ 31) (hm : 0 ≤ m) (hm' : m < 2 ^ 31) :
    (neighTupleSize level m).All (Event.Sound slot) ↔ CountFits level m := by
  have hle : (level + 2) * m ≤ (2 ^ 31 + 1) * m :=
    Int.mul_le_mul_of_nonneg_right (by omega) hm
  have hcount : (level + 2) * m = (cSize (cInt (cInt (level + 2) * m)) : ℤ)
      ↔ CountFits level m := by
    rw [cInt_mul]
    exact cSize_cInt_eq_iff (by omega)
  simp only [neighTupleSize, all_bind, all_sized, all_pure, implies_true, and_true, Event.Sound,
    hcount]
  refine ⟨fun h => h.1, fun h => ⟨h, fun _ _ => ?_⟩⟩
  have hsize := hcount.mpr h
  obtain ⟨hpos, hlt⟩ := h
  rw [← hsize, cSize_eq_iff]
  omega

theorem neighBytes_eq {level m : ℕ} (h : CountFits level m) :
    neighBytes level m = PgCuvs.neighTupleSize level m := by
  have hlt : (level + 2) * m < 2 ^ 31 := by exact_mod_cast h.2
  have hcount : cSize (cInt (cInt ((level : ℤ) + 2) * m)) = (level + 2) * m := by
    have hint : (((level + 2) * m : ℕ) : ℤ) = cInt ((level + 2) * m : ℕ) := by
      rw [cInt_eq_iff]
      omega
    rw [cInt_mul]
    exact (congrArg cSize hint.symm).trans (cSize_natCast (by omega))
  rw [neighBytes, hcount]
  have hsum : 4 + (level + 2) * m * 6 + 7 < 2 ^ 64 := by omega
  exact congrArg aligned (cSize_natCast hsum)

theorem neighBytes_le (hlevel : level < 2 ^ 31) (hm : 0 ≤ m) (hm' : m < 2 ^ 31)
    (h : CountFits level m) : neighBytes level m ≤ 2 ^ 34 := by
  have hle : (level + 2) * m ≤ (2 ^ 31 + 1) * m :=
    Int.mul_le_mul_of_nonneg_right (by omega) hm
  have hcount : (level + 2) * m = (cSize (cInt (cInt (level + 2) * m)) : ℤ) := by
    rw [cInt_mul, cSize_cInt_eq_iff (by omega)]
    exact h
  obtain ⟨hpos, hlt⟩ := h
  rw [neighBytes, ← hcount]
  exact (Nat.div_mul_le_self _ 8).trans (cSize_le (by omega) (by omega))

theorem pairNeeded_eq (hdim : dim < 2 ^ 31) (hlevel : level < 2 ^ 31) (hm : 0 ≤ m)
    (hm' : m < 2 ^ 31) (h : CountFits level m) :
    (elemBytes dim width + 2 * 4 + neighBytes level m + 2 * 4 : ℤ)
      = pairNeeded dim width m level := by
  have hneigh := neighBytes_le hlevel hm hm' h
  have helem : elemBytes dim width ≤ 72 + 8 + dim * width.bytesPerDim + 7 := by
    rw [elemBytes_eq hdim]
    exact Nat.div_mul_le_self _ 8
  have hdimBytes := Nat.mul_le_mul_left dim (ElemWidth.bytesPerDim_le width)
  rw [pairNeeded, cSize_eq_iff]
  omega

theorem elemsPerPage_sound (hdim : dim < 2 ^ 31) (hlevel : level < 2 ^ 31) (hm : 0 ≤ m)
    (hm' : m < 2 ^ 31) (h : CountFits level m) :
    (elemsPerPage dim width m level).All (Event.Sound slot) := by
  simp only [elemsPerPage, all_bind, all_raiseUnless, all_sized, all_require, all_pure,
    returns_elemTupleSize, returns_neighTupleSize, implies_true, and_true, true_and, Event.Sound]
  rintro - -
  refine ⟨elemTupleSize_sound hdim width, ?_⟩
  rintro _ rfl
  refine ⟨(neighTupleSize_sound_iff hlevel hm hm').mpr h, ?_⟩
  rintro _ rfl
  exact pairNeeded_eq hdim hlevel hm hm' h

end Geometry

section Level0

variable (hdr : HnswlibHeader) (tidsHdr : TidsHeader) (tids : List Tid) (block : List UInt8) (i : ℕ)

def HnswlibHeader.base : ℕ := cSize (i * hdr.sizeDataPerElement)

/-- What is read of the element lies in the block. -/
def HnswlibHeader.Reads : Prop :=
  hdr.base i + hdr.offsetLevel0 + 4 + hdr.m0 * 4 ≤ block.length ∧
    hdr.base i + hdr.labelOffset + 8 ≤ block.length

def HnswlibHeader.label : ℕ := leNat ((block.drop (hdr.base i + hdr.labelOffset)).take 8)

variable {hdr tidsHdr tids block i}

@[simp] theorem returns_readSlot {field : Field} {off len : ℕ} {b : List UInt8} :
    (readSlot block i field off len).Returns b
      ↔ off + len ≤ block.length ∧ (block.drop off).take len = b := by
  simp [readSlot]

@[simp] theorem stops_readSlot {field : Field} {off len : ℕ} {S : Stop → Prop} :
    (readSlot block i field off len).Stops S ↔ ¬ off + len ≤ block.length ∧ S .fault := by
  simp [readSlot]

@[simp] theorem all_readSlot {field : Field} {off len : ℕ} {P : Event → Prop} :
    (readSlot block i field off len).All P ↔ P (.access i field (96 + off) len) := by
  simp [readSlot]

theorem m0_bytes (hdr : HnswlibHeader) : cSize (hdr.m0 * 4) = hdr.m0 * 4 := by
  have hlt : hdr.m0 * 4 < 2 ^ 64 := by
    have := hdr.m0_lt
    omega
  exact cSize_natCast hlt

theorem parseElem_returns {e : ElemDesc} (h : (parseElem hdr tidsHdr tids block i).Returns e) :
    hdr.Reads block i ∧ hdr.label block i < tidsHdr.nVecs ∧ e.level = 0 := by
  simp only [parseElem, returns_bind, returns_sized, returns_readSlot, returns_raiseUnless,
    returns_pure, m0_bytes] at h
  obtain ⟨-, -, -, ⟨-, -⟩, -, -, links, ⟨hlinks, -⟩, label, ⟨hlabel, rfl⟩, -, hlt, rfl⟩ := h
  refine ⟨⟨?_, hlabel⟩, hlt, rfl⟩
  exact hlinks

theorem parseElem_exists (hread : hdr.Reads block i) (hlabel : hdr.label block i < tidsHdr.nVecs) :
    ∃ e, (parseElem hdr tidsHdr tids block i).Returns e := by
  obtain ⟨hlinks, hend⟩ := hread
  simp only [parseElem, returns_bind, returns_sized, returns_readSlot, returns_raiseUnless,
    returns_pure, m0_bytes]
  refine ⟨_, (), trivial, _, ⟨?_, rfl⟩, (), trivial, _, ⟨hlinks, rfl⟩, _, ⟨hend, rfl⟩, (), hlabel, rfl⟩
  exact (Nat.le_add_right _ _).trans hlinks

theorem parseElem_stops {S : Stop → Prop} :
    (parseElem hdr tidsHdr tids block i).Stops S
      ↔ (¬ hdr.Reads block i ∧ S .fault) ∨
        (hdr.Reads block i ∧ tidsHdr.nVecs ≤ hdr.label block i ∧
          S (.error s!"pg_cuvs: .hnsw element {i} has label {hdr.label block i} but .tids has only {tidsHdr.nVecs} entries")) := by
  simp only [parseElem, stops_bind, returns_sized, stops_sized, returns_readSlot, stops_readSlot,
    stops_raiseUnless, stops_pure, m0_bytes, false_or, true_and, and_false, exists_false, or_false,
    exists_const, Nat.not_lt]
  constructor
  · rintro (⟨hcount, hS⟩ | ⟨_, ⟨-, -⟩, ⟨hlinks, hS⟩ | ⟨_, ⟨hlinks, -⟩, ⟨hend, hS⟩ | ⟨_, ⟨hend, rfl⟩, hlabel, hS⟩⟩⟩)
    · exact Or.inl ⟨fun h => hcount ((Nat.le_add_right _ _).trans h.1), hS⟩
    · exact Or.inl ⟨fun h => hlinks h.1, hS⟩
    · exact Or.inl ⟨fun h => hend h.2, hS⟩
    · exact Or.inr ⟨⟨hlinks, hend⟩, hlabel, hS⟩
  · rintro (⟨hread, hS⟩ | ⟨⟨hlinks, hend⟩, hlabel, hS⟩)
    · by_cases hcount : hdr.base i + hdr.offsetLevel0 + 4 ≤ block.length
      · refine Or.inr ⟨_, ⟨hcount, rfl⟩, ?_⟩
        by_cases hlinks : hdr.base i + hdr.offsetLevel0 + 4 + hdr.m0 * 4 ≤ block.length
        · exact Or.inr ⟨_, ⟨hlinks, rfl⟩, Or.inl ⟨fun hend => hread ⟨hlinks, hend⟩, hS⟩⟩
        · exact Or.inl ⟨hlinks, hS⟩
      · exact Or.inl ⟨hcount, hS⟩
    · refine Or.inr ⟨_, ⟨(Nat.le_add_right _ _).trans hlinks, rfl⟩, Or.inr ⟨_, ⟨hlinks, rfl⟩, ?_⟩⟩
      exact Or.inr ⟨_, ⟨hend, rfl⟩, hlabel, hS⟩

theorem parseElem_sound_iff {slot : ℕ} (hread : hdr.Reads block i) :
    (parseElem hdr tidsHdr tids block i).All (Event.Sound slot)
      ↔ i * hdr.sizeDataPerElement < 2 ^ 64 ∧
        InSlot slot i (96 + (hdr.base i + hdr.offsetLevel0)) 4 ∧
        InSlot slot i (96 + (hdr.base i + hdr.offsetLevel0 + 4)) (hdr.m0 * 4) ∧
        InSlot slot i (96 + (hdr.base i + hdr.labelOffset)) 8 := by
  obtain ⟨hlinks, hend⟩ := hread
  have hcount : hdr.base i + hdr.offsetLevel0 + 4 ≤ block.length :=
    (Nat.le_add_right _ _).trans hlinks
  simp only [parseElem, all_bind, all_sized, returns_sized, all_readSlot, returns_readSlot,
    all_raiseUnless, all_pure, m0_bytes, Event.Sound, cSize_mul_iff, implies_true, and_true,
    forall_const]
  constructor
  · rintro ⟨hwrap, hfirst, hrest⟩
    obtain ⟨-, hsecond, hthird⟩ := hrest _ ⟨hcount, rfl⟩
    exact ⟨hwrap, hfirst, hsecond, hthird _ ⟨hlinks, rfl⟩⟩
  · rintro ⟨hwrap, hfirst, hsecond, hthird⟩
    exact ⟨hwrap, hfirst, fun _ _ => ⟨rfl, hsecond, fun _ _ => hthird⟩⟩

end Level0

section Block

variable (x : Sidecar)

def Sidecar.hdr : HnswlibHeader := ((readHnswlibHeader x.stream).map Prod.fst).getD default

def Sidecar.blockBytes : ℕ := cSize (x.hdr.curElementCount * x.hdr.sizeDataPerElement)

def Sidecar.block : List UInt8 := (x.stream.drop 96).take x.blockBytes

/-- The header's offsets keep what is read of an element inside its slot. -/
structure HnswlibHeader.SlotsHold (hdr : HnswlibHeader) : Prop where
  block : hdr.curElementCount * hdr.sizeDataPerElement < 2 ^ 64
  links : hdr.offsetLevel0 + 4 + hdr.m0 * 4 ≤ hdr.sizeDataPerElement
  label : hdr.labelOffset + 8 ≤ hdr.sizeDataPerElement

variable {x} {tidsHdr : TidsHeader} {tids : List Tid} {i : ℕ}

theorem block_length (h : 96 + x.blockBytes ≤ x.stream.length) :
    x.block.length = x.blockBytes := by
  rw [Sidecar.block, List.length_take, List.length_drop]
  omega

namespace HnswlibHeader.SlotsHold

variable {hdr : HnswlibHeader}

theorem slot_le (hi : i < hdr.curElementCount) :
    i * hdr.sizeDataPerElement + hdr.sizeDataPerElement
      ≤ hdr.curElementCount * hdr.sizeDataPerElement := by
  rw [← Nat.succ_mul]
  exact Nat.mul_le_mul_right _ hi

theorem lt (h : hdr.SlotsHold) (hi : i < hdr.curElementCount) :
    i * hdr.sizeDataPerElement < 2 ^ 64 := by
  have := slot_le hi
  have := h.block
  omega

theorem base_eq (h : hdr.SlotsHold) (hi : i < hdr.curElementCount) :
    hdr.base i = i * hdr.sizeDataPerElement :=
  cSize_natCast (h.lt hi)

theorem blockBytes_eq (h : x.hdr.SlotsHold) :
    x.blockBytes = x.hdr.curElementCount * x.hdr.sizeDataPerElement :=
  cSize_natCast h.block

theorem reads (h : x.hdr.SlotsHold) (hlen : 96 + x.blockBytes ≤ x.stream.length)
    (hi : i < x.hdr.curElementCount) : x.hdr.Reads x.block i := by
  have hslot := slot_le hi
  have hlinks := h.links
  have hlabel := h.label
  rw [HnswlibHeader.Reads, block_length hlen, h.blockBytes_eq, h.base_eq hi]
  omega

theorem elem_sound (h : x.hdr.SlotsHold) (hlen : 96 + x.blockBytes ≤ x.stream.length)
    (hi : i < x.hdr.curElementCount) :
    (parseElem x.hdr tidsHdr tids x.block i).All (Event.Sound x.hdr.sizeDataPerElement) := by
  have hlinks := h.links
  have hlabel := h.label
  rw [parseElem_sound_iff (h.reads hlen hi), h.base_eq hi]
  refine ⟨h.lt hi, ?_, ?_, ?_⟩
  all_goals
    rw [InSlot, Nat.succ_mul]
    omega

end HnswlibHeader.SlotsHold

theorem HnswlibHeader.base_zero (hdr : HnswlibHeader) : hdr.base 0 = 0 := by
  simp [base, cSize]

theorem slotsHold_of_sound (hblock : x.hdr.curElementCount * x.hdr.sizeDataPerElement < 2 ^ 64)
    (hread : x.hdr.Reads x.block 0)
    (h : (parseElem x.hdr tidsHdr tids x.block 0).All (Event.Sound x.hdr.sizeDataPerElement)) :
    x.hdr.SlotsHold := by
  rw [parseElem_sound_iff hread, HnswlibHeader.base_zero] at h
  obtain ⟨-, hcount, hlinks, hlabel⟩ := h
  simp only [InSlot] at hlinks hlabel
  refine ⟨hblock, ?_, ?_⟩
  · omega
  · omega

end Block

section Level0Pass

variable {x : Sidecar} {tidsHdr : TidsHeader} {tids : List Tid} {elems : List ElemDesc}

theorem parseLevel0_returns (h : (x.parseLevel0 x.hdr tidsHdr tids).Returns elems) :
    96 + x.blockBytes ≤ x.stream.length ∧ elems.length = x.hdr.curElementCount ∧
      (∀ e ∈ elems, e.level = 0) ∧
      ∀ i < x.hdr.curElementCount, x.hdr.Reads x.block i ∧ x.hdr.label x.block i < tidsHdr.nVecs := by
  simp only [Sidecar.parseLevel0, returns_bind, returns_sized, returns_raiseUnless,
    returns_visitAll] at h
  obtain ⟨-, -, -, hlen, hlength, helems⟩ := h
  have hall : ∀ (i : ℕ) (e : ElemDesc), i < x.hdr.curElementCount → elems[i]? = some e →
      (parseElem x.hdr tidsHdr tids x.block i).Returns e := by
    intro i e hi he
    exact helems i i e (List.getElem?_range hi) he
  rw [List.length_range] at hlength
  refine ⟨hlen, hlength, fun e he => ?_, fun i hi => ?_⟩
  · obtain ⟨i, he⟩ := List.mem_iff_getElem?.mp he
    have hi : i < elems.length := (List.getElem?_eq_some_iff.mp he).1
    exact (parseElem_returns (hall i e (hlength ▸ hi) he)).2.2
  · have he := List.getElem?_eq_getElem (hlength ▸ hi)
    obtain ⟨hread, hlabel, -⟩ := parseElem_returns (hall i _ hi he)
    exact ⟨hread, hlabel⟩

theorem before_parseElem {k : ℕ} (hk : k ≤ x.hdr.curElementCount) :
    Before (parseElem x.hdr tidsHdr tids x.block) (List.range x.hdr.curElementCount) k
      ↔ ∀ j < k, x.hdr.Reads x.block j ∧ x.hdr.label x.block j < tidsHdr.nVecs := by
  constructor
  · intro h j hj
    obtain ⟨e, he⟩ := h j j hj (List.getElem?_range (hj.trans_le hk))
    obtain ⟨hread, hlabel, -⟩ := parseElem_returns he
    exact ⟨hread, hlabel⟩
  · intro h j i hj hi
    rw [List.getElem?_range (hj.trans_le hk)] at hi
    obtain ⟨hread, hlabel⟩ := h j hj
    exact Option.some.inj hi ▸ parseElem_exists hread hlabel

theorem parseLevel0_stops {S : Stop → Prop} :
    (x.parseLevel0 x.hdr tidsHdr tids).Stops S
      ↔ (x.stream.length < 96 + x.blockBytes ∧
          S (.error "pg_cuvs: short read on level-0 block")) ∨
        (96 + x.blockBytes ≤ x.stream.length ∧ ∃ i < x.hdr.curElementCount,
          (∀ j < i, x.hdr.Reads x.block j ∧ x.hdr.label x.block j < tidsHdr.nVecs) ∧
            (parseElem x.hdr tidsHdr tids x.block i).Stops S) := by
  simp only [Sidecar.parseLevel0, stops_bind, returns_sized, stops_sized, returns_raiseUnless,
    stops_raiseUnless, stops_visitAll, false_or, true_and, exists_const, Nat.not_le]
  refine or_congr Iff.rfl (and_congr Iff.rfl ⟨?_, ?_⟩)
  · rintro ⟨k, i, hi, hbefore, hstop⟩
    obtain ⟨hk, rfl⟩ := List.getElem?_eq_some_iff.mp hi
    rw [List.length_range] at hk
    rw [List.getElem_range] at hstop
    exact ⟨k, hk, (before_parseElem hk.le).mp hbefore, hstop⟩
  · rintro ⟨i, hi, hbefore, hstop⟩
    exact ⟨i, i, List.getElem?_range hi, (before_parseElem hi.le).mpr hbefore, hstop⟩

theorem parseLevel0_sound (h : x.hdr.SlotsHold) :
    (x.parseLevel0 x.hdr tidsHdr tids).All (Event.Sound x.hdr.sizeDataPerElement) := by
  simp only [Sidecar.parseLevel0, all_bind, all_sized, returns_sized, all_raiseUnless,
    returns_raiseUnless, true_and, forall_const, Event.Sound, cSize_mul_iff]
  refine ⟨h.block, fun hlen => all_visitAll.mpr fun k i hi _ => ?_⟩
  have hmem := List.mem_range.mp (List.mem_of_getElem? hi)
  exact h.elem_sound hlen hmem

theorem slotsHold_of_level0 (hpos : x.hdr.curElementCount ≠ 0)
    (hret : (x.parseLevel0 x.hdr tidsHdr tids).Returns elems)
    (h : (x.parseLevel0 x.hdr tidsHdr tids).All (Event.Sound x.hdr.sizeDataPerElement)) :
    x.hdr.SlotsHold := by
  obtain ⟨hlen, -, -, hread⟩ := parseLevel0_returns hret
  simp only [Sidecar.parseLevel0, all_bind, all_sized, returns_sized, all_raiseUnless,
    returns_raiseUnless, true_and, forall_const, Event.Sound, cSize_mul_iff] at h
  obtain ⟨hblock, helems⟩ := h
  have hfirst := all_visitAll.mp (helems hlen) 0 0
    (List.getElem?_range (Nat.pos_of_ne_zero hpos)) before_zero
  exact slotsHold_of_sound hblock (hread 0 (Nat.pos_of_ne_zero hpos)).1 hfirst

end Level0Pass

section Upper

variable {x : Sidecar} {m i pos slot : ℕ} {e e' : ElemDesc}

theorem links_bytes (hm : m ≤ 2 ^ 31) : cSize ((m : ℤ) * 4) = m * 4 := by
  have hlt : m * 4 < 2 ^ 64 := by omega
  exact cSize_natCast hlt

theorem parseUpperLevel_spec {llbuf : List UInt8} {lvIdx : ℕ} (hm : m < 2 ^ 31)
    (h : (lvIdx + 1) * (4 + m * 4) ≤ llbuf.length) :
    (∃ links, (parseUpperLevel m llbuf lvIdx).Returns links) ∧
      (∀ S, ¬ (parseUpperLevel m llbuf lvIdx).Stops S) ∧
      ∀ slot, (parseUpperLevel m llbuf lvIdx).All (Event.Sound slot) := by
  rw [Nat.succ_mul] at h
  have hcount : lvIdx * (4 + m * 4) + 4 ≤ llbuf.length := by omega
  have hlinks : lvIdx * (4 + m * 4) + 4 + m * 4 ≤ llbuf.length := by omega
  refine ⟨?_, fun S => ?_, fun slot => ?_⟩
  · simp [parseUpperLevel, readUpper, links_bytes hm.le, hcount, hlinks]
  · simp [parseUpperLevel, readUpper, links_bytes hm.le, hcount, hlinks]
  · simp [parseUpperLevel, readUpper, links_bytes hm.le, hcount, hlinks, Event.Sound]

def Sidecar.levelAt (x : Sidecar) (m pos : ℕ) : ℕ := linkListSize x.stream pos / ((m + 1) * 4)

def Sidecar.Truncated (x : Sidecar) (m pos : ℕ) : Prop :=
  x.stream.length < pos + 4 ∨
    0 < x.levelAt m pos ∧ x.stream.length < pos + 4 + linkListSize x.stream pos

theorem linkListSize_lt (stream : List UInt8) (pos : ℕ) : linkListSize stream pos < 2 ^ 32 := by
  have hlt := leNat_lt ((stream.drop pos).take 4)
  have hlen : ((stream.drop pos).take 4).length ≤ 4 := List.length_take_le 4 _
  exact hlt.trans_le (Nat.pow_le_pow_right (by decide) hlen)

theorem levelAt_mul_le (x : Sidecar) (m pos : ℕ) :
    x.levelAt m pos * ((m + 1) * 4) ≤ linkListSize x.stream pos :=
  Nat.div_mul_le_self _ _

theorem cInt_levelAt (x : Sidecar) (m pos : ℕ) : cInt (x.levelAt m pos) = x.levelAt m pos := by
  have hle := Nat.div_le_self (linkListSize x.stream pos) ((m + 1) * 4)
  have hmul := levelAt_mul_le x m pos
  have hsize := linkListSize_lt x.stream pos
  have hfour : x.levelAt m pos * 4 ≤ x.levelAt m pos * ((m + 1) * 4) :=
    Nat.mul_le_mul_left _ (by omega)
  refine (cInt_eq_iff.mpr ?_).symm
  omega

theorem parseUpperElem_eq (hm : m < 2 ^ 31) :
    x.parseUpperElem m i pos e = (do
      sized ((m + 1) * 4) ((m + 1) * 4 : ℕ)
      raiseUnless (pos + 4 ≤ x.stream.length)
        s!"pg_cuvs: short read on upper-level size for element {i}"
      sized (x.levelAt m pos) (x.levelAt m pos)
      if x.levelAt m pos = 0 then pure e
      else do
        raiseUnless (pos + 4 + linkListSize x.stream pos ≤ x.stream.length)
          s!"pg_cuvs: short read on upper links for element {i}"
        let upperLinks ← visitAll
          (parseUpperLevel m ((x.stream.drop (pos + 4)).take (linkListSize x.stream pos)))
          (List.range (x.levelAt m pos))
        pure { e with level := x.levelAt m pos, upperLinks }) := by
  have hlinks : cSize (((m : ℤ) + 1) * 4) = (m + 1) * 4 := @links_bytes (m + 1) hm
  have hlevel : cInt (linkListSize x.stream pos / ((m + 1) * 4) : ℕ) = x.levelAt m pos :=
    cInt_levelAt x m pos
  have hnone : (x.levelAt m pos : ℤ) ≤ 0 ↔ x.levelAt m pos = 0 := by omega
  rw [Sidecar.parseUpperElem]
  simp only [hlinks, hlevel, hnone, Int.toNat_natCast]
  rfl

/-- The links of all the levels are read in the buffer. -/
theorem upperLevels_spec (hm : m < 2 ^ 31)
    (hlen : pos + 4 + linkListSize x.stream pos ≤ x.stream.length) :
    let r := visitAll
      (parseUpperLevel m ((x.stream.drop (pos + 4)).take (linkListSize x.stream pos)))
      (List.range (x.levelAt m pos))
    (∃ links, r.Returns links) ∧ (∀ S, ¬ r.Stops S) ∧
      ∀ slot, r.All (Event.Sound slot) := by
  have hbuf : ((x.stream.drop (pos + 4)).take (linkListSize x.stream pos)).length
      = linkListSize x.stream pos := by
    rw [List.length_take, List.length_drop]
    omega
  have hlevel : ∀ lvIdx ∈ List.range (x.levelAt m pos), (lvIdx + 1) * (4 + m * 4)
      ≤ ((x.stream.drop (pos + 4)).take (linkListSize x.stream pos)).length := by
    intro lvIdx hmem
    have hwidth : 4 + m * 4 = (m + 1) * 4 := by omega
    rw [hbuf, hwidth]
    exact (Nat.mul_le_mul_right _ (List.mem_range.mp hmem)).trans (levelAt_mul_le x m pos)
  refine ⟨exists_visitAll fun lvIdx hmem => (parseUpperLevel_spec hm (hlevel lvIdx hmem)).1,
    fun S hstop => ?_, fun slot => all_visitAll.mpr fun k lvIdx hk _ => ?_⟩
  · obtain ⟨k, lvIdx, hk, -, hstop⟩ := stops_visitAll.mp hstop
    exact (parseUpperLevel_spec hm (hlevel lvIdx (List.mem_of_getElem? hk))).2.1 S hstop
  · exact (parseUpperLevel_spec hm (hlevel lvIdx (List.mem_of_getElem? hk))).2.2 slot

theorem parseUpperElem_returns (hm : m < 2 ^ 31)
    (h : (x.parseUpperElem m i pos e).Returns e') :
    ¬ x.Truncated m pos ∧ e'.level = if x.levelAt m pos = 0 then e.level else x.levelAt m pos := by
  simp only [parseUpperElem_eq hm, returns_bind, returns_sized, returns_raiseUnless, true_and,
    exists_const] at h
  obtain ⟨hsize, h⟩ := h
  by_cases hzero : x.levelAt m pos = 0
  · rw [if_pos hzero, returns_pure] at h
    refine ⟨?_, by rw [if_pos hzero, h]⟩
    rintro (hlt | ⟨hpos, -⟩)
    · omega
    · omega
  · rw [if_neg hzero] at h
    simp only [returns_bind, returns_raiseUnless, returns_pure] at h
    obtain ⟨-, hlen, links, -, rfl⟩ := h
    refine ⟨?_, by rw [if_neg hzero]⟩
    rintro (hlt | ⟨-, hlt⟩)
    · omega
    · omega

theorem parseUpperElem_stops (hm : m < 2 ^ 31) {S : Stop → Prop}
    (h : (x.parseUpperElem m i pos e).Stops S) : x.Truncated m pos ∧ ∃ msg, S (.error msg) := by
  simp only [parseUpperElem_eq hm, stops_bind, returns_sized, stops_sized, returns_raiseUnless,
    stops_raiseUnless, false_or, true_and, exists_const] at h
  rcases h with ⟨hsize, hS⟩ | ⟨hsize, h⟩
  · exact ⟨Or.inl (Nat.not_le.mp hsize), _, hS⟩
  · by_cases hzero : x.levelAt m pos = 0
    · rw [if_pos hzero, stops_pure] at h
      exact h.elim
    · rw [if_neg hzero] at h
      simp only [stops_bind, stops_raiseUnless, returns_raiseUnless, stops_pure, and_false,
        exists_false, or_false, exists_const] at h
      rcases h with ⟨hlen, hS⟩ | ⟨hlen, h⟩
      · exact ⟨Or.inr ⟨Nat.pos_of_ne_zero hzero, Nat.not_le.mp hlen⟩, _, hS⟩
      · exact absurd h ((upperLevels_spec hm hlen).2.1 S)

theorem parseUpperElem_sound (hm : m < 2 ^ 31) :
    (x.parseUpperElem m i pos e).All (Event.Sound slot) := by
  simp only [parseUpperElem_eq hm, all_bind, all_sized, returns_sized, all_raiseUnless,
    returns_raiseUnless, true_and, forall_const, Event.Sound]
  refine ⟨rfl, fun _ => ?_⟩
  by_cases hzero : x.levelAt m pos = 0
  · rw [if_pos hzero]
    exact all_pure.mpr trivial
  · rw [if_neg hzero]
    simp only [all_bind, all_raiseUnless, returns_raiseUnless, all_pure, implies_true, and_true,
      true_and, forall_const]
    exact fun hlen => (upperLevels_spec hm hlen).2.2 slot

end Upper

section UpperPass

variable {x : Sidecar} {m start slot : ℕ} {elems elems' : List ElemDesc}

theorem zipIdx_getElem? {α : Type} {as : List α} {k i : ℕ} {a : α}
    (h : as.zipIdx[k]? = some (a, i)) : as[k]? = some a ∧ i = k := by
  rw [List.getElem?_zipIdx] at h
  obtain ⟨b, hb, heq⟩ := Option.map_eq_some_iff.mp h
  obtain ⟨rfl, rfl⟩ := Prod.mk.inj heq
  exact ⟨hb, Nat.zero_add k⟩

theorem getElem?_zipIdx_of {α : Type} {as : List α} {k : ℕ} {a : α} (h : as[k]? = some a) :
    as.zipIdx[k]? = some (a, k) := by
  rw [List.getElem?_zipIdx, h, Nat.zero_add]
  rfl

theorem parseUpper_returns (hm : m < 2 ^ 31) (hzero : ∀ e ∈ elems, e.level = 0)
    (h : (x.parseUpper m start elems).Returns elems') :
    elems'.length = elems.length ∧
      (∀ i < elems.length, ¬ x.Truncated m (upperPos x.stream start i)) ∧
      ∀ i e, elems'[i]? = some e → e.level = x.levelAt m (upperPos x.stream start i) := by
  obtain ⟨hlen, hall⟩ := returns_visitAll.mp h
  rw [List.length_zipIdx] at hlen
  have helem : ∀ (i : ℕ) (e : ElemDesc), elems'[i]? = some e →
      ¬ x.Truncated m (upperPos x.stream start i) ∧
        e.level = x.levelAt m (upperPos x.stream start i) := by
    intro i e he
    have hi : i < elems.length := hlen ▸ (List.getElem?_eq_some_iff.mp he).1
    have hold := List.getElem?_eq_getElem hi
    obtain ⟨htrunc, hlevel⟩ :=
      parseUpperElem_returns hm (hall i _ e (getElem?_zipIdx_of hold) he)
    refine ⟨htrunc, ?_⟩
    rw [hlevel, hzero _ (List.getElem_mem hi)]
    split_ifs with hnone
    · exact hnone.symm
    · rfl
  refine ⟨hlen, fun i hi => ?_, fun i e he => (helem i e he).2⟩
  exact (helem i _ (List.getElem?_eq_getElem (hlen ▸ hi))).1

theorem parseUpper_stops (hm : m < 2 ^ 31) {S : Stop → Prop}
    (h : (x.parseUpper m start elems).Stops S) :
    (∃ i < elems.length, x.Truncated m (upperPos x.stream start i)) ∧ ∃ msg, S (.error msg) := by
  obtain ⟨k, p, hk, -, hstop⟩ := stops_visitAll.mp h
  obtain ⟨he, hi⟩ := zipIdx_getElem? hk
  obtain ⟨htrunc, hS⟩ := parseUpperElem_stops hm hstop
  exact ⟨⟨k, (List.getElem?_eq_some_iff.mp he).1, hi ▸ htrunc⟩, hS⟩

theorem parseUpper_sound (hm : m < 2 ^ 31) :
    (x.parseUpper m start elems).All (Event.Sound slot) :=
  all_visitAll.mpr fun _ _ _ _ => parseUpperElem_sound hm

end UpperPass

section PageFit

variable {dim m slot : ℕ} {width : ElemWidth} {level : ℤ}

theorem checkHnswPageFit_returns (hdim : 0 < dim) {u : Unit} :
    (checkHnswPageFit dim width m level).Returns u
      ↔ pairNeeded dim width m level ≠ 0 ∧ pairNeeded dim width m level ≤ pgvUsableBytes := by
  have hfit : pairNeeded dim width m level ≠ 0 → (1 ≤ pgvUsableBytes / pairNeeded dim width m level
      ↔ pairNeeded dim width m level ≤ pgvUsableBytes) := by
    intro hpos
    rw [Nat.le_div_iff_mul_le (Nat.pos_of_ne_zero hpos), Nat.one_mul]
  simp only [checkHnswPageFit, elemsPerPage, returns_bind, returns_raiseUnless, returns_sized,
    returns_require, returns_elemTupleSize, returns_neighTupleSize, returns_pure]
  constructor
  · rintro ⟨_, ⟨-, -, _, rfl, _, rfl, -, -, -, hpos, rfl⟩, hle⟩
    exact ⟨hpos, (hfit hpos).mp hle⟩
  · rintro ⟨hpos, hle⟩
    exact ⟨_, ⟨(), hdim, _, rfl, _, rfl, (), trivial, (), hpos, rfl⟩, (hfit hpos).mpr hle⟩

theorem checkHnswPageFit_stops (hdim : 0 < dim) {S : Stop → Prop}
    (h : (checkHnswPageFit dim width m level).Stops S) :
    (pairNeeded dim width m level = 0 ∧ S .fault) ∨
      (pgvUsableBytes < pairNeeded dim width m level ∧ ∃ msg, S (.error msg)) := by
  simp only [checkHnswPageFit, elemsPerPage, stops_bind, stops_raiseUnless, returns_bind,
    returns_raiseUnless, returns_sized, stops_sized, returns_require, stops_require,
    returns_elemTupleSize, stops_elemTupleSize, returns_neighTupleSize, stops_neighTupleSize,
    returns_pure, stops_pure, false_or, or_false, and_false, exists_false] at h
  rcases h with (⟨hnot, -⟩ | ⟨-, -, _, rfl, _, rfl, -, -, hzero, hS⟩)
    | ⟨_, ⟨-, -, _, rfl, _, rfl, -, -, -, hpos, rfl⟩, hlt, hS⟩
  · exact absurd hdim hnot
  · exact Or.inl ⟨not_not.mp hzero, hS⟩
  · refine Or.inr ⟨Nat.lt_of_not_le fun hle => hlt ?_, _, hS⟩
    exact (Nat.le_div_iff_mul_le (Nat.pos_of_ne_zero hpos)).mpr (by rwa [Nat.one_mul])

theorem checkHnswPageFit_sound (hdim : dim < 2 ^ 31) (hlevel : level < 2 ^ 31) (hm : m < 2 ^ 31)
    (h : CountFits level m) : (checkHnswPageFit dim width m level).All (Event.Sound slot) := by
  simp only [checkHnswPageFit, all_bind, all_raiseUnless, implies_true, and_true]
  exact elemsPerPage_sound hdim hlevel (Int.natCast_nonneg m) (by omega) h

theorem countFits_of_sound (hdim : 0 < dim) (hlevel : level < 2 ^ 31) (hm : m < 2 ^ 31)
    (h : (checkHnswPageFit dim width m level).All (Event.Sound slot)) : CountFits level m := by
  simp only [checkHnswPageFit, elemsPerPage, all_bind, all_raiseUnless, returns_raiseUnless,
    returns_elemTupleSize, true_and, forall_const] at h
  exact (neighTupleSize_sound_iff hlevel (Int.natCast_nonneg m) (by omega)).mp
    ((h.1 hdim).2 _ rfl).1

end PageFit

section Header

variable {x : Sidecar}

theorem readHnswlibHeader_eq_some {bytes rest : List UInt8} {hdr : HnswlibHeader}
    (h : readHnswlibHeader bytes = some (hdr, rest)) :
    96 ≤ bytes.length ∧ ∃ n : ℕ, hdr.maxlevel = cInt n := by
  obtain ⟨_, _, h0, h⟩ := bind_eq_some h
  obtain ⟨_, _, h1, h⟩ := bind_eq_some h
  obtain ⟨_, _, h2, h⟩ := bind_eq_some h
  obtain ⟨_, _, h3, h⟩ := bind_eq_some h
  obtain ⟨_, _, h4, h⟩ := bind_eq_some h
  obtain ⟨_, _, h5, h⟩ := bind_eq_some h
  obtain ⟨maxlevel, _, h6, h⟩ := bind_eq_some h
  obtain ⟨_, _, h7, h⟩ := bind_eq_some h
  obtain ⟨_, _, h8, h⟩ := bind_eq_some h
  obtain ⟨_, _, h9, h⟩ := bind_eq_some h
  obtain ⟨_, _, h10, h⟩ := bind_eq_some h
  obtain ⟨_, _, h11, h⟩ := bind_eq_some h
  obtain ⟨_, _, h12, h⟩ := bind_eq_some h
  obtain ⟨hhdr, -⟩ := Prod.mk.inj (Option.some.inj h)
  have hspan : ∀ {width n : ℕ} {bytes rest : List UInt8}, nat width bytes = some (n, rest) →
      bytes.length = width + rest.length := by
    intro width n bytes rest h
    obtain ⟨field, hfield, -, rfl⟩ := nat_eq_some h
    rw [List.length_append, hfield]
  refine ⟨?_, maxlevel, by rw [← hhdr]⟩
  rw [hspan h0, hspan h1, hspan h2, hspan h3, hspan h4, hspan h5, hspan h6, hspan h7, hspan h8,
    hspan h9, hspan h10, hspan h11, hspan h12]
  omega

theorem readHnswlibHeader_takes : Takes readHnswlibHeader 96 := by
  refine (Takes.nat 8).bind fun _ => (Takes.nat 8).bind fun _ => (Takes.nat 8).bind fun _ =>
    (Takes.nat 8).bind fun _ => (Takes.nat 8).bind fun _ => (Takes.nat 8).bind fun _ =>
    (Takes.nat 4).bind fun _ => (Takes.nat 4).bind fun _ => (Takes.nat 8).bind fun _ =>
    (Takes.nat 8).bind fun _ => (Takes.nat 8).bind fun _ => (Takes.nat 8).bind fun _ =>
    (Takes.nat 8).bind fun _ => Takes.pure _

theorem maxlevel_lt (x : Sidecar) : x.hdr.maxlevel < 2 ^ 31 := by
  rw [Sidecar.hdr]
  cases hread : readHnswlibHeader x.stream with
  | none => decide
  | some p =>
    obtain ⟨n, hn⟩ := (readHnswlibHeader_eq_some hread).2
    exact hn ▸ (cInt_bounds n).2

end Header

end Hnswlib

end PgCuvs
