import Mathlib.Data.List.GetD
import PgCuvs.Library.ShiftCrc
import PgCuvs.Util

/-! The table-driven checksum is the bit-by-bit one. -/

namespace PgCuvs

open ShiftCrc

/-- The reflected polynomial of IEEE 802.3. -/
def crcPoly : BitVec 32 := 0xEDB88320

/-- The bits of a message, each byte's lowest first. -/
def messageBits (data : List UInt8) : List Bool := data.flatMap fun p => bitsOf 8 p.toNat

/-- The checksum by its definition, one bit after the other. -/
def ieeeCrc32 (data : List UInt8) : BitVec 32 :=
  feed crcPoly 0xFFFFFFFF (messageBits data) ^^^ 0xFFFFFFFF

theorem crcRound_toBitVec (c : UInt32) :
    (if c &&& 1 = 1 then (0xEDB88320 : UInt32) ^^^ (c >>> 1) else c >>> 1).toBitVec
      = shift crcPoly c.toBitVec := by
  have hbit : c &&& 1 = 1 ↔ c.toBitVec.getLsbD 0 = true := by
    rw [← UInt32.toBitVec_inj, UInt32.toBitVec_and]
    change c.toBitVec &&& 1#32 = 1#32 ↔ _
    rw [BitVec.and_one_eq_setWidth_ofBool_getLsbD]
    cases c.toBitVec.getLsbD 0 <;> decide
  rw [shift]
  simp only [← hbit]
  split_ifs
  · rfl
  · rfl

theorem crc32TableEntry_toBitVec (i : UInt32) :
    (crc32TableEntry i).toBitVec = (shift crcPoly)^[8] i.toBitVec := by
  have hround : Function.Semiconj UInt32.toBitVec
      (fun c => if c &&& 1 = 1 then (0xEDB88320 : UInt32) ^^^ (c >>> 1) else c >>> 1)
      (shift crcPoly) := crcRound_toBitVec
  rw [crc32TableEntry, List.foldl_const, List.length_range]
  exact hround.iterate_right 8 i

/-- A step of the table is eight steps of the register. -/
theorem crc32Step_toBitVec (c : UInt32) (p : UInt8) :
    (crc32TableEntry ((c ^^^ p.toUInt32) &&& 0xFF) ^^^ (c >>> 8)).toBitVec
      = feed crcPoly c.toBitVec (bitsOf 8 p.toNat) := by
  have hbyte : p.toNat < 2 ^ 8 := p.toNat_lt
  have hword : BitVec.ofNat 32 p.toNat = p.toUInt32.toBitVec := by
    apply BitVec.eq_of_toNat_eq
    rw [BitVec.toNat_ofNat, UInt32.toNat_toBitVec, UInt8.toNat_toUInt32]
    exact Nat.mod_eq_of_lt (by omega)
  have hhigh : (c.toBitVec ^^^ p.toUInt32.toBitVec) >>> 8 = c.toBitVec >>> 8 := by
    have hzero : p.toUInt32.toBitVec >>> 8 = 0#32 := by
      apply BitVec.eq_of_toNat_eq
      rw [BitVec.toNat_ushiftRight, UInt32.toNat_toBitVec, UInt8.toNat_toUInt32,
        Nat.shiftRight_eq_div_pow, Nat.div_eq_of_lt hbyte]
      rfl
    rw [BitVec.ushiftRight_xor_distrib, hzero, BitVec.xor_zero]
  have hbits : (bitsOf 8 p.toNat).length ≤ 32 := by
    rw [bitsOf_length]
    decide
  rw [feed_eq_iterate crcPoly hbits, bitsOf_length, bitsNat_bitsOf, Nat.mod_eq_of_lt hbyte, hword,
    iterate_shift_eq_table, hhigh, UInt32.toBitVec_xor, crc32TableEntry_toBitVec]
  rfl

theorem cuvsCrc32StreamUpdate_toBitVec (crc : UInt32) (data : List UInt8) :
    (cuvsCrc32StreamUpdate crc data).toBitVec = feed crcPoly crc.toBitVec (messageBits data) := by
  induction data generalizing crc with
  | nil => rfl
  | cons p data ih =>
    rw [messageBits, List.flatMap_cons, feed_append, ← crc32Step_toBitVec]
    exact ih _

theorem cuvsCrc32_toBitVec (data : List UInt8) : (cuvsCrc32 data).toBitVec = ieeeCrc32 data := by
  rw [cuvsCrc32, cuvsCrc32StreamEnd, UInt32.toBitVec_xor, cuvsCrc32StreamUpdate_toBitVec]
  rfl

theorem cuvsCrc32_chunks (chunks : List (List UInt8)) :
    cuvsCrc32StreamEnd (chunks.foldl cuvsCrc32StreamUpdate cuvsCrc32StreamBegin)
      = cuvsCrc32 chunks.flatten := by
  have hfold : ∀ crc, chunks.foldl cuvsCrc32StreamUpdate crc
      = cuvsCrc32StreamUpdate crc chunks.flatten := by
    induction chunks with
    | nil => exact fun _ => rfl
    | cons chunk chunks ih =>
      intro crc
      rw [List.foldl_cons, ih, List.flatten_cons, cuvsCrc32StreamUpdate_append]
  rw [hfold, cuvsCrc32]

section Burst

/-- Bit `i` of a byte string: bit `i % 8` of byte `i / 8`, in the order the register takes them. -/
def bitAt (data : List UInt8) (i : ℕ) : Bool := (data.getD (i / 8) 0).toNat.testBit (i % 8)

/-- The bits in which the strings differ lie in the `width` bits from `p` on. -/
def DifferWithin (width p : ℕ) (a b : List UInt8) : Prop :=
  ∀ i, bitAt a i ≠ bitAt b i → p ≤ i ∧ i < p + width

theorem differWithin_of_bytes {width : ℕ} {front x y back : List UInt8} (hlen : x.length = y.length)
    (hwidth : 8 * x.length ≤ width) :
    DifferWithin width (8 * front.length) (front ++ (x ++ back)) (front ++ (y ++ back)) := by
  intro i hne
  by_contra hout
  apply hne
  have hbyte : (front ++ (x ++ back)).getD (i / 8) 0 = (front ++ (y ++ back)).getD (i / 8) 0 := by
    rcases Nat.lt_or_ge (i / 8) front.length with hfront | hfront
    · rw [List.getD_append _ _ _ _ hfront, List.getD_append _ _ _ _ hfront]
    · have hback : x.length ≤ i / 8 - front.length := by omega
      rw [List.getD_append_right _ _ _ _ hfront, List.getD_append_right _ _ _ _ hfront,
        List.getD_append_right _ _ _ _ hback, List.getD_append_right _ _ _ _ (hlen ▸ hback), hlen]
  rw [bitAt, bitAt, hbyte]

theorem messageBits_length (data : List UInt8) : (messageBits data).length = data.length * 8 :=
  Records.length_flatMap_width fun _ _ => bitsOf_length 8 _

theorem messageBits_getElem? {data : List UInt8} {i : ℕ} (h : i < data.length * 8) :
    (messageBits data)[i]? = some (bitAt data i) := by
  have hbyte : i / 8 < data.length := Nat.div_lt_of_lt_mul (by omega)
  have hbit : i % 8 < 8 := Nat.mod_lt i (by decide)
  have hslice : ((messageBits data).drop (i / 8 * 8)).take 8 = bitsOf 8 (data[i / 8]).toNat := by
    have hflat := Records.slice_flatMap (fun p _ => bitsOf_length 8 (UInt8.toNat p)) []
      (List.getElem?_eq_getElem hbyte)
    rwa [List.append_nil] at hflat
  have hget := congrArg (fun bits => bits[i % 8]?) hslice
  simp only [List.getElem?_take_of_lt hbit, List.getElem?_drop, Nat.div_add_mod',
    bitsOf_getElem? hbit] at hget
  rw [hget, bitAt, List.getD_eq_getElem?_getD, List.getElem?_eq_getElem hbyte]
  rfl

theorem messageBits_injective {a b : List UInt8} (hlen : a.length = b.length)
    (h : messageBits a = messageBits b) : a = b := by
  induction a generalizing b with
  | nil => exact (List.length_eq_zero_iff.mp hlen.symm).symm
  | cons p a ih =>
    cases b with
    | nil => exact nomatch hlen
    | cons q b =>
      have hwidth : (bitsOf 8 p.toNat).length = (bitsOf 8 q.toNat).length := by
        rw [bitsOf_length, bitsOf_length]
      have hsplit : bitsOf 8 p.toNat ++ messageBits a = bitsOf 8 q.toNat ++ messageBits b := h
      obtain ⟨hfirst, hrest⟩ := List.append_inj hsplit hwidth
      have hnum := congrArg bitsNat hfirst
      rw [bitsNat_bitsOf, bitsNat_bitsOf, Nat.mod_eq_of_lt p.toNat_lt,
        Nat.mod_eq_of_lt q.toNat_lt] at hnum
      rw [UInt8.toNat_inj.mp hnum, ih (Nat.succ.inj hlen) hrest]

theorem cuvsCrc32_burst {a b : List UInt8} {p : ℕ} (hlen : a.length = b.length)
    (hdiff : DifferWithin 32 p a b) (h : cuvsCrc32 a = cuvsCrc32 b) : a = b := by
  have hfeed : feed crcPoly 0xFFFFFFFF (messageBits a)
      = feed crcPoly 0xFFFFFFFF (messageBits b) := by
    have hsum := congrArg (fun c => c.toBitVec ^^^ 0xFFFFFFFF) h
    simp only [cuvsCrc32_toBitVec, ieeeCrc32, BitVec.xor_assoc, BitVec.xor_self, BitVec.xor_zero]
      at hsum
    exact hsum
  have hbits : ∀ i, (messageBits a)[i]? ≠ (messageBits b)[i]? → p ≤ i ∧ i < p + 32 := by
    intro i hne
    refine hdiff i fun heq => hne ?_
    rcases Nat.lt_or_ge i (a.length * 8) with hi | hi
    · rw [messageBits_getElem? hi, messageBits_getElem? (hlen ▸ hi), heq]
    · rw [List.getElem?_eq_none (messageBits_length a ▸ hi),
        List.getElem?_eq_none (messageBits_length b ▸ hlen ▸ hi)]
  have hwidth : (messageBits a).length = (messageBits b).length := by
    rw [messageBits_length, messageBits_length, hlen]
  exact messageBits_injective hlen (eq_of_feed_eq (by decide) hwidth hbits hfeed)

end Burst

end PgCuvs
