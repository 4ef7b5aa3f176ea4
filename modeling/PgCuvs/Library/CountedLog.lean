import PgCuvs.Library.CrashPrefix
import PgCuvs.Library.Records

/-! A file of fixed-size records behind a header that counts them. An append
writes its record behind the counted ones, then the header with the next count,
then cuts off what follows. A crash leaves any prefix of these bytes. -/

namespace CountedLog

open Records CrashPrefix

/-- What a crash does not split: one byte of a write, or a truncation. -/
inductive Op where
  | put (off : ℕ) (b : UInt8)
  | cut (n : ℕ)

def zeros (n : ℕ) : List UInt8 := List.replicate n 0

/-- A gap behind the end of the file reads as zeros. -/
def Op.apply : Op → List UInt8 → List UInt8
  | .put off b, f => f.take off ++ (zeros (off - f.length) ++ b :: f.drop (off + 1))
  | .cut n, f => f.take n ++ zeros (n - f.length)

def write (off : ℕ) : List UInt8 → List Op
  | [] => []
  | b :: bs => .put off b :: write (off + 1) bs

section Write

theorem write_append (off : ℕ) (bs cs : List UInt8) :
    write off (bs ++ cs) = write off bs ++ write (off + bs.length) cs := by
  induction bs generalizing off with
  | nil => rfl
  | cons b bs ih =>
    rw [List.cons_append, write, write, ih, List.cons_append, List.length_cons, Nat.add_assoc,
      Nat.add_comm 1]

@[simp] theorem write_length (off : ℕ) (bs : List UInt8) : (write off bs).length = bs.length := by
  induction bs generalizing off with
  | nil => rfl
  | cons b bs ih => rw [write, List.length_cons, ih, List.length_cons]

theorem take_write (m off : ℕ) (bs : List UInt8) :
    (write off bs).take m = write off (bs.take m) := by
  induction bs generalizing m off with
  | nil => rw [List.take_nil, write, List.take_nil]
  | cons b bs ih =>
    cases m with
    | zero => rfl
    | succ m => rw [write, List.take_succ_cons, List.take_succ_cons, write, ih]

theorem run_write (before bs rest : List UInt8) :
    run Op.apply (write before.length bs) (before ++ rest) = before ++ (bs ++ rest.drop bs.length) := by
  induction bs generalizing before rest with
  | nil => rfl
  | cons b bs ih =>
    have hput : Op.apply (.put before.length b) (before ++ rest) =
        (before ++ [b]) ++ rest.drop 1 := by
      have hgap : before.length - (before ++ rest).length = 0 := by
        rw [List.length_append]
        exact Nat.sub_eq_zero_of_le (Nat.le_add_right _ _)
      rw [Op.apply, List.take_left, hgap, List.drop_length_add_append, List.append_assoc]
      rfl
    have hlen : before.length + 1 = (before ++ [b]).length := by rw [List.length_append]; rfl
    rw [write, run_cons, hput, hlen, ih, List.drop_drop, List.append_assoc, List.length_cons,
      Nat.add_comm 1]
    rfl

theorem run_write_nil (off : ℕ) {bs : List UInt8} (h : bs ≠ []) :
    run Op.apply (write off bs) [] = zeros off ++ bs := by
  cases bs with
  | nil => exact absurd rfl h
  | cons b bs =>
    have hput : Op.apply (.put off b) [] = (zeros off ++ [b]) ++ [] := by
      rw [Op.apply, List.take_nil, List.drop_nil, List.length_nil, Nat.sub_zero, List.append_nil]
      rfl
    have hlen : off + 1 = (zeros off ++ [b]).length := by
      rw [List.length_append, zeros, List.length_replicate]
      rfl
    rw [write, run_cons, hput, hlen, run_write, List.drop_nil, List.append_nil, List.append_assoc]
    rfl

theorem apply_cut_append {n : ℕ} (kept rest : List UInt8) (h : kept.length = n) :
    Op.apply (.cut n) (kept ++ rest) = kept := by
  have hgap : n - (kept ++ rest).length = 0 := by
    rw [List.length_append, h]
    exact Nat.sub_eq_zero_of_le (Nat.le_add_right _ _)
  rw [Op.apply, List.take_left' h, hgap]
  exact List.append_nil kept

end Write

/-! A field of which the first bytes are new and the others old. -/

section Torn

def torn (k : ℕ) (new old : List UInt8) : List UInt8 := new.take k ++ old.drop k

@[simp] theorem torn_zero (new old : List UInt8) : torn 0 new old = old := rfl

@[simp] theorem torn_self (k : ℕ) (bytes : List UInt8) : torn k bytes bytes = bytes :=
  List.take_append_drop k bytes

theorem torn_of_le {k : ℕ} {new old : List UInt8} (hnew : new.length ≤ k) (hold : old.length ≤ k) :
    torn k new old = new := by
  rw [torn, List.take_of_length_le hnew, List.drop_of_length_le hold, List.append_nil]

theorem length_torn {k : ℕ} {new old : List UInt8} (h : new.length = old.length) :
    (torn k new old).length = new.length := by
  rw [torn, List.length_append, List.length_take, List.length_drop, h]
  omega

theorem torn_append (k : ℕ) {new old : List UInt8} (new' old' : List UInt8)
    (h : new.length = old.length) : torn k (new ++ new') (old ++ old') =
      torn k new old ++ torn (k - new.length) new' old' := by
  rcases Nat.le_total k new.length with hk | hk
  · rw [Nat.sub_eq_zero_of_le hk, torn_zero, torn, torn, List.take_append_of_le_length hk,
      List.drop_append_of_le_length (h ▸ hk), List.append_assoc]
  · have hold : old.length ≤ k := h ▸ hk
    rw [torn_of_le hk hold, torn, torn, List.take_append, List.take_of_length_le hk,
      List.drop_append, List.drop_of_length_le hold, List.nil_append, h, List.append_assoc]

theorem leNat_drop (j : ℕ) (bytes : List UInt8) :
    leNat (bytes.drop j) = leNat bytes / 256 ^ j := by
  induction j generalizing bytes with
  | zero => rw [Nat.pow_zero, Nat.div_one, List.drop_zero]
  | succ j ih =>
    cases bytes with
    | nil => exact (Nat.zero_div _).symm
    | cons b rest =>
      have hb := b.toNat_lt
      have hdiv : (b.toNat + 256 * leNat rest) / 256 = leNat rest := by omega
      rw [List.drop_succ_cons, ih, leNat, Nat.pow_succ', ← Nat.div_div_eq_div_mul, hdiv]

theorem leNat_injective {a b : List UInt8} (hlen : a.length = b.length) (h : leNat a = leNat b) :
    a = b := by
  induction a generalizing b with
  | nil => exact (List.length_eq_zero_iff.mp hlen.symm).symm
  | cons x a ih =>
    cases b with
    | nil => nomatch hlen
    | cons y b =>
      have hx := x.toNat_lt
      have hy := y.toNat_lt
      rw [leNat, leNat] at h
      have hhead : x.toNat = y.toNat := by omega
      have htail : leNat a = leNat b := by omega
      rw [UInt8.toNat_inj.mp hhead, ih (Nat.succ.inj hlen) htail]

theorem torn_count {j : ℕ} {count next : List UInt8} (hlen : next.length = count.length)
    (hnext : leNat next = leNat count + 1) (hj : ¬256 ^ j ∣ leNat count + 1) :
    torn j next count = next := by
  have hdrop : next.drop j = count.drop j := by
    refine leNat_injective (by rw [List.length_drop, List.length_drop, hlen]) ?_
    rw [leNat_drop, leNat_drop, hnext, Nat.succ_div_of_not_dvd hj]
  rw [torn, ← hdrop, List.take_append_drop]

end Torn

/-! What the header of a file says, and the bytes of an append. -/

structure Layout where
  /-- The bytes before the count, the same in every file. -/
  magic : List UInt8
  /-- How many bytes follow the count, and what an append asks of them. -/
  rest : ℕ
  accepts : List UInt8 → Bool
  /-- What stays true of them although no append checks it, also when a new
  header is torn. -/
  sane : List UInt8 → Prop
  sane_torn : ∀ k post, sane post → sane (torn k post (zeros post.length))
  width : ℕ
  /-- No append counts further. -/
  limit : ℕ

namespace Layout

variable (l : Layout)

def size : ℕ := l.magic.length + (8 + l.rest)

def plan (n : ℕ) (header record : List UInt8) : List Op :=
  write (l.size + n * l.width) record ++ (write 0 header ++ [.cut (l.size + (n + 1) * l.width)])

def count (f : List UInt8) : ℕ := wordAt 8 l.magic.length f

structure Readable (f : List UInt8) : Prop where
  length : l.size ≤ f.length
  magic : f.take l.magic.length = l.magic
  accepts : l.accepts ((f.drop (l.magic.length + 8)).take l.rest) = true

/-- Neither a new file nor one that an append accepts. -/
structure Damaged (f : List UInt8) : Prop where
  ne_nil : f ≠ []
  unreadable : ¬l.Readable f

structure IsHeader (count post : List UInt8) (n : ℕ) : Prop where
  count_length : count.length = 8
  count : leNat count = n
  post_length : post.length = l.rest
  accepts : l.accepts post = true
  sane : l.sane post

/-- The header counts these records, which follow it. -/
structure Holds (f count post tail : List UInt8) (records : List (List UInt8)) : Prop where
  bytes : f = l.magic ++ (count ++ post) ++ (records.flatten ++ tail)
  header : l.IsHeader count post records.length
  width : ∀ r ∈ records, r.length = l.width
  limit : records.length ≤ l.limit

variable {l} {f count post tail next record : List UInt8} {records : List (List UInt8)} {n : ℕ}

theorem IsHeader.size (h : l.IsHeader count post n) :
    (l.magic ++ (count ++ post)).length = l.size := by
  rw [List.length_append, List.length_append, h.count_length, h.post_length, Layout.size]

theorem length_flatten_width (h : ∀ r ∈ records, r.length = l.width) :
    records.flatten.length = records.length * l.width := by
  have hid := @length_flatMap_width UInt8 (List UInt8) l.width id records h
  rwa [List.flatMap_id] at hid

theorem Holds.readable (h : l.Holds f count post tail records) : l.Readable f := by
  have hmagic : f = l.magic ++ (count ++ (post ++ (records.flatten ++ tail))) := by
    rw [h.bytes, List.append_assoc, List.append_assoc]
  refine ⟨?_, ?_, ?_⟩
  · rw [h.bytes, List.length_append, h.header.size]
    exact Nat.le_add_right _ _
  · rw [hmagic, List.take_left]
  · have hpost : f.drop (l.magic.length + 8) = post ++ (records.flatten ++ tail) := by
      rw [hmagic, ← h.header.count_length, List.drop_length_add_append, List.drop_left]
    rw [hpost, List.take_left' h.header.post_length]
    exact h.header.accepts

theorem Holds.count_eq (h : l.Holds f count post tail records) : l.count f = records.length := by
  have hmagic : f = l.magic ++ (count ++ (post ++ (records.flatten ++ tail))) := by
    rw [h.bytes, List.append_assoc, List.append_assoc]
  rw [Layout.count, wordAt, hmagic, List.drop_left, List.take_left' h.header.count_length,
    h.header.count]

theorem Readable.split (h : l.Readable f) :
    f = l.magic ++ ((f.drop l.magic.length).take 8 ++
      (f.drop (l.magic.length + 8)).take l.rest) ++ f.drop l.size := by
  have hsplit : f.drop l.magic.length = (f.drop l.magic.length).take 8 ++
      ((f.drop (l.magic.length + 8)).take l.rest ++ f.drop l.size) := by
    have hsize : f.drop l.size = ((f.drop l.magic.length).drop 8).drop l.rest := by
      rw [List.drop_drop, List.drop_drop, Layout.size]
    rw [hsize, ← List.drop_drop, List.take_append_drop, List.take_append_drop]
  conv_lhs => rw [← List.take_append_drop l.magic.length f, h.magic, hsplit]
  simp only [List.append_assoc]

end Layout

/-! One append, cut short after any number of bytes. -/

namespace Layout

variable {l : Layout} {f count post tail next record : List UInt8} {records : List (List UInt8)}
  {n : ℕ}

/-- The crash comes inside the count while its low bytes roll over. -/
def CutsCount (l : Layout) (f : List UInt8) (m : ℕ) : Prop :=
  ∃ j, 0 < j ∧ j < 8 ∧ m = l.width + l.magic.length + j ∧ 256 ^ j ∣ l.count f + 1

theorem crash_plan (m : ℕ) (header : List UInt8) :
    crash Op.apply m (l.plan n header record) f =
      run Op.apply ([Op.cut (l.size + (n + 1) * l.width)].take (m - record.length - header.length))
        (run Op.apply (write 0 (header.take (m - record.length)))
          (run Op.apply (write (l.size + n * l.width) (record.take m)) f)) := by
  rw [crash, plan, List.take_append, List.take_append, write_length, write_length, take_write,
    take_write, run_append, run_append]

theorem run_header {old rest : List UInt8} (header : List UInt8) (k : ℕ)
    (h : header.length = old.length) :
    run Op.apply (write 0 (header.take k)) (old ++ rest) = torn k header old ++ rest := by
  have hwrite := run_write [] (header.take k) (old ++ rest)
  rw [List.nil_append, List.length_nil, List.nil_append, List.length_take] at hwrite
  rw [hwrite, torn, List.append_assoc]
  congr 1
  rcases Nat.le_total k header.length with hk | hk
  · rw [Nat.min_eq_left hk, List.drop_append_of_le_length (h ▸ hk)]
  · have hold : old.length ≤ k := h ▸ hk
    rw [Nat.min_eq_right hk, h, List.drop_left, List.drop_of_length_le hold, List.nil_append]

theorem Holds.crash_eq (h : l.Holds f count post tail records) (hrecord : record.length = l.width)
    (hnext : next.length = 8) (m : ℕ) : ∃ tail',
      crash Op.apply m (l.plan records.length (l.magic ++ (next ++ post)) record) f =
        l.magic ++ (torn (m - l.width - l.magic.length) next count ++ post) ++
          (records.flatten ++ (record.take m ++ tail')) ∧
      (l.width + l.size < m → tail' = []) := by
  have hlen : (l.magic ++ (next ++ post)).length = (l.magic ++ (count ++ post)).length := by
    simp only [List.length_append, hnext, h.header.count_length]
  have hoff : l.size + records.length * l.width =
      (l.magic ++ (count ++ post) ++ records.flatten).length := by
    rw [List.length_append, h.header.size, length_flatten_width h.width]
  have hf : f = l.magic ++ (count ++ post) ++ records.flatten ++ tail := by
    rw [h.bytes]
    simp only [List.append_assoc]
  have htorn : torn (m - record.length) (l.magic ++ (next ++ post))
      (l.magic ++ (count ++ post)) =
        l.magic ++ (torn (m - l.width - l.magic.length) next count ++ post) := by
    rw [torn_append _ _ _ rfl, torn_self, torn_append _ _ _ (hnext.trans h.header.count_length.symm),
      torn_self, hrecord]
  rw [crash_plan, hoff, hf, run_write, List.append_assoc, run_header _ _ hlen, htorn, hlen,
    h.header.size, hrecord]
  have htlen : (l.magic ++ (torn (m - l.width - l.magic.length) next count ++ post)).length =
      l.size := by
    rw [List.length_append, List.length_append,
      length_torn (hnext.trans h.header.count_length.symm), hnext, h.header.post_length,
      Layout.size]
  generalize l.magic ++ (torn (m - l.width - l.magic.length) next count ++ post) = header
    at htlen ⊢
  -- the truncation is the last operation: it has run only if both writes are complete
  by_cases hm : l.width + l.size < m
  · have hone : [Op.cut (l.size + (records.length + 1) * l.width)].take (m - l.width - l.size) =
        [Op.cut (l.size + (records.length + 1) * l.width)] :=
      List.take_of_length_le (by rw [List.length_singleton]; omega)
    have hkept : (header ++ (records.flatten ++ record.take m)).length =
        l.size + (records.length + 1) * l.width := by
      have hfull : record.take m = record := List.take_of_length_le (by omega)
      rw [List.length_append, List.length_append, hfull, hrecord, htlen,
        length_flatten_width h.width, Nat.succ_mul]
    refine ⟨[], ?_, fun _ => rfl⟩
    rw [hone, run_cons, run_nil, List.append_nil, ← apply_cut_append _ (tail.drop (record.take m).length)
      hkept]
    simp only [List.append_assoc]
  · have hnone : [Op.cut (l.size + (records.length + 1) * l.width)].take (m - l.width - l.size) =
        [] := by
      have hzero : m - l.width - l.size = 0 := by omega
      rw [hzero, List.take_zero]
    exact ⟨tail.drop (record.take m).length, by rw [hnone, run_nil], fun h => absurd h hm⟩

theorem Holds.concat (h : l.Holds f count post tail records) (hrecord : record.length = l.width)
    (hheader : l.IsHeader next post (records.length + 1)) (hlimit : records.length + 1 ≤ l.limit)
    {f' tail' : List UInt8}
    (hbytes : f' = l.magic ++ (next ++ post) ++ (records.flatten ++ (record ++ tail'))) :
    l.Holds f' next post tail' (records ++ [record]) where
  bytes := by
    rw [hbytes, List.flatten_concat]
    simp only [List.append_assoc]
  header := by
    rw [List.length_append]
    exact hheader
  width r hr := by
    rcases List.mem_append.mp hr with hr | hr
    · exact h.width r hr
    · rw [List.mem_singleton.mp hr]
      exact hrecord
  limit := by
    rw [List.length_append]
    exact hlimit

/-- An append that is cut short adds its record or nothing. -/
theorem Holds.crash (h : l.Holds f count post tail records) (hrecord : record.length = l.width)
    (hheader : l.IsHeader next post (records.length + 1)) (hlimit : records.length + 1 ≤ l.limit)
    {m : ℕ} (hcut : ¬l.CutsCount f m) :
    (∃ tail', l.Holds (crash Op.apply m
        (l.plan records.length (l.magic ++ (next ++ post)) record) f) count post tail' records) ∨
      ∃ tail', l.Holds (crash Op.apply m
        (l.plan records.length (l.magic ++ (next ++ post)) record) f) next post tail'
          (records ++ [record]) := by
  obtain ⟨tail', hbytes, -⟩ := h.crash_eq hrecord hheader.count_length m
  rw [hbytes]
  rcases Nat.eq_zero_or_pos (m - l.width - l.magic.length) with hj | hj
  · rw [hj, torn_zero]
    exact Or.inl ⟨_, rfl, h.header, h.width, h.limit⟩
  · have hfull : record.take m = record := List.take_of_length_le (by omega)
    have htorn : torn (m - l.width - l.magic.length) next count = next := by
      rcases Nat.lt_or_ge (m - l.width - l.magic.length) 8 with hlt | hge
      · refine torn_count (hheader.count_length.trans h.header.count_length.symm)
          (by rw [hheader.count, h.header.count]) fun hdvd => hcut ⟨_, hj, hlt, by omega, ?_⟩
        rw [h.count_eq, ← h.header.count]
        exact hdvd
      · exact torn_of_le (Nat.le_trans (Nat.le_of_eq hheader.count_length) hge) (Nat.le_trans (Nat.le_of_eq h.header.count_length) hge)
    rw [htorn, hfull]
    exact Or.inr ⟨tail', h.concat hrecord hheader hlimit rfl⟩

theorem Holds.run (h : l.Holds f count post tail records) (hrecord : record.length = l.width)
    (hheader : l.IsHeader next post (records.length + 1)) (hlimit : records.length + 1 ≤ l.limit) :
    l.Holds (CrashPrefix.run Op.apply
      (l.plan records.length (l.magic ++ (next ++ post)) record) f) next post []
        (records ++ [record]) := by
  have hlen : (l.plan records.length (l.magic ++ (next ++ post)) record).length =
      l.width + l.size + 1 := by
    rw [plan, List.length_append, List.length_append, write_length, write_length, hrecord,
      hheader.size]
    rfl
  obtain ⟨tail', hbytes, htail⟩ :=
    h.crash_eq hrecord hheader.count_length (l.width + l.size + 1)
  rw [CrashPrefix.crash, ← hlen, List.take_length, hlen, htail (Nat.lt_succ_self _)] at hbytes
  have htorn : torn (l.width + l.size + 1 - l.width - l.magic.length) next count = next := by
    refine torn_of_le ?_ ?_
    · rw [hheader.count_length, Layout.size]
      omega
    · rw [h.header.count_length, Layout.size]
      omega
  have hfull : record.take (l.width + l.size + 1) = record :=
    List.take_of_length_le (by omega)
  rw [htorn, hfull] at hbytes
  exact h.concat hrecord hheader hlimit hbytes

@[simp] theorem leNat_zeros (n : ℕ) : leNat (zeros n) = 0 := by
  induction n with
  | zero => rfl
  | succ n ih =>
    have hcons : leNat (zeros (n + 1)) = 0 + 256 * leNat (zeros n) := rfl
    rw [hcons, ih]

theorem crash_start {header : List UInt8} (hheader : header.length = l.size)
    (hrecord : record.length = l.width) (hpos : 0 < l.width) {m : ℕ} (hm : 0 < m) :
    crash Op.apply m (l.plan 0 header record) [] =
      torn (m - l.width) header (zeros l.size) ++ record.take m := by
  have hne : record.take m ≠ [] := by
    intro h
    have hlen := congrArg List.length h
    rw [List.length_take, hrecord, List.length_nil] at hlen
    omega
  have hzeros : header.length = (zeros l.size).length := by
    rw [hheader, zeros, List.length_replicate]
  have hoff : l.size + 0 * l.width = l.size := by rw [Nat.zero_mul, Nat.add_zero]
  have hend : l.size + (0 + 1) * l.width = l.size + l.width := by rw [Nat.zero_add, Nat.one_mul]
  rw [crash_plan, hoff, hend, run_write_nil _ hne, run_header _ _ hzeros, hrecord, hheader]
  rcases Nat.eq_zero_or_pos (m - l.width - l.size) with hk | hk
  · rw [hk, List.take_zero, run_nil]
  · have hone : [Op.cut (l.size + l.width)].take (m - l.width - l.size) =
        [Op.cut (l.size + l.width)] := List.take_of_length_le hk
    have hkept : (torn (m - l.width) header (zeros l.size) ++ record.take m).length =
        l.size + l.width := by
      rw [List.length_append, length_torn hzeros, hheader, List.take_of_length_le (by omega),
        hrecord]
    have hcut := apply_cut_append _ [] hkept
    rw [List.append_nil] at hcut
    rw [hone, run_cons, run_nil, hcut]

/-- What a crash in the first append leaves reads as no record or as the first
one, if it can be read at all. -/
theorem Readable.start (hheader : l.IsHeader next post 1) (hrecord : record.length = l.width)
    (hpos : 0 < l.width) (hlimit : 1 ≤ l.limit) {m : ℕ} (hm : 0 < m)
    (h : l.Readable (crash Op.apply m (l.plan 0 (l.magic ++ (next ++ post)) record) [])) :
    ∃ count post' tail', ∃ records : List (List UInt8), (records = [] ∨ records = [record]) ∧
      l.Holds (crash Op.apply m (l.plan 0 (l.magic ++ (next ++ post)) record) [])
        count post' tail' records := by
  have hsplit : zeros l.size = zeros l.magic.length ++ (zeros 8 ++ zeros l.rest) := by
    rw [Layout.size, zeros, zeros, zeros, zeros, List.replicate_append_replicate,
      List.replicate_append_replicate]
  have hzeros (n : ℕ) : (zeros n).length = n := List.length_replicate
  have hbytes := crash_start hheader.size hrecord hpos hm
  rw [hsplit, torn_append _ _ _ (hzeros _).symm, torn_append _ _ _ (by rw [hheader.count_length, hzeros])]
    at hbytes
  set count := torn (m - l.width - l.magic.length) next (zeros 8) with hcount
  set post' := torn (m - l.width - l.magic.length - next.length) post (zeros l.rest)
  have hcountLen : count.length = 8 := by
    rw [hcount, length_torn (by rw [hheader.count_length, hzeros]), hheader.count_length]
  have hpostLen : post'.length = l.rest :=
    (length_torn (by rw [hheader.post_length, hzeros])).trans hheader.post_length
  have hmagicLen : (torn (m - l.width) l.magic (zeros l.magic.length)).length = l.magic.length :=
    length_torn (hzeros _).symm
  -- the bytes not yet written read as zeros, so a readable file has its whole magic
  have hmagic : torn (m - l.width) l.magic (zeros l.magic.length) = l.magic := by
    have htake := h.magic
    rw [hbytes, List.append_assoc, List.take_left' hmagicLen] at htake
    exact htake
  have haccepts : l.accepts post' = true := by
    have haccepts := h.accepts
    rwa [hbytes, hmagic, List.append_assoc, List.append_assoc, ← hcountLen,
      List.drop_length_add_append, List.drop_left, List.take_left' hpostLen] at haccepts
  have hsane : l.sane post' := by
    have htorn := l.sane_torn (m - l.width - l.magic.length - next.length) post hheader.sane
    rwa [hheader.post_length] at htorn
  rw [hmagic] at hbytes
  have hheld : ∀ (records : List (List UInt8)) (tail : List UInt8), leNat count = records.length →
      (∀ r ∈ records, r.length = l.width) → records.length ≤ l.limit →
      record.take m = records.flatten ++ tail →
      l.Holds (crash Op.apply m (l.plan 0 (l.magic ++ (next ++ post)) record) []) count post' tail
        records := by
    intro records tail hn hwidth hlimit htail
    refine ⟨?_, ⟨hcountLen, hn, hpostLen, haccepts, hsane⟩, hwidth, hlimit⟩
    rw [hbytes, htail]
  -- no byte of the count is down, or its low byte is and the count already reads 1
  rcases Nat.eq_zero_or_pos (m - l.width - l.magic.length) with hj | hj
  · refine ⟨count, post', record.take m, [], Or.inl rfl, hheld [] _ ?_ ?_ ?_ rfl⟩
    · rw [hcount, hj, torn_zero, leNat_zeros, List.length_nil]
    · exact fun r hr => nomatch hr
    · exact Nat.zero_le _
  · have htorn : count = next := by
      rw [hcount]
      rcases Nat.lt_or_ge (m - l.width - l.magic.length) 8 with hlt | hge
      · refine torn_count (by rw [hheader.count_length, hzeros])
          (by rw [hheader.count, leNat_zeros]) ?_
        rw [leNat_zeros, Nat.zero_add, Nat.dvd_one]
        exact Nat.ne_of_gt (Nat.one_lt_pow (Nat.ne_of_gt hj) (by decide))
      · exact torn_of_le (Nat.le_trans (Nat.le_of_eq hheader.count_length) hge) (Nat.le_trans (Nat.le_of_eq (hzeros 8)) hge)
    refine ⟨count, post', [], [record], Or.inr rfl, hheld [record] [] ?_ ?_ ?_ ?_⟩
    · rw [htorn, hheader.count, List.length_singleton]
    · exact fun r hr => (List.mem_singleton.mp hr) ▸ hrecord
    · exact hlimit
    · rw [List.append_nil, List.flatten_singleton, List.take_of_length_le (by omega)]

theorem holds_start (hheader : l.IsHeader next post 1) (hrecord : record.length = l.width)
    (hpos : 0 < l.width) (hlimit : 1 ≤ l.limit) {m : ℕ} (hm : l.width + l.size ≤ m) :
    l.Holds (crash Op.apply m (l.plan 0 (l.magic ++ (next ++ post)) record) []) next post []
      [record] where
  bytes := by
    rw [crash_start hheader.size hrecord hpos (by omega), List.take_of_length_le (by omega),
      torn_of_le (by rw [hheader.size]; omega) (by rw [zeros, List.length_replicate]; omega),
      List.flatten_singleton, List.append_nil]
  header := hheader
  width r hr := (List.mem_singleton.mp hr) ▸ hrecord
  limit := hlimit

end Layout

/-! Appends one after the other, each of which may be cut short. -/

inductive Crash where
  | beforeOpen
  | after (m : ℕ)
deriving DecidableEq, Repr

inductive Outcome where
  | returned
  | refused
  | interrupted
deriving DecidableEq, Repr

section History

variable {κ : Type}

/-- Opening creates the file; `ops` plans the writes from what it holds. -/
def append (ops : κ → List UInt8 → Option (List Op)) (c : κ) (crash : Option Crash)
    (file : Option (List UInt8)) : Option (List UInt8) × Outcome :=
  match crash, ops c (file.getD []) with
  | some .beforeOpen, _ => (file, .interrupted)
  | some (.after m), some os => (some (CrashPrefix.crash Op.apply m os (file.getD [])), .interrupted)
  | some (.after _), none => (some (file.getD []), .interrupted)
  | none, some os => (some (run Op.apply os (file.getD [])), .returned)
  | none, none => (some (file.getD []), .refused)

section Append

variable {ops : κ → List UInt8 → Option (List Op)} {c : κ} {file : Option (List UInt8)}
  {os : List Op}

theorem append_returned (h : ops c (file.getD []) = some os) :
    append ops c none file = (some (run Op.apply os (file.getD [])), .returned) := by
  simp only [append, h]

theorem append_refused (h : ops c (file.getD []) = none) :
    append ops c none file = (some (file.getD []), .refused) := by
  simp only [append, h]

theorem append_after {m : ℕ} (h : ops c (file.getD []) = some os) :
    append ops c (some (.after m)) file =
      (some (CrashPrefix.crash Op.apply m os (file.getD [])), .interrupted) := by
  simp only [append, h]

theorem append_after_none {m : ℕ} (h : ops c (file.getD []) = none) :
    append ops c (some (.after m)) file = (some (file.getD []), .interrupted) := by
  simp only [append, h]

theorem append_beforeOpen : append ops c (some .beforeOpen) file = (file, .interrupted) := by
  rw [append]

end Append

/-- The file after a run of appends, and how each of them ended. -/
def appends (ops : κ → List UInt8 → Option (List Op)) :
    List (κ × Option Crash) → Option (List UInt8) → Option (List UInt8) × List (κ × Outcome)
  | [], file => (file, [])
  | (c, crash) :: calls, file =>
    let (file, outcome) := append ops c crash file
    let (file, outcomes) := appends ops calls file
    (file, (c, outcome) :: outcomes)

/-- Every call of a run meets the condition, on the file it finds. -/
def Along (ops : κ → List UInt8 → Option (List Op))
    (P : List UInt8 → Option Crash → Prop) : List (κ × Option Crash) → Option (List UInt8) → Prop
  | [], _ => True
  | (c, crash) :: calls, file =>
    P (file.getD []) crash ∧ Along ops P calls (append ops c crash file).1

/-- The appends that a reader finds: all that returned, and of those that were
interrupted some. -/
inductive Survives : List (κ × Outcome) → List κ → Prop
  | nil : Survives [] []
  | returned {c : κ} {outcomes : List (κ × Outcome)} {cs : List κ} (h : Survives outcomes cs) :
      Survives ((c, .returned) :: outcomes) (c :: cs)
  | refused {c : κ} {outcomes : List (κ × Outcome)} {cs : List κ} (h : Survives outcomes cs) :
      Survives ((c, .refused) :: outcomes) cs
  | kept {c : κ} {outcomes : List (κ × Outcome)} {cs : List κ} (h : Survives outcomes cs) :
      Survives ((c, .interrupted) :: outcomes) (c :: cs)
  | lost {c : κ} {outcomes : List (κ × Outcome)} {cs : List κ} (h : Survives outcomes cs) :
      Survives ((c, .interrupted) :: outcomes) cs

def NoCountCut (l : Layout) (f : List UInt8) (crash : Option Crash) : Prop :=
  ∀ m, crash = some (.after m) → ¬l.CutsCount f m

/-- The crash comes between the first byte of a new file and the end of its header. -/
def CutsCreation (l : Layout) (f : List UInt8) (crash : Option Crash) : Prop :=
  ∃ m, crash = some (.after m) ∧ f = [] ∧ 0 < m ∧ m < l.width + l.size

/-- The writes that `ops` plans are those of an append to such a file. -/
structure Appends (l : Layout) (ops : κ → List UInt8 → Option (List Op))
    (record : κ → List UInt8) : Prop where
  width_pos : 0 < l.width
  record_length : ∀ c, (record c).length = l.width
  start : ∀ c os, ops c [] = some os → 1 ≤ l.limit ∧ ∃ next post, l.IsHeader next post 1 ∧
    os = l.plan 0 (l.magic ++ (next ++ post)) (record c)
  next : ∀ c os f count post tail (records : List (List UInt8)),
    l.Holds f count post tail records → ops c f = some os → records.length + 1 ≤ l.limit ∧
      ∃ next, l.IsHeader next post (records.length + 1) ∧
        os = l.plan records.length (l.magic ++ (next ++ post)) (record c)
  refuse : ∀ c f, l.Damaged f → ops c f = none

def Sound (l : Layout) (f : List UInt8) (records : List (List UInt8)) : Prop :=
  (f = [] ∧ records = []) ∨ ∃ count post tail, l.Holds f count post tail records

variable {l : Layout} {ops : κ → List UInt8 → Option (List Op)} {record : κ → List UInt8}

theorem Appends.damaged (h : Appends l ops record) {file : Option (List UInt8)}
    (hfile : l.Damaged (file.getD [])) (c : κ) (crash : Option Crash) :
    l.Damaged ((append ops c crash file).1.getD []) ∧
      Survives [(c, (append ops c crash file).2)] [] := by
  have hnone := h.refuse c _ hfile
  rcases crash with _ | _ | m
  · rw [append_refused hnone]
    exact ⟨hfile, .refused .nil⟩
  · rw [append_beforeOpen]
    exact ⟨hfile, .lost .nil⟩
  · rw [append_after_none hnone]
    exact ⟨hfile, .lost .nil⟩

theorem Appends.holds_returned (h : Appends l ops record) {f : List UInt8} {cs : List κ}
    (hfile : Sound l f (cs.map record)) {c : κ} {os : List Op} (hops : ops c f = some os) :
    ∃ count post, l.Holds (CrashPrefix.run Op.apply os f) count post []
      ((cs ++ [c]).map record) := by
  have hconcat : (cs ++ [c]).map record = cs.map record ++ [record c] := List.map_append
  rcases hfile with ⟨rfl, hcs⟩ | ⟨count, post, tail, hholds⟩
  · obtain ⟨hlimit, next, post, hheader, rfl⟩ := h.start c os hops
    have hlen : (l.plan 0 (l.magic ++ (next ++ post)) (record c)).length =
        l.width + l.size + 1 := by
      rw [Layout.plan, List.length_append, List.length_append, write_length, write_length,
        h.record_length, hheader.size]
      rfl
    have hrun := Layout.holds_start hheader (h.record_length c) h.width_pos hlimit
      (Nat.le_succ (l.width + l.size))
    rw [CrashPrefix.crash, ← Nat.add_one, ← hlen, List.take_length] at hrun
    refine ⟨next, post, ?_⟩
    rw [hconcat, hcs]
    exact hrun
  · obtain ⟨hlimit, next, hheader, rfl⟩ := h.next c os _ count post tail _ hholds hops
    refine ⟨next, post, ?_⟩
    rw [hconcat]
    exact hholds.run (h.record_length c) hheader hlimit

/-- One append adds its record or nothing; only a crash that cuts the creation
of the file damages it. -/
theorem Appends.step (h : Appends l ops record) {file : Option (List UInt8)} {cs : List κ}
    (hfile : Sound l (file.getD []) (cs.map record)) (c : κ) (crash : Option Crash)
    (hcut : NoCountCut l (file.getD []) crash) :
    ∃ cs', Survives [(c, (append ops c crash file).2)] cs' ∧
      (Sound l ((append ops c crash file).1.getD []) ((cs ++ cs').map record) ∨
        (CutsCreation l (file.getD []) crash ∧
          l.Damaged ((append ops c crash file).1.getD []))) := by
  have hsame : Sound l (file.getD []) ((cs ++ []).map record) := by
    rw [List.append_nil]
    exact hfile
  have hconcat : (cs ++ [c]).map record = cs.map record ++ [record c] := List.map_append
  cases hops : ops c (file.getD []) with
  | none =>
    rcases crash with _ | _ | m
    · rw [append_refused hops]
      exact ⟨[], .refused .nil, Or.inl hsame⟩
    · rw [append_beforeOpen]
      exact ⟨[], .lost .nil, Or.inl hsame⟩
    · rw [append_after_none hops]
      exact ⟨[], .lost .nil, Or.inl hsame⟩
  | some os =>
    rcases crash with _ | _ | m
    · obtain ⟨count, post, hholds⟩ := h.holds_returned hfile hops
      rw [append_returned hops]
      exact ⟨[c], .returned .nil, Or.inl (Or.inr ⟨count, post, [], hholds⟩)⟩
    · rw [append_beforeOpen]
      exact ⟨[], .lost .nil, Or.inl hsame⟩
    · rw [append_after hops]
      -- a first record creates the header with it, a later one only counts it in
      rcases hfile with ⟨hnil, hcs⟩ | ⟨count, post, tail, hholds⟩
      · rw [hnil] at hops ⊢
        obtain ⟨hlimit, next, post, hheader, rfl⟩ := h.start c os hops
        rcases Nat.eq_zero_or_pos m with rfl | hm
        · refine ⟨[], .lost .nil, Or.inl (Or.inl ⟨rfl, ?_⟩)⟩
          rw [List.append_nil]
          exact hcs
        -- unreadable means cut within the new header: the file is damaged for good
        · by_cases hread : l.Readable (CrashPrefix.crash Op.apply m
              (l.plan 0 (l.magic ++ (next ++ post)) (record c)) [])
          · obtain ⟨count, post', tail', records, hrecords, hholds⟩ :=
              hread.start hheader (h.record_length c) h.width_pos hlimit hm
            rcases hrecords with rfl | rfl
            · refine ⟨[], .lost .nil, Or.inl (Or.inr ⟨count, post', tail', ?_⟩)⟩
              rw [List.append_nil, hcs]
              exact hholds
            · refine ⟨[c], .kept .nil, Or.inl (Or.inr ⟨count, post', tail', ?_⟩)⟩
              rw [hconcat, hcs]
              exact hholds
          · refine ⟨[], .lost .nil, Or.inr ⟨⟨m, rfl, rfl, hm, ?_⟩, ?_, hread⟩⟩
            · by_contra hge
              exact hread (Layout.holds_start hheader (h.record_length c) h.width_pos hlimit
                (Nat.not_lt.mp hge)).readable
            · intro hempty
              have hbytes := Layout.crash_start hheader.size (h.record_length c) h.width_pos hm
              have hlen := congrArg List.length (hbytes.symm.trans hempty)
              rw [List.length_append, List.length_take, h.record_length, List.length_nil] at hlen
              have := h.width_pos
              omega
      · obtain ⟨hlimit, next, hheader, rfl⟩ := h.next c os _ count post tail _ hholds hops
        rcases hholds.crash (h.record_length c) hheader hlimit (hcut m rfl) with
          ⟨tail', hkeep⟩ | ⟨tail', hadd⟩
        · refine ⟨[], .lost .nil, Or.inl (Or.inr ⟨count, post, tail', ?_⟩)⟩
          rw [List.append_nil]
          exact hkeep
        · refine ⟨[c], .kept .nil, Or.inl (Or.inr ⟨next, post, tail', ?_⟩)⟩
          rw [hconcat]
          exact hadd

theorem Survives.append {outcome : κ × Outcome} {outcomes : List (κ × Outcome)} {cs cs' : List κ}
    (h : Survives [outcome] cs) (h' : Survives outcomes cs') :
    Survives (outcome :: outcomes) (cs ++ cs') := by
  cases h with
  | returned h =>
    cases h
    exact .returned h'
  | refused h =>
    cases h
    exact .refused h'
  | kept h =>
    cases h
    exact .kept h'
  | lost h =>
    cases h
    exact .lost h'

theorem Appends.damaged_run (h : Appends l ops record) (calls : List (κ × Option Crash))
    {file : Option (List UInt8)} (hfile : l.Damaged (file.getD [])) :
    l.Damaged ((appends ops calls file).1.getD []) ∧ Survives (appends ops calls file).2 [] := by
  induction calls generalizing file with
  | nil => exact ⟨hfile, .nil⟩
  | cons call calls ih =>
    obtain ⟨c, crash⟩ := call
    obtain ⟨hstep, hout⟩ := h.damaged hfile c crash
    obtain ⟨hrest, houts⟩ := ih hstep
    exact ⟨hrest, hout.append houts⟩

/-- A run of appends leaves the records of those that survive, or a file that
no reader and no append accepts any more. -/
theorem Appends.run (h : Appends l ops record) (calls : List (κ × Option Crash))
    {file : Option (List UInt8)} {cs : List κ} (hfile : Sound l (file.getD []) (cs.map record))
    (hcut : Along ops (NoCountCut l) calls file) :
    ∃ cs', Survives (appends ops calls file).2 cs' ∧
      (Sound l ((appends ops calls file).1.getD []) ((cs ++ cs').map record) ∨
        (¬Along ops (fun f crash => ¬CutsCreation l f crash) calls file ∧
          l.Damaged ((appends ops calls file).1.getD []))) := by
  induction calls generalizing file cs with
  | nil =>
    refine ⟨[], .nil, Or.inl ?_⟩
    rw [List.append_nil]
    exact hfile
  | cons call calls ih =>
    obtain ⟨c, crash⟩ := call
    obtain ⟨hhere, hlater⟩ := hcut
    obtain ⟨cs', hout, hsound | ⟨hcreate, hdamaged⟩⟩ := h.step hfile c crash hhere
    · obtain ⟨cs'', houts, hrest⟩ := ih hsound hlater
      refine ⟨cs' ++ cs'', hout.append houts, ?_⟩
      rw [← List.append_assoc]
      rcases hrest with hrest | ⟨hnot, hdamaged⟩
      · exact Or.inl hrest
      · exact Or.inr ⟨fun hall => hnot hall.2, hdamaged⟩
    · obtain ⟨hdamaged, houts⟩ := h.damaged_run calls hdamaged
      exact ⟨cs' ++ [], hout.append houts, Or.inr ⟨fun hall => hall.1 hcreate, hdamaged⟩⟩

end History

/-! What readers see of such a file. -/

section Readers

variable {κ ρ χ : Type}

/-- The readers of a log, each with its own checks on the header, and the
appends that the file has room for. -/
structure ReadsLog (l : Layout) (ops : κ → List UInt8 → Option (List Op))
    (record : κ → List UInt8) (row : κ → ρ)
    (read : (χ → Bool) → Option (List UInt8) → Option (List ρ)) (fits : κ → ℕ → Prop) : Prop where
  absent : ∀ accepts, read accepts none = some []
  empty : ∀ accepts, read accepts (some []) = none
  damaged : ∀ accepts f, l.Damaged f → read accepts (some f) = none
  holds : ∀ accepts f count post tail (cs : List κ), l.Holds f count post tail (cs.map record) →
    read accepts (some f) = none ∨ read accepts (some f) = some (cs.map row)
  clean : ∀ f count post (cs : List κ) c, l.Holds f count post [] ((cs ++ [c]).map record) →
    fits c cs.length → read (fun _ => true) (some f) = some ((cs ++ [c]).map row)
  ready : ∀ c f (cs : List κ), Sound l f (cs.map record) → fits c cs.length → (ops c f).isSome

/-- After a run of appends on a missing file: what readers see, and that the next
append that comes to its end leaves a file that reads in full. -/
structure CrashSafe (l : Layout) (ops : κ → List UInt8 → Option (List Op)) (row : κ → ρ)
    (read : (χ → Bool) → Option (List UInt8) → Option (List ρ)) (fits : κ → ℕ → Prop)
    (calls : List (κ × Option Crash)) (kept : List κ) : Prop where
  survives : Survives (appends ops calls none).2 kept
  sees : ∀ accepts, read accepts (appends ops calls none).1 = none ∨
    read accepts (appends ops calls none).1 = some (kept.map row)
  heals : Along ops (fun f crash => ¬CutsCreation l f crash) calls none → ∀ c, fits c kept.length →
    (append ops c none (appends ops calls none).1).2 = .returned ∧
      read (fun _ => true) (append ops c none (appends ops calls none).1).1 =
        some ((kept ++ [c]).map row)

variable {l : Layout} {ops : κ → List UInt8 → Option (List Op)} {record : κ → List UInt8}
  {row : κ → ρ} {read : (χ → Bool) → Option (List UInt8) → Option (List ρ)} {fits : κ → ℕ → Prop}

theorem ReadsLog.sees (h : ReadsLog l ops record row read fits) {file : Option (List UInt8)}
    {cs : List κ} (hsound : Sound l (file.getD []) (cs.map record)) (accepts : χ → Bool) :
    read accepts file = none ∨ read accepts file = some (cs.map row) := by
  rcases hsound with ⟨hnil, hcs⟩ | ⟨count, post, tail, hholds⟩
  · obtain rfl := List.map_eq_nil_iff.mp hcs
    cases file with
    | none => exact Or.inr (h.absent accepts)
    | some f =>
      obtain rfl : f = [] := hnil
      exact Or.inl (h.empty accepts)
  · cases file with
    | none =>
      have hlimit := hholds.count_eq
      have hread := hholds.readable
      exact absurd hread.length (by
        rw [Option.getD_none, List.length_nil, Nat.not_le, Layout.size]
        omega)
    | some f => exact h.holds accepts f count post tail cs hholds

theorem ReadsLog.heals (h : ReadsLog l ops record row read fits) (hops : Appends l ops record)
    {file : Option (List UInt8)} {cs : List κ} (hsound : Sound l (file.getD []) (cs.map record))
    {c : κ} (hfits : fits c cs.length) : (append ops c none file).2 = .returned ∧
      read (fun _ => true) (append ops c none file).1 = some ((cs ++ [c]).map row) := by
  obtain ⟨os, hos⟩ := Option.isSome_iff_exists.mp (h.ready c _ cs hsound hfits)
  obtain ⟨count, post, hholds⟩ := hops.holds_returned hsound hos
  rw [append_returned hos]
  exact ⟨rfl, h.clean _ count post cs c hholds hfits⟩

theorem ReadsLog.crashSafe (h : ReadsLog l ops record row read fits)
    (hops : Appends l ops record) {calls : List (κ × Option Crash)}
    (hcut : Along ops (NoCountCut l) calls none) :
    ∃ kept, CrashSafe l ops row read fits calls kept := by
  obtain ⟨kept, hsurvives, hfile⟩ :=
    @Appends.run _ _ _ _ hops calls none [] (Or.inl ⟨rfl, rfl⟩) hcut
  rw [List.nil_append] at hfile
  rcases hfile with hsound | ⟨hcreate, hdamaged⟩
  · exact ⟨kept, hsurvives, h.sees hsound, fun _ c hfits => h.heals hops hsound hfits⟩
  · refine ⟨kept, hsurvives, fun accepts => Or.inl ?_, fun hall => absurd hall hcreate⟩
    cases hfile : (appends ops calls none).1 with
    | none =>
      rw [hfile] at hdamaged
      exact absurd rfl hdamaged.ne_nil
    | some f =>
      rw [hfile] at hdamaged
      exact h.damaged accepts f hdamaged

end Readers

end CountedLog
