import PgCuvs.Library.Records

/-! Files that consist of a header and a body, where the header states how many items the body
holds and their checksum. -/

namespace Records

variable {α : Type}

theorem Canonical.unique {r : Reader α} {encode : α → List UInt8} (hr : Canonical r encode)
    (hreads : ∀ value, Reads r (encode value) value) {front tail body rest : List UInt8}
    {value found : α} (h : r front = some (found, rest))
    (heq : front ++ tail = encode value ++ body) :
    found = value ∧ rest ++ tail = body := by
  have hboth : encode found ++ (rest ++ tail) = encode value ++ body := by
    rw [← List.append_assoc, ← hr _ _ _ h, heq]
  have hread := congrArg r hboth
  rw [hreads found, hreads value] at hread
  exact Prod.mk.inj (Option.some.inj hread)

end Records

namespace CheckedBody

open Records

/-- The layout of such a file, with its checksum over the bytes of the body. -/
structure Format (H α C : Type) where
  headerBytes : H → List UInt8
  readHeader : Reader H
  accepts : H → Bool
  count : H → ℕ
  bodySum : H → C
  itemBytes : α → List UInt8
  readItem : Reader α
  width : ℕ
  checksum : List UInt8 → C
  header_reads : ∀ hdr, Reads readHeader (headerBytes hdr) hdr
  header_canonical : Canonical readHeader headerBytes
  item_reads : ∀ item, Reads readItem (itemBytes item) item
  item_canonical : Canonical readItem itemBytes
  item_length : ∀ item, (itemBytes item).length = width

namespace Format

variable {H α C : Type} (f : Format H α C)

def bodyBytes (body : List α) : List UInt8 := body.flatMap f.itemBytes

def bytes (hdr : H) (body : List α) : List UInt8 := f.headerBytes hdr ++ f.bodyBytes body

/-- The header is checked before the body is read, the checksum after. -/
def read [DecidableEq C] : Reader (H × List α) := fun bytes =>
  match f.readHeader bytes with
  | none => none
  | some (hdr, bytes) =>
    if f.accepts hdr = false then none
    else
      match many f.readItem (f.count hdr) bytes with
      | none => none
      | some (body, bytes) =>
        if f.checksum (f.bodyBytes body) ≠ f.bodySum hdr then none else some ((hdr, body), bytes)

structure Describes (hdr : H) (body : List α) : Prop where
  accepted : f.accepts hdr = true
  count : body.length = f.count hdr
  sum : f.checksum (f.bodyBytes body) = f.bodySum hdr

theorem bodyBytes_length (body : List α) : (f.bodyBytes body).length = body.length * f.width :=
  length_flatMap_width fun item _ => f.item_length item

theorem many_items (body : List α) (rest : List UInt8) :
    many f.readItem body.length (f.bodyBytes body ++ rest) = some (body, rest) := by
  have h := Reads.many f.itemBytes id body fun item _ => f.item_reads item
  rw [List.map_id] at h
  exact h rest

variable [DecidableEq C] {f} {hdr : H} {body : List α} {bytes rest : List UInt8}

/-- What is read is what was written, and the other way round. -/
theorem read_eq_some :
    f.read bytes = some ((hdr, body), rest) ↔
      f.Describes hdr body ∧ bytes = f.bytes hdr body ++ rest := by
  constructor
  · intro h
    rw [read] at h
    cases hhdr : f.readHeader bytes with
    | none => rw [hhdr] at h; nomatch h
    | some p =>
      obtain ⟨found, mid⟩ := p
      rw [hhdr] at h
      obtain ⟨haccepts, h⟩ := Option.ite_none_left_eq_some.mp h
      cases hmany : many f.readItem (f.count found) mid with
      | none => rw [hmany] at h; nomatch h
      | some q =>
        obtain ⟨items, after⟩ := q
        rw [hmany] at h
        obtain ⟨hsum, h⟩ := Option.ite_none_left_eq_some.mp h
        obtain ⟨hpair, rfl⟩ := Prod.mk.inj (Option.some.inj h)
        obtain ⟨rfl, rfl⟩ := Prod.mk.inj hpair
        obtain ⟨hcount, hmid⟩ := f.item_canonical.many hmany
        refine ⟨⟨eq_true_of_ne_false haccepts, hcount, not_not.mp hsum⟩, ?_⟩
        rw [f.header_canonical _ _ _ hhdr, hmid, Format.bytes, List.append_assoc]
        rfl
  · rintro ⟨hdescribes, rfl⟩
    rw [read, Format.bytes, List.append_assoc, f.header_reads hdr]
    simp only [hdescribes.accepted, ← hdescribes.count, f.many_items, hdescribes.sum,
      Bool.true_eq_false, ne_eq, not_true_eq_false, if_false]

theorem read_bytes (h : f.Describes hdr body) (rest : List UInt8) :
    f.read (f.bytes hdr body ++ rest) = some ((hdr, body), rest) := read_eq_some.mpr ⟨h, rfl⟩

/-- A file cut short is not read, whether or not the whole one is. -/
theorem read_prefix {front : List UInt8} (hcount : body.length = f.count hdr)
    (hfront : front <+: f.bytes hdr body) (hne : front ≠ f.bytes hdr body) :
    f.read front = none := by
  obtain ⟨tail, htail⟩ := hfront
  rw [Option.eq_none_iff_forall_ne_some]
  rintro ⟨⟨found, items⟩, rest⟩ hread
  obtain ⟨hdescribes, hbytes⟩ := read_eq_some.mp hread
  have hhdr : f.readHeader front = some (found, f.bodyBytes items ++ rest) := by
    rw [hbytes, Format.bytes, List.append_assoc]
    exact f.header_reads found _
  obtain ⟨rfl, hrest⟩ := f.header_canonical.unique f.header_reads hhdr htail
  have hlen := congrArg List.length hrest
  rw [List.length_append, List.length_append, bodyBytes_length, bodyBytes_length, hcount,
    hdescribes.count] at hlen
  have hnil : tail = [] := List.length_eq_zero_iff.mp (by omega)
  apply hne
  rw [← htail, hnil, List.append_nil]

/-- A body whose checksum is not the header's is not read. -/
theorem read_damaged {damaged : List UInt8} (hlen : damaged.length = f.count hdr * f.width)
    (hsum : f.checksum damaged ≠ f.bodySum hdr) (rest : List UInt8) :
    f.read (f.headerBytes hdr ++ (damaged ++ rest)) = none := by
  rw [Option.eq_none_iff_forall_ne_some]
  rintro ⟨⟨found, items⟩, after⟩ hread
  obtain ⟨hdescribes, hbytes⟩ := read_eq_some.mp hread
  have hboth : f.headerBytes hdr ++ (damaged ++ rest) ++ []
      = f.headerBytes found ++ (f.bodyBytes items ++ after) := by
    rw [List.append_nil, hbytes, Format.bytes, List.append_assoc]
  obtain ⟨rfl, hrest⟩ :=
    f.header_canonical.unique f.header_reads (f.header_reads hdr _) hboth
  rw [List.append_nil] at hrest
  have hitems : damaged.length = (f.bodyBytes items).length := by
    rw [hlen, bodyBytes_length, hdescribes.count]
  obtain ⟨rfl, -⟩ := List.append_inj hrest hitems
  exact hsum hdescribes.sum

end Format

end CheckedBody
