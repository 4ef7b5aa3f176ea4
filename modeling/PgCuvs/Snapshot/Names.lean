import PgCuvs.Library.CodeText
import PgCuvs.Snapshot.ManifestJson

/-! The names of the objects of a snapshot: the bucket and the prefix of a URI, the
prefix of an upload, and the percent-encoding that puts a name into a request. -/

namespace PgCuvs

open Numerals CodeText

/-- Texts are one character for each byte. -/
def IsBytes (text : List Char) : Prop := ∀ c ∈ text, c.toNat < 256

instance (text : List Char) : Decidable (IsBytes text) :=
  inferInstanceAs (Decidable (∀ c ∈ text, _))

structure SnapshotConfig where
  uri : CString 512
  clusterId : CString 128
  uri_bytes : IsBytes uri.chars
  clusterId_bytes : IsBytes clusterId.chars

/-- `gs://bucket[/prefix]`, with the buffer sizes of the two parts. -/
def parseGcsUri (uri : List Char) (bsz psz : ℕ) : Option (List Char × List Char) :=
  if uri.take 5 ≠ "gs://".toList then none
  else
    let rest := uri.drop 5
    let bucket := rest.takeWhile (· != '/')
    if bsz ≤ bucket.length then none
    else
      match rest.dropWhile (· != '/') with
      | [] => some (bucket, [])
      | _ :: p =>
        -- trailing slashes are cut, of a prefix of slashes alone nothing is left
        let name := (p.reverse.dropWhile (· == '/')).reverse
        if psz ≤ name.length then none else some (bucket, name)

def urlSafe : List Char :=
  "ABCDEFGHIJKLMNOPQRSTUVWXYZabcdefghijklmnopqrstuvwxyz0123456789-._~".toList

def hexUpper (n : ℕ) : Char := (Nat.digitChar n).toUpper

def urlWord (c : Char) : List Char :=
  if c ∈ urlSafe then [c] else ['%', hexUpper (c.toNat / 16), hexUpper (c.toNat % 16)]

/-- The loop of `url_encode`, with `j` characters written. -/
def urlEncodeFrom (outSize : ℕ) : ℕ → List Char → List Char
  | _, [] => []
  | j, c :: rest =>
    if j + 4 < outSize then urlWord c ++ urlEncodeFrom outSize (j + (urlWord c).length) rest
    else []

def urlEncode (text : List Char) (outSize : ℕ) : List Char := urlEncodeFrom outSize 0 text

/-- Where a manifest stands: at the second of its upload, or at the alias. -/
inductive SnapshotSlot
  | version (buildTs : Int64)
  | latest
deriving DecidableEq

def SnapshotSlot.text : SnapshotSlot → List Char
  | .version buildTs => i64Text buildTs
  | .latest => "latest".toList

def snapshotBase (bucketPrefix clusterId : List Char) : List Char :=
  if bucketPrefix ≠ [] then bucketPrefix ++ "/pg_cuvs/".toList ++ clusterId
  else "pg_cuvs/".toList ++ clusterId

def slotPrefix (base : List Char) (dbOid indexOid : UInt32) (slot : SnapshotSlot) : List Char :=
  base ++ '/' :: (u32Text dbOid ++ '/' :: (u32Text indexOid ++ '/' :: slot.text))

def buildVersionedPrefix (bucketPrefix clusterId : List Char) (dbOid indexOid : UInt32)
    (buildTs : Int64) (outSz : ℕ) : List Char :=
  (slotPrefix (snapshotBase bucketPrefix clusterId) dbOid indexOid (.version buildTs)).take
    (outSz - 1)

def buildLatestPrefix (bucketPrefix clusterId : List Char) (dbOid indexOid : UInt32)
    (outSz : ℕ) : List Char :=
  (slotPrefix (snapshotBase bucketPrefix clusterId) dbOid indexOid .latest).take (outSz - 1)

inductive SnapshotFile
  | cagra
  | tids
  | shards
  | shard (s : UInt32)
  | manifest
deriving DecidableEq

def padded (s : UInt32) : List Char := List.replicate (3 - (u32Text s).length) '0' ++ u32Text s

def SnapshotFile.text : SnapshotFile → List Char
  | .cagra => "index.cagra".toList
  | .tids => "index.tids".toList
  | .shards => "index.shards".toList
  | .shard s => "index.s".toList ++ padded s ++ ".cagra".toList
  | .manifest => "manifest.json".toList

/-- `obj`, in a buffer of 1280. -/
def objectText (pre : List Char) (file : SnapshotFile) : List Char :=
  (pre ++ '/' :: file.text).take (1280 - 1)

/-- The bucket of a request and the encoded name in its URL. -/
abbrev ObjectName := List Char × List Char

def requestName (bucket obj : List Char) : ObjectName := (bucket, urlEncode obj 2048)

structure SnapshotTarget where
  bucket : List Char
  bucketPrefix : List Char
  clusterId : CString 128
  bucket_length : bucket.length < 256
  prefix_length : bucketPrefix.length ≤ 505
  prefix_bytes : IsBytes bucketPrefix
  clusterId_bytes : IsBytes clusterId.chars

theorem parseGcsUri_spec {uri bucket name : List Char} {bsz psz : ℕ}
    (h : parseGcsUri uri bsz psz = some (bucket, name)) :
    bucket.length < bsz ∧ (name = [] ∨ name.length + 6 ≤ uri.length) ∧ ∀ c ∈ name, c ∈ uri := by
  rw [parseGcsUri] at h
  split_ifs at h with hscheme
  have hlen : (uri.take 5).length = 5 := by rw [not_not.mp hscheme]; rfl
  have hdrop : 5 + (uri.drop 5).length = uri.length := by
    rw [List.length_take, min_eq_left_iff] at hlen
    rw [List.length_drop]
    omega
  dsimp only at h
  split_ifs at h with hbucket
  cases hrest : (uri.drop 5).dropWhile (· != '/') with
  | nil =>
    rw [hrest] at h
    have hpair := Prod.mk.inj (Option.some.inj h)
    refine ⟨?_, Or.inl hpair.2.symm, ?_⟩
    · rw [← hpair.1]
      exact Nat.lt_of_not_le hbucket
    · rw [← hpair.2]
      intro c hc
      cases hc
  | cons slash p =>
    rw [hrest] at h
    dsimp only at h
    split_ifs at h with hname
    have hpair := Prod.mk.inj (Option.some.inj h)
    have hsuffix : slash :: p <:+ uri.drop 5 := hrest ▸ List.dropWhile_suffix _
    have hpre : (p.reverse.dropWhile (· == '/')).reverse <+: p := by
      have hsuff := List.dropWhile_suffix (l := p.reverse) (· == '/')
      have hrev := List.reverse_prefix.mpr hsuff
      rwa [List.reverse_reverse] at hrev
    have hmem : ∀ c ∈ p, c ∈ uri := by
      intro c hc
      exact List.mem_of_mem_drop (hsuffix.subset (List.mem_cons_of_mem _ hc))
    refine ⟨?_, Or.inr ?_, ?_⟩
    · rw [← hpair.1]
      exact Nat.lt_of_not_le hbucket
    · rw [← hpair.2, ← hdrop]
      have hp : p.length + 1 ≤ (uri.drop 5).length := hsuffix.length_le
      have hq := hpre.length_le
      omega
    · rw [← hpair.2]
      intro c hc
      exact hmem c (hpre.subset hc)

def SnapshotConfig.target (cfg : SnapshotConfig) : Option SnapshotTarget :=
  match h : parseGcsUri cfg.uri.chars 256 512 with
  | none => none
  | some (bucket, name) => some
    { bucket := bucket
      bucketPrefix := name
      clusterId := cfg.clusterId
      bucket_length := (parseGcsUri_spec h).1
      prefix_length := by
        have hfits := cfg.uri.fits
        obtain ⟨-, hname | hname, -⟩ := parseGcsUri_spec h
        · rw [hname]
          exact Nat.zero_le _
        · omega
      prefix_bytes := fun c hc => cfg.uri_bytes c ((parseGcsUri_spec h).2.2 c hc)
      clusterId_bytes := cfg.clusterId_bytes }

namespace SnapshotTarget

variable (t : SnapshotTarget)

def base : List Char := snapshotBase t.bucketPrefix t.clusterId.chars

/-- The name of a file of an index's snapshot, as `cuvs_objstore_upload` and
`cuvs_objstore_download` form it. -/
def object (dbOid indexOid : UInt32) (slot : SnapshotSlot) (file : SnapshotFile) : ObjectName :=
  requestName t.bucket <| objectText
    (match slot with
      | .version buildTs =>
        buildVersionedPrefix t.bucketPrefix t.clusterId.chars dbOid indexOid buildTs 1024
      | .latest => buildLatestPrefix t.bucketPrefix t.clusterId.chars dbOid indexOid 1024)
    file

end SnapshotTarget

/-! The encoding. -/

theorem hexUpper_inj : ∀ m < 16, ∀ n < 16, hexUpper m = hexUpper n → m = n := by decide

theorem urlWord_length (c : Char) : 1 ≤ (urlWord c).length ∧ (urlWord c).length ≤ 3 := by
  rw [urlWord]
  split_ifs
  · exact ⟨le_refl 1, Nat.le_add_left 1 2⟩
  · exact ⟨Nat.le_add_left 1 2, le_refl 3⟩

theorem urlWord_prefixFree : PrefixFree urlWord fun c => c.toNat < 256 where
  ne_nil c _ h := by
    have hlen := (urlWord_length c).1
    rw [h] at hlen
    exact absurd hlen (by decide)
  unique a b ha hb h := by
    have hpercent : '%' ∉ urlSafe := by decide
    rw [urlWord, urlWord] at h
    split_ifs at h with hsa hsb hsb
    · exact (List.cons_prefix_cons.mp h).1
    · exact absurd ((List.cons_prefix_cons.mp h).1 ▸ hsa) hpercent
    · exact absurd h.length_le (Nat.not_le_of_lt (Nat.lt_add_of_pos_right (Nat.succ_pos 1)))
    · have hhex := (List.cons_prefix_cons.mp h).2
      have hhi := List.cons_prefix_cons.mp hhex
      have hlo := (List.cons_prefix_cons.mp hhi.2).1
      have hdiv : a.toNat / 16 = b.toNat / 16 :=
        hexUpper_inj _ (Nat.div_lt_of_lt_mul ha) _ (Nat.div_lt_of_lt_mul hb) hhi.1
      have hmod : a.toNat % 16 = b.toNat % 16 :=
        hexUpper_inj _ (Nat.mod_lt _ (by decide)) _ (Nat.mod_lt _ (by decide)) hlo
      apply Char.toNat_inj.mp
      calc a.toNat = 16 * (a.toNat / 16) + a.toNat % 16 := (Nat.div_add_mod _ _).symm
        _ = 16 * (b.toNat / 16) + b.toNat % 16 := by rw [hdiv, hmod]
        _ = b.toNat := Nat.div_add_mod _ _

theorem flatMap_urlWord_length (text : List Char) :
    text.length ≤ (text.flatMap urlWord).length ∧
      (text.flatMap urlWord).length ≤ 3 * text.length := by
  induction text with
  | nil => exact ⟨le_refl 0, le_refl 0⟩
  | cons c rest ih =>
    have hword := urlWord_length c
    rw [List.flatMap_cons, List.length_append, List.length_cons]
    omega

theorem urlEncodeFrom_eq {outSize : ℕ} {text : List Char} {j : ℕ}
    (h : j + (text.flatMap urlWord).length + 3 < outSize) :
    urlEncodeFrom outSize j text = text.flatMap urlWord := by
  induction text generalizing j with
  | nil => rfl
  | cons c rest ih =>
    have hword := (urlWord_length c).1
    rw [List.flatMap_cons, List.length_append] at h
    rw [urlEncodeFrom, if_pos (by omega), List.flatMap_cons, ih (by omega)]

/-! The fields of a name. -/

theorem slash_not_mem_u32Text (x : UInt32) : '/' ∉ u32Text x := by
  intro h
  exact absurd (isDigit_of_mem_decimal h) (by decide)

theorem slash_not_mem_slot (slot : SnapshotSlot) : '/' ∉ slot.text := by
  cases slot with
  | version ts => exact not_mem_signedDecimal (by decide) (by decide) _
  | latest => decide

theorem u32Text_inj {x y : UInt32} : u32Text x = u32Text y ↔ x = y := by
  refine ⟨fun h => ?_, fun h => by rw [h]⟩
  have hval : ∀ z : UInt32, Nat.ofDigitChars 10 (u32Text z) 0 = z.toNat :=
    fun z => Nat.ofDigitChars_ten_toDigits
  apply UInt32.toNat_inj.mp
  rw [← hval x, ← hval y, h]

theorem i64Text_inj {x y : Int64} : i64Text x = i64Text y ↔ x = y := by
  refine ⟨fun h => ?_, fun h => by rw [h]⟩
  have hread : ∀ z : Int64, strtoll (i64Text z ++ []) = some z :=
    fun z => strtoll_signedDecimal z (by simp)
  apply Option.some_inj.mp
  rw [← hread x, ← hread y, h]

theorem SnapshotSlot.text_inj {a b : SnapshotSlot} : a.text = b.text ↔ a = b := by
  refine ⟨fun h => ?_, fun h => by rw [h]⟩
  have hword : ∀ ts : Int64, i64Text ts ≠ "latest".toList := by
    intro ts heq
    have hl : 'l' ∉ i64Text ts := not_mem_signedDecimal (by decide) (by decide) _
    rw [heq] at hl
    exact hl (by decide)
  cases a with
  | version ts =>
    cases b with
    | version ts' => rw [i64Text_inj.mp h]
    | latest => exact absurd h (hword ts)
  | latest =>
    cases b with
    | version ts => exact absurd h.symm (hword ts)
    | latest => rfl

theorem isDigit_of_mem_padded {s : UInt32} {c : Char} (h : c ∈ padded s) : c.isDigit = true := by
  rcases List.mem_append.mp h with hz | hd
  · rw [(List.mem_replicate.mp hz).2]
    decide
  · exact isDigit_of_mem_decimal hd

theorem padded_inj {s t : UInt32} : padded s = padded t ↔ s = t := by
  refine ⟨fun h => ?_, fun h => by rw [h]⟩
  have hval : ∀ z : UInt32, Nat.ofDigitChars 10 (padded z) 0 = z.toNat := by
    intro z
    rw [padded, Nat.ofDigitChars_append, Nat.ofDigitChars_replicate_zero, Nat.mul_zero]
    exact Nat.ofDigitChars_ten_toDigits
  apply UInt32.toNat_inj.mp
  rw [← hval s, ← hval t, h]

theorem u32Text_length_le (x : UInt32) : (u32Text x).length ≤ 10 :=
  decimal_length (by decide) (x.toNat_lt.trans (by decide))

theorem padded_length (s : UInt32) : 0 < (padded s).length ∧ (padded s).length ≤ 10 := by
  have hdigits := u32Text_length_le s
  obtain ⟨c, rest, hcons, -⟩ := u32Text_head s
  have hpos : 0 < (u32Text s).length := by rw [hcons]; exact Nat.succ_pos _
  rw [padded, List.length_append, List.length_replicate]
  omega

theorem shard_text_drop (s : UInt32) :
    ∃ c rest, (SnapshotFile.shard s).text.drop 7 = c :: rest ∧ c.isDigit = true := by
  obtain ⟨c, rest, hcons⟩ := List.exists_cons_of_length_pos (padded_length s).1
  refine ⟨c, rest ++ ".cagra".toList, ?_, ?_⟩
  · show (padded s ++ ".cagra".toList) = _
    rw [hcons, List.cons_append]
  · apply isDigit_of_mem_padded (s := s)
    rw [hcons]
    exact List.mem_cons_self

theorem shard_text_ne {s : UInt32} {text : List Char}
    (h : ¬(text.take 7 = "index.s".toList ∧ (text.drop 7).head?.any Char.isDigit = true)) :
    (SnapshotFile.shard s).text ≠ text := by
  rintro rfl
  obtain ⟨c, rest, hdrop, hdigit⟩ := shard_text_drop s
  apply h
  refine ⟨rfl, ?_⟩
  rw [hdrop]
  exact hdigit

theorem SnapshotFile.text_inj {f g : SnapshotFile} : f.text = g.text ↔ f = g := by
  refine ⟨fun h => ?_, fun h => by rw [h]⟩
  cases f with
  | shard s =>
    cases g with
    | shard t =>
      have hmid : "index.s".toList ++ padded s = "index.s".toList ++ padded t :=
        List.append_cancel_right (show _ ++ ".cagra".toList = _ ++ ".cagra".toList from h)
      rw [padded_inj.mp (List.append_cancel_left hmid)]
    | _ => exact absurd h (shard_text_ne (by decide))
  | _ =>
    cases g with
    | shard t => exact absurd h.symm (shard_text_ne (by decide))
    | _ => first | rfl | exact absurd h (by decide)

theorem slash_not_mem_file (f : SnapshotFile) : '/' ∉ f.text := by
  cases f with
  | shard s =>
    show '/' ∉ "index.s".toList ++ padded s ++ ".cagra".toList
    rw [List.mem_append, List.mem_append, not_or, not_or]
    exact ⟨⟨by decide, fun h => absurd (isDigit_of_mem_padded h) (by decide)⟩, by decide⟩
  | _ => decide

theorem file_text_length (f : SnapshotFile) : f.text.length ≤ 23 := by
  cases f with
  | shard s =>
    have hpad := (padded_length s).2
    show ("index.s".toList ++ padded s ++ ".cagra".toList).length ≤ 23
    have hhead : "index.s".toList.length = 7 := rfl
    have htail : ".cagra".toList.length = 6 := rfl
    rw [List.length_append, List.length_append, hhead, htail]
    omega
  | _ => decide

theorem slot_text_length (slot : SnapshotSlot) : slot.text.length ≤ 20 := by
  cases slot with
  | version ts => exact signedDecimal_length ts
  | latest => decide

def nameFields (dbOid indexOid : UInt32) (slot : SnapshotSlot) (file : SnapshotFile) : List Char :=
  '/' :: (u32Text dbOid ++ '/' :: (u32Text indexOid ++ '/' :: (slot.text ++ '/' :: file.text)))

theorem slotPrefix_file (base : List Char) (dbOid indexOid : UInt32) (slot : SnapshotSlot)
    (file : SnapshotFile) :
    slotPrefix base dbOid indexOid slot ++ '/' :: file.text =
      base ++ nameFields dbOid indexOid slot file := by
  simp only [slotPrefix, nameFields, List.append_assoc, List.cons_append]

theorem nameFields_length (dbOid indexOid : UInt32) (slot : SnapshotSlot) (file : SnapshotFile) :
    (nameFields dbOid indexOid slot file).length ≤ 67 := by
  have hdb := u32Text_length_le dbOid
  have hindex := u32Text_length_le indexOid
  have hslot := slot_text_length slot
  have hfile := file_text_length file
  simp only [nameFields, List.length_cons, List.length_append]
  omega

theorem append_nameFields_inj {x y : List Char} {db db' index index' : UInt32} {slot slot' : SnapshotSlot}
    {file file' : SnapshotFile} :
    x ++ nameFields db index slot file = y ++ nameFields db' index' slot' file' ↔
      x = y ∧ db = db' ∧ index = index' ∧ slot = slot' ∧ file = file' := by
  -- the fields are read off from the last one back
  rw [← slotPrefix_file, ← slotPrefix_file,
    append_last_inj (slash_not_mem_file file) (slash_not_mem_file file'), SnapshotFile.text_inj]
  have hslots : ∀ (z : List Char) (d i : UInt32) (sl : SnapshotSlot),
      slotPrefix z d i sl = (z ++ '/' :: (u32Text d ++ '/' :: u32Text i)) ++ '/' :: sl.text := by
    intro z d i sl
    simp only [slotPrefix, List.append_assoc, List.cons_append]
  have hoids : ∀ (z : List Char) (d i : UInt32),
      z ++ '/' :: (u32Text d ++ '/' :: u32Text i) = (z ++ '/' :: u32Text d) ++ '/' :: u32Text i := by
    intro z d i
    simp only [List.append_assoc, List.cons_append]
  rw [hslots, hslots, append_last_inj (slash_not_mem_slot slot) (slash_not_mem_slot slot'),
    SnapshotSlot.text_inj, hoids, hoids,
    append_last_inj (slash_not_mem_u32Text index) (slash_not_mem_u32Text index'), u32Text_inj,
    append_last_inj (slash_not_mem_u32Text db) (slash_not_mem_u32Text db'), u32Text_inj]
  simp only [and_assoc]

/-! No buffer of the daemon is too small for a name. -/

theorem snapshotBase_length {bucketPrefix clusterId : List Char} :
    (snapshotBase bucketPrefix clusterId).length ≤ bucketPrefix.length + clusterId.length + 9 := by
  rw [snapshotBase]
  split_ifs <;> simp only [List.length_append] <;> simp <;> omega

theorem mem_urlSafe_of_isDigit {c : Char} (h : c.isDigit = true) : c ∈ urlSafe := by
  obtain ⟨n, hn, rfl⟩ : ∃ n < 10, c = Char.ofNat (48 + n) := by
    have hrange : 48 ≤ c.toNat ∧ c.toNat ≤ 57 := by
      simpa [Char.isDigit, UInt32.le_iff_toNat_le] using h
    refine ⟨c.toNat - 48, by omega, ?_⟩
    rw [Nat.add_sub_cancel' hrange.1, Char.ofNat_toNat]
  have hall : ∀ n < 10, Char.ofNat (48 + n) ∈ urlSafe := by decide
  exact hall n hn

def UrlSafe (text : List Char) : Prop := ∀ c ∈ text, c ∈ urlSafe

theorem UrlSafe.of_all {text : List Char} (h : text.all urlSafe.contains = true) : UrlSafe text :=
  fun c hc => List.contains_iff_mem.mp (List.all_eq_true.mp h c hc)

theorem IsBytes.of_all {text : List Char} (h : text.all (fun c => c.toNat < 256) = true) :
    IsBytes text :=
  fun c hc => of_decide_eq_true (List.all_eq_true.mp h c hc)

theorem urlSafe_u32Text (x : UInt32) : UrlSafe (u32Text x) :=
  fun _ hc => mem_urlSafe_of_isDigit (isDigit_of_mem_decimal hc)

theorem urlSafe_slot (slot : SnapshotSlot) : UrlSafe slot.text := by
  cases slot with
  | version ts =>
    intro c hc
    by_contra hsafe
    have hdigit : c.isDigit = false := by
      rw [← Bool.not_eq_true]
      exact fun h => hsafe (mem_urlSafe_of_isDigit h)
    have hsign : c ≠ '-' := by
      rintro rfl
      exact hsafe (by decide)
    exact not_mem_signedDecimal hdigit hsign _ hc
  | latest => exact UrlSafe.of_all (by decide)

theorem urlSafe_file (f : SnapshotFile) : UrlSafe f.text := by
  cases f with
  | shard s =>
    show ∀ c ∈ "index.s".toList ++ padded s ++ ".cagra".toList, c ∈ urlSafe
    rw [List.forall_mem_append, List.forall_mem_append]
    exact ⟨⟨UrlSafe.of_all (by decide), fun c hc =>
      mem_urlSafe_of_isDigit (isDigit_of_mem_padded hc)⟩, UrlSafe.of_all (by decide)⟩
  | cagra => exact UrlSafe.of_all (by decide)
  | tids => exact UrlSafe.of_all (by decide)
  | shards => exact UrlSafe.of_all (by decide)
  | manifest => exact UrlSafe.of_all (by decide)

theorem UrlSafe.encoded {text : List Char} (h : UrlSafe text) : text.flatMap urlWord = text := by
  induction text with
  | nil => rfl
  | cons c rest ih =>
    have hc : urlWord c = [c] := if_pos (h c List.mem_cons_self)
    rw [List.flatMap_cons, hc, ih fun d hd => h d (List.mem_cons_of_mem _ hd)]
    rfl

theorem UrlSafe.isBytes {text : List Char} (h : UrlSafe text) : IsBytes text := by
  have hall : IsBytes urlSafe := IsBytes.of_all (by decide)
  exact fun c hc => hall c (h c hc)

theorem nameFields_bytes (dbOid indexOid : UInt32) (slot : SnapshotSlot) (file : SnapshotFile) :
    IsBytes (nameFields dbOid indexOid slot file) := by
  have hslash : ('/' : Char).toNat < 256 := by decide
  simp only [IsBytes, nameFields, List.forall_mem_cons, List.forall_mem_append]
  exact ⟨hslash, (urlSafe_u32Text _).isBytes, hslash, (urlSafe_u32Text _).isBytes, hslash,
    (urlSafe_slot _).isBytes, hslash, (urlSafe_file _).isBytes⟩

theorem nameFields_encoded_length (dbOid indexOid : UInt32) (slot : SnapshotSlot) (file : SnapshotFile) :
    ((nameFields dbOid indexOid slot file).flatMap urlWord).length ≤ 75 := by
  have hdb := u32Text_length_le dbOid
  have hindex := u32Text_length_le indexOid
  have hslot := slot_text_length slot
  have hfile := file_text_length file
  have hslash : urlWord '/' = "%2F".toList := by decide
  have hthree : "%2F".toList.length = 3 := rfl
  simp only [nameFields, List.flatMap_cons, List.flatMap_append, (urlSafe_u32Text _).encoded,
    (urlSafe_slot _).encoded, (urlSafe_file _).encoded, hslash, List.length_append, hthree]
  omega

namespace SnapshotTarget

variable (t : SnapshotTarget)

theorem base_bytes : IsBytes t.base := by
  rw [base, snapshotBase]
  split_ifs
  · simp only [IsBytes, List.forall_mem_append]
    exact ⟨⟨t.prefix_bytes, IsBytes.of_all (by decide)⟩, t.clusterId_bytes⟩
  · simp only [IsBytes, List.forall_mem_append]
    exact ⟨IsBytes.of_all (by decide), t.clusterId_bytes⟩

theorem base_length : t.base.length ≤ 641 := by
  have hfront := t.prefix_length
  have hcluster := t.clusterId.fits
  have hbase := @snapshotBase_length t.bucketPrefix t.clusterId.chars
  rw [base]
  omega

theorem base_encoded_length : (t.base.flatMap urlWord).length ≤ 1909 := by
  have hfront := (flatMap_urlWord_length t.bucketPrefix).2
  have hcluster := (flatMap_urlWord_length t.clusterId.chars).2
  have hbound := t.prefix_length
  have hfits := t.clusterId.fits
  have hlong : ("/pg_cuvs/".toList.flatMap urlWord).length = 13 := by decide
  have hshort : ("pg_cuvs/".toList.flatMap urlWord).length = 10 := by decide
  rw [base, snapshotBase]
  split_ifs
  · rw [List.flatMap_append, List.flatMap_append, List.length_append, List.length_append, hlong]
    omega
  · rw [List.flatMap_append, List.length_append, hshort]
    omega

theorem object_eq (dbOid indexOid : UInt32) (slot : SnapshotSlot) (file : SnapshotFile) :
    t.object dbOid indexOid slot file =
      (t.bucket, (t.base ++ nameFields dbOid indexOid slot file).flatMap urlWord) := by
  have hfields := nameFields_length dbOid indexOid slot file
  have hbase := t.base_length
  have hname : (slotPrefix t.base dbOid indexOid slot ++ '/' :: file.text).length ≤ 708 := by
    rw [slotPrefix_file, List.length_append]
    omega
  have hfront : (slotPrefix t.base dbOid indexOid slot).length ≤ 708 :=
    (List.prefix_append _ _).length_le.trans hname
  have hslot : t.object dbOid indexOid slot file = requestName t.bucket
      (objectText ((slotPrefix t.base dbOid indexOid slot).take (1024 - 1)) file) := by
    cases slot <;> rfl
  have hencoded : ((t.base ++ nameFields dbOid indexOid slot file).flatMap urlWord).length ≤ 1984 := by
    have hb := t.base_encoded_length
    have hf := nameFields_encoded_length dbOid indexOid slot file
    rw [List.flatMap_append, List.length_append]
    omega
  rw [hslot, List.take_of_length_le (hfront.trans (by decide)), objectText,
    List.take_of_length_le (hname.trans (by decide)), slotPrefix_file, requestName, urlEncode,
    urlEncodeFrom_eq (by omega)]

/-- Objects of different snapshots, slots or files have different names, whichever daemons
of whichever clusters name them. -/
theorem object_inj {t t' : SnapshotTarget} {db db' index index' : UInt32} {slot slot' : SnapshotSlot}
    {file file' : SnapshotFile} :
    t.object db index slot file = t'.object db' index' slot' file' ↔
      (t.bucket = t'.bucket ∧ t.base = t'.base) ∧ db = db' ∧ index = index' ∧ slot = slot' ∧
        file = file' := by
  have hbytes : ∀ (u : SnapshotTarget) (d i : UInt32) (sl : SnapshotSlot) (f : SnapshotFile),
      IsBytes (u.base ++ nameFields d i sl f) := by
    intro u d i sl f
    exact List.forall_mem_append.mpr ⟨u.base_bytes, nameFields_bytes d i sl f⟩
  rw [object_eq, object_eq, Prod.mk.injEq, and_assoc]
  refine and_congr_right fun _ => ?_
  rw [← append_nameFields_inj]
  exact ⟨urlWord_prefixFree.flatMap_injective (hbytes _ _ _ _ _) (hbytes _ _ _ _ _),
    fun h => by rw [h]⟩

end SnapshotTarget

end PgCuvs
