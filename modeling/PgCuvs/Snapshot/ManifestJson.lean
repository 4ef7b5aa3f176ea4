import Mathlib.Data.List.TakeWhile
import PgCuvs.Library.Numerals
import PgCuvs.Library.QuotedText

/-! The manifest of a snapshot: its text in the object store, and the fields
found in it again by searching for their quoted keys. -/

namespace PgCuvs

open QuotedText Numerals

/-- A string in a buffer of `size` characters, one for each byte. -/
@[ext] structure CString (size : ℕ) where
  chars : List Char
  fits : chars.length < size
  unterminated : '\x00' ∉ chars
deriving DecidableEq

def CString.empty {size : ℕ} (h : 0 < size) : CString size := ⟨[], h, List.not_mem_nil⟩

structure CuvsManifest where
  pgCuvsVersion : CString 32
  cuvsVersion : CString 32
  metricName : CString 8
  databaseOid : UInt32
  tableOid : UInt32
  indexOid : UInt32
  relfilenode : UInt32
  baseGeneration : UInt32
  dim : UInt32
  vectorCount : Int64
  buildTimestamp : Int64
  cagraSha256 : CString 65
  cagraSizeBytes : Int64
  tidsSha256 : CString 65
  tidsSizeBytes : Int64
  shardCount : UInt32
  shardsSha256 : CString 65
  shardsSizeBytes : Int64
deriving DecidableEq

/-! The fields of a text, `json` being the rest of it from a pointer on. -/

/-- `"key":`, in a buffer of 128. -/
def keyPattern (key : String) : List Char := (("\"" ++ key ++ "\":").toList).take 127

def isJsonSpace (c : Char) : Bool := c == ' ' || c == '\t' || c == '\n' || c == '\r'

def copyQuoted {size : ℕ} (hsize : 0 < size) (p : List Char) : CString size where
  chars := (p.takeWhile fun c => c != '\x00' && c != '"').take (size - 1)
  fits := by
    rw [List.length_take]
    omega
  unterminated := fun h => by
    have hstop := List.mem_takeWhile_imp (List.mem_of_mem_take h)
    exact absurd hstop (by decide)

/-- The buffer afterwards, and whether the call returned 0. -/
def jsonGetStr {size : ℕ} (json : List Char) (key : String) (out : CString size) :
    CString size × Bool :=
  match strstr json (keyPattern key) with
  | none => (out, false)
  | some p =>
    match (p.drop (keyPattern key).length).dropWhile isJsonSpace with
    | '"' :: p =>
      let value := copyQuoted (Nat.zero_lt_of_lt out.fits) p
      (value, (p.drop value.chars.length).head? == some '"')
    | _ => (out, false)

def jsonGetU32 (json : List Char) (key : String) : Option UInt32 := do
  let p ← strstr json (keyPattern key)
  let v ← strtoul ((p.drop (keyPattern key).length).dropWhile (· == ' '))
  pure v.toUInt32

def jsonGetI64 (json : List Char) (key : String) : Option Int64 := do
  let p ← strstr json (keyPattern key)
  strtoll ((p.drop (keyPattern key).length).dropWhile (· == ' '))

/-- The text after the brace that opens the object. -/
def jsonFindObj (json : List Char) (key : String) : Option (List Char) := do
  let p ← strstr json (keyPattern key)
  match (p.drop (keyPattern key).length).dropWhile isJsonSpace with
  | '\x7b' :: p => some p
  | _ => none

/-! The manifest. -/

def u32Text (x : UInt32) : List Char := decimal x.toNat

def i64Text (x : Int64) : List Char := signedDecimal x.toInt

def manifestHead (m : CuvsManifest) : List (List Char) :=
  [ "\x7b\n  \"pg_cuvs_version\": \"".toList, m.pgCuvsVersion.chars,
    "\",\n  \"cuvs_version\": \"".toList, m.cuvsVersion.chars,
    "\",\n  \"database_oid\": ".toList, u32Text m.databaseOid,
    ",\n  \"table_oid\": ".toList, u32Text m.tableOid,
    ",\n  \"index_oid\": ".toList, u32Text m.indexOid,
    ",\n  \"relfilenode\": ".toList, u32Text m.relfilenode,
    ",\n  \"base_generation\": ".toList, u32Text m.baseGeneration,
    ",\n  \"metric\": \"".toList, m.metricName.chars,
    "\",\n  \"dim\": ".toList, u32Text m.dim,
    ",\n  \"vector_count\": ".toList, i64Text m.vectorCount,
    ",\n  \"build_timestamp\": ".toList, i64Text m.buildTimestamp,
    ",\n  \"shard_count\": ".toList, u32Text m.shardCount,
    ",\n  \"artifacts\": \x7b\n".toList ]

def manifestText (m : CuvsManifest) : List Char :=
  if 2 ≤ m.shardCount then
    (manifestHead m ++
      [ "    \"tids\":   \x7b\"sha256\": \"".toList, m.tidsSha256.chars,
        "\", \"size_bytes\": ".toList, i64Text m.tidsSizeBytes,
        "\x7d,\n    \"shards\": \x7b\"sha256\": \"".toList, m.shardsSha256.chars,
        "\", \"size_bytes\": ".toList, i64Text m.shardsSizeBytes,
        "\x7d\n  \x7d\n\x7d\n".toList ]).flatten
  else
    (manifestHead m ++
      [ "    \"cagra\": \x7b\"sha256\": \"".toList, m.cagraSha256.chars,
        "\", \"size_bytes\": ".toList, i64Text m.cagraSizeBytes,
        "\x7d,\n    \"tids\":  \x7b\"sha256\": \"".toList, m.tidsSha256.chars,
        "\", \"size_bytes\": ".toList, i64Text m.tidsSizeBytes,
        "\x7d\n  \x7d\n\x7d\n".toList ]).flatten

/-- `manifest_to_json`: `snprintf` cuts what does not fit. -/
def manifestToJson (m : CuvsManifest) (outSz : ℕ) : List Char := (manifestText m).take (outSz - 1)

/-- A string that has to be there, in a cleared buffer. -/
def jsonRequireStr {size : ℕ} (json : List Char) (key : String) (h : 0 < size) :
    Option (CString size) :=
  match jsonGetStr json key (CString.empty h) with
  | (value, true) => some value
  | (_, false) => none

def manifestFromJson (json : List Char) : Option CuvsManifest := do
  let pgCuvsVersion ← jsonRequireStr json "pg_cuvs_version" (by decide)
  let (cuvsVersion, _) := jsonGetStr json "cuvs_version" (CString.empty (by decide))
  let relfilenode ← jsonGetU32 json "relfilenode"
  let databaseOid ← jsonGetU32 json "database_oid"
  let tableOid ← jsonGetU32 json "table_oid"
  let indexOid ← jsonGetU32 json "index_oid"
  let baseGeneration ← jsonGetU32 json "base_generation"
  let metricName ← jsonRequireStr json "metric" (by decide)
  let dim ← jsonGetU32 json "dim"
  let vectorCount ← jsonGetI64 json "vector_count"
  let buildTimestamp ← jsonGetI64 json "build_timestamp"
  let shardCount := (jsonGetU32 json "shard_count").getD 0
  if 2 ≤ shardCount then
    let tids := jsonFindObj json "tids"
    let shards := jsonFindObj json "shards"
    let tids ← tids
    let shards ← shards
    let tidsSha256 ← jsonRequireStr tids "sha256" (by decide)
    let tidsSizeBytes ← jsonGetI64 tids "size_bytes"
    let shardsSha256 ← jsonRequireStr shards "sha256" (by decide)
    let shardsSizeBytes ← jsonGetI64 shards "size_bytes"
    pure
      { pgCuvsVersion, cuvsVersion, metricName, databaseOid, tableOid, indexOid, relfilenode
        baseGeneration, dim, vectorCount, buildTimestamp, cagraSha256 := .empty (by decide)
        cagraSizeBytes := 0, tidsSha256, tidsSizeBytes, shardCount, shardsSha256
        shardsSizeBytes }
  else
    let cagra := jsonFindObj json "cagra"
    let tids := jsonFindObj json "tids"
    let cagra ← cagra
    let tids ← tids
    let cagraSha256 ← jsonRequireStr cagra "sha256" (by decide)
    let cagraSizeBytes ← jsonGetI64 cagra "size_bytes"
    let tidsSha256 ← jsonRequireStr tids "sha256" (by decide)
    let tidsSizeBytes ← jsonGetI64 tids "size_bytes"
    pure
      { pgCuvsVersion, cuvsVersion, metricName, databaseOid, tableOid, indexOid, relfilenode
        baseGeneration, dim, vectorCount, buildTimestamp, cagraSha256, cagraSizeBytes
        tidsSha256, tidsSizeBytes, shardCount, shardsSha256 := .empty (by decide)
        shardsSizeBytes := 0 }

/-! The text in cells: each key, each string, and what stands up to the next of them. -/

section Cells

inductive Scope
  | manifest | artifacts | cagra | tids | shards
deriving DecidableEq

structure Place where
  scope : Scope
  isKey : Bool
  name : List Char
deriving DecidableEq

abbrev JsonCell := Cell Place Char

def strCells (scope : Scope) (name value after : List Char) : List JsonCell :=
  [⟨⟨scope, true, name⟩, name, ": ".toList⟩, ⟨⟨scope, false, name⟩, value, after⟩]

def numCell (scope : Scope) (name digits after : List Char) : JsonCell :=
  ⟨⟨scope, true, name⟩, name, ": ".toList ++ (digits ++ after)⟩

def objCell (scope : Scope) (name gap after : List Char) : JsonCell :=
  ⟨⟨scope, true, name⟩, name, ":".toList ++ (gap ++ ("\x7b".toList ++ after))⟩

def artifactCells (scope : Scope) (sha256 : List Char) (sizeBytes : Int64) (after : List Char) :
    List JsonCell :=
  strCells scope "sha256".toList sha256 ", ".toList
    ++ [numCell scope "size_bytes".toList (i64Text sizeBytes) after]

def headCells (m : CuvsManifest) : List JsonCell :=
  strCells .manifest "pg_cuvs_version".toList m.pgCuvsVersion.chars ",\n  ".toList
    ++ (strCells .manifest "cuvs_version".toList m.cuvsVersion.chars ",\n  ".toList
    ++ ([numCell .manifest "database_oid".toList (u32Text m.databaseOid) ",\n  ".toList,
      numCell .manifest "table_oid".toList (u32Text m.tableOid) ",\n  ".toList,
      numCell .manifest "index_oid".toList (u32Text m.indexOid) ",\n  ".toList,
      numCell .manifest "relfilenode".toList (u32Text m.relfilenode) ",\n  ".toList,
      numCell .manifest "base_generation".toList (u32Text m.baseGeneration) ",\n  ".toList]
    ++ (strCells .manifest "metric".toList m.metricName.chars ",\n  ".toList
    ++ [numCell .manifest "dim".toList (u32Text m.dim) ",\n  ".toList,
      numCell .manifest "vector_count".toList (i64Text m.vectorCount) ",\n  ".toList,
      numCell .manifest "build_timestamp".toList (i64Text m.buildTimestamp) ",\n  ".toList,
      numCell .manifest "shard_count".toList (u32Text m.shardCount) ",\n  ".toList,
      objCell .manifest "artifacts".toList " ".toList "\n    ".toList])))

def shardedCells (m : CuvsManifest) : List JsonCell :=
  objCell .artifacts "tids".toList "   ".toList [] ::
    (artifactCells .tids m.tidsSha256.chars m.tidsSizeBytes "\x7d,\n    ".toList
    ++ objCell .artifacts "shards".toList " ".toList [] ::
      artifactCells .shards m.shardsSha256.chars m.shardsSizeBytes "\x7d\n  \x7d\n\x7d\n".toList)

def unshardedCells (m : CuvsManifest) : List JsonCell :=
  objCell .artifacts "cagra".toList " ".toList [] ::
    (artifactCells .cagra m.cagraSha256.chars m.cagraSizeBytes "\x7d,\n    ".toList
    ++ objCell .artifacts "tids".toList "  ".toList [] ::
      artifactCells .tids m.tidsSha256.chars m.tidsSizeBytes "\x7d\n  \x7d\n\x7d\n".toList)

def manifestCells (m : CuvsManifest) : List JsonCell :=
  headCells m ++ if 2 ≤ m.shardCount then shardedCells m else unshardedCells m

def manifestLead : List Char := "\x7b\n  ".toList

theorem manifestText_eq_render (m : CuvsManifest) :
    manifestText m = render '"' manifestLead (manifestCells m) := by
  rw [manifestText, manifestCells]
  split_ifs
  · simp only [manifestHead, headCells, shardedCells, artifactCells, strCells, numCell, objCell,
      manifestLead, render, String.reduceToList, List.cons_append, List.nil_append,
      List.append_assoc, List.flatten_cons, List.flatten_nil]
  · simp only [manifestHead, headCells, unshardedCells, artifactCells, strCells, numCell, objCell,
      manifestLead, render, String.reduceToList, List.cons_append, List.nil_append,
      List.append_assoc, List.flatten_cons, List.flatten_nil]

/-- Quotes stand around the stretches only, and a plain one starts with punctuation. -/
def Separated (cells : List JsonCell) : Prop :=
  ∀ c ∈ cells, '"' ∉ c.quoted ∧ '"' ∉ c.plain ∧ ∃ mark ∈ [':', ',', '\x7d'], c.plain.head? = some mark

theorem Separated.append {a b : List JsonCell} (ha : Separated a) (hb : Separated b) :
    Separated (a ++ b) := List.forall_mem_append.mpr ⟨ha, hb⟩

theorem Separated.cons {c : JsonCell} {cells : List JsonCell}
    (hc : '"' ∉ c.quoted ∧ '"' ∉ c.plain ∧ ∃ mark ∈ [':', ',', '\x7d'], c.plain.head? = some mark)
    (h : Separated cells) : Separated (c :: cells) := List.forall_mem_cons.mpr ⟨hc, h⟩

theorem separated_nil : Separated [] := fun _ h => nomatch h

variable {scope : Scope} {name value digits gap after : List Char}

theorem separated_str (hname : '"' ∉ name) (hvalue : '"' ∉ value) (hafter : '"' ∉ after)
    (hmark : ∃ mark ∈ [':', ',', '\x7d'], after.head? = some mark) :
    Separated (strCells scope name value after) :=
  Separated.cons ⟨hname, (by decide : '"' ∉ ": ".toList), ':', by decide, rfl⟩
    (Separated.cons ⟨hvalue, hafter, hmark⟩ separated_nil)

theorem separated_num {cells : List JsonCell} (hname : '"' ∉ name) (hdigits : '"' ∉ digits)
    (hafter : '"' ∉ after) (h : Separated cells) :
    Separated (numCell scope name digits after :: cells) := by
  refine Separated.cons ⟨hname, ?_, ':', by decide, rfl⟩ h
  intro hq
  rcases List.mem_append.mp hq with hq | hq
  · exact absurd hq (by decide)
  · exact (List.mem_append.mp hq).elim hdigits hafter

theorem separated_obj {cells : List JsonCell} (hname : '"' ∉ name) (hgap : '"' ∉ gap)
    (hafter : '"' ∉ after) (h : Separated cells) :
    Separated (objCell scope name gap after :: cells) := by
  refine Separated.cons ⟨hname, ?_, ':', by decide, rfl⟩ h
  intro hq
  rcases List.mem_append.mp hq with hq | hq
  · exact absurd hq (by decide)
  · rcases List.mem_append.mp hq with hq | hq
    · exact hgap hq
    · exact (List.mem_append.mp hq).elim (by decide) hafter

theorem Separated.clear {cells : List JsonCell} (h : Separated cells) {key : List Char}
    (hkey : [':', ',', '\x7d'].all (fun mark => key.head? != some mark) = true) :
    Clear '"' key cells := by
  intro c hc
  obtain ⟨hquoted, hplain, mark, hmark, hhead⟩ := h c hc
  refine ⟨hquoted, hplain, ?_⟩
  rintro rfl
  exact bne_iff_ne.mp (List.all_eq_true.mp hkey mark hmark) hhead

theorem not_mem_u32Text (x : UInt32) : '"' ∉ u32Text x := fun h =>
  absurd (isDigit_of_mem_decimal h) (by decide)

theorem not_mem_i64Text (x : Int64) : '"' ∉ i64Text x :=
  not_mem_signedDecimal (by decide) (by decide) x.toInt

structure CuvsManifest.Unquoted (m : CuvsManifest) : Prop where
  pgCuvsVersion : '"' ∉ m.pgCuvsVersion.chars
  cuvsVersion : '"' ∉ m.cuvsVersion.chars
  metricName : '"' ∉ m.metricName.chars
  cagraSha256 : '"' ∉ m.cagraSha256.chars
  tidsSha256 : '"' ∉ m.tidsSha256.chars
  shardsSha256 : '"' ∉ m.shardsSha256.chars

theorem separated_artifact {sha256 : List Char} (hsha : '"' ∉ sha256) (sizeBytes : Int64)
    (hafter : '"' ∉ after) : Separated (artifactCells scope sha256 sizeBytes after) :=
  (separated_str (by decide) hsha (by decide) ⟨',', by decide, rfl⟩).append
    (separated_num (by decide) (not_mem_i64Text sizeBytes) hafter separated_nil)

variable {m : CuvsManifest}

theorem separated_head (h : m.Unquoted) : Separated (headCells m) := by
  refine (separated_str (by decide) h.pgCuvsVersion (by decide) ⟨',', by decide, rfl⟩).append ?_
  refine (separated_str (by decide) h.cuvsVersion (by decide) ⟨',', by decide, rfl⟩).append ?_
  refine Separated.append ?_ (Separated.append
    (separated_str (by decide) h.metricName (by decide) ⟨',', by decide, rfl⟩) ?_)
  · refine separated_num (by decide) (not_mem_u32Text _) (by decide) ?_
    refine separated_num (by decide) (not_mem_u32Text _) (by decide) ?_
    refine separated_num (by decide) (not_mem_u32Text _) (by decide) ?_
    refine separated_num (by decide) (not_mem_u32Text _) (by decide) ?_
    exact separated_num (by decide) (not_mem_u32Text _) (by decide) separated_nil
  · refine separated_num (by decide) (not_mem_u32Text _) (by decide) ?_
    refine separated_num (by decide) (not_mem_i64Text _) (by decide) ?_
    refine separated_num (by decide) (not_mem_i64Text _) (by decide) ?_
    refine separated_num (by decide) (not_mem_u32Text _) (by decide) ?_
    exact separated_obj (by decide) (by decide) (by decide) separated_nil

theorem separated_sharded (h : m.Unquoted) : Separated (shardedCells m) :=
  separated_obj (by decide) (by decide) (by decide)
    ((separated_artifact h.tidsSha256 _ (by decide)).append
      (separated_obj (by decide) (by decide) (by decide)
        (separated_artifact h.shardsSha256 _ (by decide))))

theorem separated_unsharded (h : m.Unquoted) : Separated (unshardedCells m) :=
  separated_obj (by decide) (by decide) (by decide)
    ((separated_artifact h.cagraSha256 _ (by decide)).append
      (separated_obj (by decide) (by decide) (by decide)
        (separated_artifact h.tidsSha256 _ (by decide))))

theorem separated_manifest (h : m.Unquoted) : Separated (manifestCells m) := by
  refine (separated_head h).append ?_
  split_ifs
  · exact separated_sharded h
  · exact separated_unsharded h

end Cells

/-! Looking up a key: the search ends at the first cell that is this key, and
the value is read off that cell. -/

section Lookup

/-- A name that the readers look up: short enough for their buffer, and no punctuation. -/
structure IsKey (key : String) : Prop where
  pattern : keyPattern key = pattern '"' ':' key.toList
  unquoted : '"' ∉ key.toList
  head : [':', ',', '\x7d'].all (fun mark => key.toList.head? != some mark) = true

variable {key : String} {lead : List Char} {cells rest : List JsonCell} {c : JsonCell}

theorem strstr_key (hkey : IsKey key) (hlead : '"' ∉ lead) (hcells : Separated cells)
    (hseek : seek ':' key.toList cells = c :: rest) :
    strstr (render '"' lead cells) (keyPattern key) = some (render '"' [] (c :: rest)) := by
  rw [hkey.pattern, strstr_render (by decide) hkey.unquoted hlead (hcells.clear hkey.head), hseek]

theorem drop_key {tail : List Char} (hkey : IsKey key) (hquoted : c.quoted = key.toList)
    (hplain : c.plain = ':' :: tail) :
    (render '"' [] (c :: rest)).drop (keyPattern key).length = render '"' tail rest := by
  have hcolon : render '"' c.plain rest = ':' :: render '"' tail rest := by
    rw [hplain]
    exact render_append [':'] tail rest
  have hfront : render '"' [] (c :: rest)
      = QuotedText.pattern '"' ':' key.toList ++ render '"' tail rest := by
    rw [render, hquoted, hcolon, QuotedText.pattern]
    simp only [List.nil_append, List.cons_append, List.append_assoc]
  rw [hkey.pattern, hfront, List.drop_left]

theorem copyQuoted_chars {size : ℕ} (hsize : 0 < size) (p : List Char) :
    (copyQuoted hsize p).chars
      = (p.takeWhile fun c => c != '\x00' && c != '"').take (size - 1) := rfl

theorem copyQuoted_append {size : ℕ} {value : CString size} (hvalue : '"' ∉ value.chars)
    (hsize : 0 < size) (text : List Char) :
    copyQuoted hsize (value.chars ++ '"' :: text) = value := by
  have hpass : ∀ ch ∈ value.chars, (ch != '\x00' && ch != '"') = true := by
    intro ch hch
    rw [Bool.and_eq_true, bne_iff_ne, bne_iff_ne]
    exact ⟨fun h => value.unterminated (h ▸ hch), fun h => hvalue (h ▸ hch)⟩
  have hfits := value.fits
  apply CString.ext
  rw [copyQuoted_chars, List.takeWhile_append_of_pos hpass, List.takeWhile_cons_of_neg (by decide),
    List.append_nil]
  exact List.take_of_length_le (by omega)

theorem jsonGetStr_cells {size : ℕ} {scope : Scope} {value : CString size} {after : List Char}
    (hkey : IsKey key) (hlead : '"' ∉ lead) (hcells : Separated cells)
    (hseek : seek ':' key.toList cells = strCells scope key.toList value.chars after ++ rest)
    (hvalue : '"' ∉ value.chars) (out : CString size) :
    jsonGetStr (render '"' lead cells) key out = (value, true) := by
  have hseek' : seek ':' key.toList cells
      = ⟨⟨scope, true, key.toList⟩, key.toList, ": ".toList⟩
        :: ⟨⟨scope, false, key.toList⟩, value.chars, after⟩ :: rest := hseek
  have hskip : (render '"' [' '] (⟨⟨scope, false, key.toList⟩, value.chars, after⟩ :: rest)).dropWhile
      isJsonSpace = '"' :: (value.chars ++ '"' :: render '"' after rest) := rfl
  rw [jsonGetStr, strstr_key hkey hlead hcells hseek']
  simp only [@drop_key key _ ⟨⟨scope, true, key.toList⟩, key.toList, ": ".toList⟩ [' '] hkey rfl rfl,
    hskip, copyQuoted_append hvalue, List.drop_left, List.head?_cons, beq_self_eq_true]

theorem dropWhile_space {c : Char} {text : List Char} (hc : c ≠ ' ') :
    (' ' :: c :: text).dropWhile (· == ' ') = c :: text := by
  rw [List.dropWhile_cons_of_pos (by decide), List.dropWhile_cons_of_neg]
  rw [beq_iff_eq]
  exact hc

theorem skip_num {scope : Scope} {digits after : List Char} (hkey : IsKey key)
    (hdigits : ∃ c tail, digits = c :: tail ∧ c ≠ ' ') :
    ((render '"' [] (numCell scope key.toList digits after :: rest)).drop
        (keyPattern key).length).dropWhile (· == ' ') = digits ++ render '"' after rest := by
  obtain ⟨c, tail, hc, hspace⟩ := hdigits
  rw [@drop_key key rest _ (' ' :: (digits ++ after)) hkey rfl rfl, ← List.cons_append,
    render_append, hc]
  exact dropWhile_space hspace

def EndsNumeral (after : List Char) : Prop := ∃ mark tail, after = mark :: tail ∧ mark.isDigit = false

theorem EndsNumeral.render {after : List Char} (h : EndsNumeral after) (rest : List JsonCell) :
    ∀ c ∈ (render '"' after rest).head?, c.isDigit = false := by
  obtain ⟨mark, tail, rfl, hmark⟩ := h
  have hcons : QuotedText.render '"' (mark :: tail) rest
      = mark :: QuotedText.render '"' tail rest := render_append [mark] tail rest
  rw [hcons]
  rintro c hc
  obtain rfl := Option.some.inj hc
  exact hmark

theorem u32Text_head (x : UInt32) : ∃ c tail, u32Text x = c :: tail ∧ c ≠ ' ' := by
  obtain ⟨c, tail, hc, hdigit⟩ := decimal_cons x.toNat
  refine ⟨c, tail, hc, ?_⟩
  rintro rfl
  exact absurd hdigit (by decide)

theorem i64Text_head (x : Int64) : ∃ c tail, i64Text x = c :: tail ∧ c ≠ ' ' := by
  obtain ⟨c, tail, hc, hdigit⟩ := decimal_cons x.toInt.natAbs
  rw [i64Text, signedDecimal]
  split_ifs
  · exact ⟨'-', _, rfl, by decide⟩
  · refine ⟨c, tail, hc, ?_⟩
    rintro rfl
    exact absurd hdigit (by decide)

theorem jsonGetU32_cells {scope : Scope} {x : UInt32} {after : List Char}
    (hkey : IsKey key) (hlead : '"' ∉ lead) (hcells : Separated cells)
    (hseek : seek ':' key.toList cells = numCell scope key.toList (u32Text x) after :: rest)
    (hafter : EndsNumeral after) :
    jsonGetU32 (render '"' lead cells) key = some x := by
  have hnum : strtoul (u32Text x ++ render '"' after rest) = some (UInt64.ofNat x.toNat) :=
    strtoul_decimal (Nat.lt_trans x.toNat_lt (by decide)) (hafter.render rest)
  have hcast : (UInt64.ofNat x.toNat).toUInt32 = x := by
    apply UInt32.toNat_inj.mp
    rw [UInt64.toNat_toUInt32, UInt64.toNat_ofNat']
    have hx := x.toNat_lt
    omega
  rw [jsonGetU32, strstr_key hkey hlead hcells hseek]
  simp only [Option.bind_eq_bind, Option.bind_some, skip_num hkey (u32Text_head x), hnum]
  exact congrArg some hcast

theorem jsonGetI64_cells {scope : Scope} {x : Int64} {after : List Char}
    (hkey : IsKey key) (hlead : '"' ∉ lead) (hcells : Separated cells)
    (hseek : seek ':' key.toList cells = numCell scope key.toList (i64Text x) after :: rest)
    (hafter : EndsNumeral after) :
    jsonGetI64 (render '"' lead cells) key = some x := by
  rw [jsonGetI64, strstr_key hkey hlead hcells hseek]
  simp only [Option.bind_eq_bind, Option.bind_some, skip_num hkey (i64Text_head x)]
  exact strtoll_signedDecimal x (hafter.render rest)

theorem jsonFindObj_cells {scope : Scope} {gap : List Char}
    (hkey : IsKey key) (hlead : '"' ∉ lead) (hcells : Separated cells)
    (hgap : gap.all isJsonSpace = true)
    (hseek : seek ':' key.toList cells = objCell scope key.toList gap [] :: rest) :
    jsonFindObj (render '"' lead cells) key = some (render '"' [] rest) := by
  have hbrace : gap ++ ['\x7b'] = (gap ++ ['\x7b']) ++ [] := (List.append_nil _).symm
  have hskip : (render '"' (gap ++ ['\x7b']) rest).dropWhile isJsonSpace
      = '\x7b' :: render '"' [] rest := by
    rw [hbrace, render_append, List.append_assoc, List.dropWhile_append_of_pos (List.all_eq_true.mp hgap)]
    rfl
  rw [jsonFindObj, strstr_key hkey hlead hcells hseek]
  simp only [Option.bind_eq_bind, Option.bind_some,
    @drop_key key rest (objCell scope key.toList gap []) (gap ++ ['\x7b']) hkey rfl rfl, hskip]

end Lookup

/-! The round trip. -/

section RoundTrip

def manifestFields : List String :=
  ["pg_cuvs_version", "cuvs_version", "relfilenode", "database_oid", "table_oid", "index_oid",
    "base_generation", "metric", "dim", "vector_count", "build_timestamp", "shard_count"]

def artifactFields : List String := ["sha256", "size_bytes"]

variable (m : CuvsManifest)

def CuvsManifest.artifacts : List (Scope × String) :=
  if 2 ≤ m.shardCount then [(.tids, "tids"), (.shards, "shards")]
  else [(.cagra, "cagra"), (.tids, "tids")]

def fromPlace (place : Place) (cells : List JsonCell) : List JsonCell :=
  cells.dropWhile fun c => decide (c.label ≠ place)

def CuvsManifest.textFrom (place : Place) : List Char :=
  render '"' [] (fromPlace place (manifestCells m))

/-- The artifact fields of the other kind are lost. -/
def CuvsManifest.ownKind : CuvsManifest :=
  if 2 ≤ m.shardCount then { m with cagraSha256 := .empty (by decide), cagraSizeBytes := 0 }
  else { m with shardsSha256 := .empty (by decide), shardsSizeBytes := 0 }

theorem CString.length_le {size : ℕ} (s : CString size) (hsize : size ≤ 65) :
    s.chars.length ≤ 64 := Nat.le_of_lt_succ (Nat.lt_of_lt_of_le s.fits hsize)

theorem u32Text_length (x : UInt32) : (u32Text x).length ≤ 64 :=
  Nat.le_trans (decimal_length (by decide : 0 < 10) (Nat.lt_trans x.toNat_lt (by decide))) (by decide)

theorem i64Text_length (x : Int64) : (i64Text x).length ≤ 64 :=
  Nat.le_trans (signedDecimal_length x) (by decide)

theorem manifestHead_length : ∀ piece ∈ manifestHead m, piece.length ≤ 64 := by
  simp only [manifestHead, List.forall_mem_cons]
  refine ⟨by decide, m.pgCuvsVersion.length_le (by decide), by decide,
    m.cuvsVersion.length_le (by decide), by decide, u32Text_length _, by decide,
    u32Text_length _, by decide, u32Text_length _, by decide, u32Text_length _, by decide,
    u32Text_length _, by decide, m.metricName.length_le (by decide), by decide,
    u32Text_length _, by decide, i64Text_length _, by decide, i64Text_length _, by decide,
    u32Text_length _, by decide, fun _ h => nomatch h⟩

theorem length_flatten_le {pieces : List (List Char)} {bound : ℕ}
    (h : ∀ piece ∈ pieces, piece.length ≤ bound) :
    pieces.flatten.length ≤ pieces.length * bound := by
  induction pieces with
  | nil => exact Nat.zero_le _
  | cons piece pieces ih =>
    obtain ⟨hpiece, hrest⟩ := List.forall_mem_cons.mp h
    have := ih hrest
    rw [List.flatten_cons, List.length_append, List.length_cons, Nat.succ_mul]
    omega

/-- Every manifest fits the buffer of its callers. -/
theorem manifestText_length : (manifestText m).length < 4096 := by
  rw [manifestText]
  split_ifs
  · refine Nat.lt_of_le_of_lt (length_flatten_le (List.forall_mem_append.mpr
      ⟨manifestHead_length m, ?_⟩)) (by decide : 34 * 64 < 4096)
    simp only [List.forall_mem_cons]
    exact ⟨by decide, m.tidsSha256.length_le le_rfl, by decide, i64Text_length _, by decide,
      m.shardsSha256.length_le le_rfl, by decide, i64Text_length _, by decide,
      fun _ h => nomatch h⟩
  · refine Nat.lt_of_le_of_lt (length_flatten_le (List.forall_mem_append.mpr
      ⟨manifestHead_length m, ?_⟩)) (by decide : 34 * 64 < 4096)
    simp only [List.forall_mem_cons]
    exact ⟨by decide, m.cagraSha256.length_le le_rfl, by decide, i64Text_length _, by decide,
      m.tidsSha256.length_le le_rfl, by decide, i64Text_length _, by decide,
      fun _ h => nomatch h⟩

theorem manifestToJson_eq_render :
    manifestToJson m 4096 = render '"' manifestLead (manifestCells m) := by
  have hfits : (manifestText m).length ≤ 4096 - 1 := Nat.le_pred_of_lt (manifestText_length m)
  rw [manifestToJson, List.take_of_length_le hfits, manifestText_eq_render]

variable {m}

theorem manifestCells_sharded (hkind : 2 ≤ m.shardCount) :
    manifestCells m = headCells m ++ shardedCells m := by rw [manifestCells, if_pos hkind]

theorem manifestCells_unsharded (hkind : ¬2 ≤ m.shardCount) :
    manifestCells m = headCells m ++ unshardedCells m := by rw [manifestCells, if_neg hkind]

/-- The numbers behind the keys of the whole text. -/
def CuvsManifest.headU32 (m : CuvsManifest) : List (String × UInt32) :=
  [("relfilenode", m.relfilenode), ("database_oid", m.databaseOid), ("table_oid", m.tableOid),
    ("index_oid", m.indexOid), ("base_generation", m.baseGeneration), ("dim", m.dim),
    ("shard_count", m.shardCount)]

def CuvsManifest.headI64 (m : CuvsManifest) : List (String × Int64) :=
  [("vector_count", m.vectorCount), ("build_timestamp", m.buildTimestamp)]

structure FindsHead (json : List Char) (m : CuvsManifest) : Prop where
  pgCuvsVersion : ∀ out, jsonGetStr json "pg_cuvs_version" out = (m.pgCuvsVersion, true)
  cuvsVersion : ∀ out, jsonGetStr json "cuvs_version" out = (m.cuvsVersion, true)
  metricName : ∀ out, jsonGetStr json "metric" out = (m.metricName, true)
  u32 : ∀ p ∈ m.headU32, jsonGetU32 json p.1 = some p.2
  i64 : ∀ p ∈ m.headI64, jsonGetI64 json p.1 = some p.2

theorem isKey_manifestFields : ∀ field ∈ manifestFields, IsKey field := by
  simp only [manifestFields, List.forall_mem_cons]
  repeat' apply And.intro
  all_goals first | exact ⟨rfl, by decide, by decide⟩ | exact fun _ h => nomatch h

theorem findsHead (h : m.Unquoted) : FindsHead (render '"' manifestLead (manifestCells m)) m := by
  have hcells := separated_manifest h
  have hlead : '"' ∉ manifestLead := by decide
  have hcomma : EndsNumeral ",\n  ".toList := ⟨',', _, rfl, by decide⟩
  have hfield : ∀ {field : String}, field ∈ manifestFields → IsKey field :=
    fun hmem => isKey_manifestFields _ hmem
  refine ⟨?_, ?_, ?_, ?_, ?_⟩
  · exact jsonGetStr_cells (hfield (by decide)) hlead hcells rfl h.pgCuvsVersion
  · exact jsonGetStr_cells (hfield (by decide)) hlead hcells rfl h.cuvsVersion
  · exact jsonGetStr_cells (hfield (by decide)) hlead hcells rfl h.metricName
  · -- every number is followed by a comma
    have hseek : ∀ p ∈ m.headU32, p.1 ∈ manifestFields ∧ ∃ rest,
        seek ':' p.1.toList (manifestCells m) =
          numCell .manifest p.1.toList (u32Text p.2) ",\n  ".toList :: rest := by
      simp only [CuvsManifest.headU32, List.forall_mem_cons]
      exact ⟨⟨by decide, _, rfl⟩, ⟨by decide, _, rfl⟩, ⟨by decide, _, rfl⟩, ⟨by decide, _, rfl⟩,
        ⟨by decide, _, rfl⟩, ⟨by decide, _, rfl⟩, ⟨by decide, _, rfl⟩, fun _ h => nomatch h⟩
    intro p hp
    obtain ⟨hmem, rest, hcell⟩ := hseek p hp
    exact jsonGetU32_cells (hfield hmem) hlead hcells hcell hcomma
  · have hseek : ∀ p ∈ m.headI64, p.1 ∈ manifestFields ∧ ∃ rest,
        seek ':' p.1.toList (manifestCells m) =
          numCell .manifest p.1.toList (i64Text p.2) ",\n  ".toList :: rest := by
      simp only [CuvsManifest.headI64, List.forall_mem_cons]
      exact ⟨⟨by decide, _, rfl⟩, ⟨by decide, _, rfl⟩, fun _ h => nomatch h⟩
    intro p hp
    obtain ⟨hmem, rest, hcell⟩ := hseek p hp
    exact jsonGetI64_cells (hfield hmem) hlead hcells hcell hcomma

structure FindsArtifact (json : List Char) (name : String) (sha256 : CString 65)
    (sizeBytes : Int64) (obj : List Char) : Prop where
  object : jsonFindObj json name = some obj
  sha256 : ∀ out, jsonGetStr obj "sha256" out = (sha256, true)
  sizeBytes : jsonGetI64 obj "size_bytes" = some sizeBytes

theorem findsArtifact {name : String} {scope : Scope} {gap after lead : List Char}
    {sha256 : CString 65} {sizeBytes : Int64} {cells rest : List JsonCell} (hkey : IsKey name)
    (hlead : '"' ∉ lead) (hcells : Separated cells) (hgap : gap.all isJsonSpace = true)
    (hsha : '"' ∉ sha256.chars) (hafter : EndsNumeral after)
    (hseek : seek ':' name.toList cells = objCell .artifacts name.toList gap [] ::
      (artifactCells scope sha256.chars sizeBytes after ++ rest)) :
    FindsArtifact (render '"' lead cells) name sha256 sizeBytes
      (render '"' [] (artifactCells scope sha256.chars sizeBytes after ++ rest)) := by
  have hinner : Separated (artifactCells scope sha256.chars sizeBytes after ++ rest) := by
    intro c hc
    apply hcells c ((seek_suffix ':' name.toList cells).subset _)
    rw [hseek]
    exact List.mem_cons_of_mem _ hc
  constructor
  · exact jsonFindObj_cells hkey hlead hcells hgap hseek
  · exact jsonGetStr_cells ⟨rfl, by decide, by decide⟩ List.not_mem_nil hinner rfl hsha
  · exact jsonGetI64_cells ⟨rfl, by decide, by decide⟩ List.not_mem_nil hinner rfl hafter

theorem manifestFromJson_sharded (h : m.Unquoted) (hkind : 2 ≤ m.shardCount) :
    manifestFromJson (render '"' manifestLead (manifestCells m)) = some m.ownKind := by
  have hhead := findsHead h
  have hcells := separated_manifest h
  rw [manifestCells_sharded hkind] at hhead hcells ⊢
  have htids := @findsArtifact "tids" .tids "   ".toList "\x7d,\n    ".toList manifestLead
    m.tidsSha256 m.tidsSizeBytes _ _ ⟨rfl, by decide, by decide⟩ (by decide) hcells (by decide)
    h.tidsSha256 ⟨'\x7d', _, rfl, by decide⟩ rfl
  have hshards := @findsArtifact "shards" .shards " ".toList "\x7d\n  \x7d\n\x7d\n".toList
    manifestLead m.shardsSha256 m.shardsSizeBytes _ [] ⟨rfl, by decide, by decide⟩ (by decide)
    hcells (by decide) h.shardsSha256 ⟨'\x7d', _, rfl, by decide⟩ rfl
  have hu32 := hhead.u32
  have hi64 := hhead.i64
  simp only [CuvsManifest.headU32, CuvsManifest.headI64, List.forall_mem_cons] at hu32 hi64
  simp only [manifestFromJson, jsonRequireStr, hhead.pgCuvsVersion, hhead.cuvsVersion,
    hhead.metricName, hu32, hi64,
    htids.object, htids.sha256, htids.sizeBytes, hshards.object, hshards.sha256,
    hshards.sizeBytes, Option.bind_eq_bind, Option.bind_some, Option.getD_some, if_pos hkind,
    CuvsManifest.ownKind]
  rfl

theorem manifestFromJson_unsharded (h : m.Unquoted) (hkind : ¬2 ≤ m.shardCount) :
    manifestFromJson (render '"' manifestLead (manifestCells m)) = some m.ownKind := by
  have hhead := findsHead h
  have hcells := separated_manifest h
  rw [manifestCells_unsharded hkind] at hhead hcells ⊢
  have hcagra := @findsArtifact "cagra" .cagra " ".toList "\x7d,\n    ".toList manifestLead
    m.cagraSha256 m.cagraSizeBytes _ _ ⟨rfl, by decide, by decide⟩ (by decide) hcells (by decide)
    h.cagraSha256 ⟨'\x7d', _, rfl, by decide⟩ rfl
  have htids := @findsArtifact "tids" .tids "  ".toList "\x7d\n  \x7d\n\x7d\n".toList
    manifestLead m.tidsSha256 m.tidsSizeBytes _ [] ⟨rfl, by decide, by decide⟩ (by decide)
    hcells (by decide) h.tidsSha256 ⟨'\x7d', _, rfl, by decide⟩ rfl
  have hu32 := hhead.u32
  have hi64 := hhead.i64
  simp only [CuvsManifest.headU32, CuvsManifest.headI64, List.forall_mem_cons] at hu32 hi64
  simp only [manifestFromJson, jsonRequireStr, hhead.pgCuvsVersion, hhead.cuvsVersion,
    hhead.metricName, hu32, hi64,
    hcagra.object, hcagra.sha256, hcagra.sizeBytes, htids.object, htids.sha256,
    htids.sizeBytes, Option.bind_eq_bind, Option.bind_some, Option.getD_some, if_neg hkind,
    CuvsManifest.ownKind]
  rfl

theorem strstr_own {key : String} {lead : List Char} {cells : List JsonCell} {place : Place}
    (hkey : IsKey key) (hlead : '"' ∉ lead) (hcells : Separated cells)
    (hown : seek ':' key.toList cells = fromPlace place cells)
    (hne : seek ':' key.toList cells ≠ []) :
    strstr (render '"' lead cells) (keyPattern key) = some (render '"' [] (fromPlace place cells)) := by
  obtain ⟨c, rest, hseek⟩ := List.exists_cons_of_ne_nil hne
  rw [strstr_key hkey hlead hcells hseek, ← hown, hseek]

theorem manifestFields_own (h : m.Unquoted) : ∀ field ∈ manifestFields,
    strstr (render '"' manifestLead (manifestCells m)) (keyPattern field)
      = some (m.textFrom ⟨.manifest, true, field.toList⟩) := by
  have hplace : ∀ field ∈ manifestFields,
      seek ':' field.toList (manifestCells m)
        = fromPlace ⟨.manifest, true, field.toList⟩ (manifestCells m) ∧
      (seek ':' field.toList (manifestCells m)).isEmpty = false := by
    simp only [manifestFields, List.forall_mem_cons]
    exact ⟨⟨rfl, rfl⟩, ⟨rfl, rfl⟩, ⟨rfl, rfl⟩, ⟨rfl, rfl⟩, ⟨rfl, rfl⟩, ⟨rfl, rfl⟩, ⟨rfl, rfl⟩,
      ⟨rfl, rfl⟩, ⟨rfl, rfl⟩, ⟨rfl, rfl⟩, ⟨rfl, rfl⟩, ⟨rfl, rfl⟩, fun _ h => nomatch h⟩
  intro field hfield
  obtain ⟨hown, hfound⟩ := hplace field hfield
  have hne : seek ':' field.toList (manifestCells m) ≠ [] := by
    intro hnil
    rw [hnil] at hfound
    cases hfound
  exact strstr_own (isKey_manifestFields field hfield) (by decide) (separated_manifest h) hown hne

/-- Neither the search for an artifact nor those inside it end at another key. -/
structure OwnArtifact (json : List Char) (m : CuvsManifest) (scope : Scope) (name : String) : Prop where
  object : strstr json (keyPattern name) = some (m.textFrom ⟨.artifacts, true, name.toList⟩)
  fields : ∃ obj, jsonFindObj json name = some obj ∧ ∀ field ∈ artifactFields,
    strstr obj (keyPattern field) = some (m.textFrom ⟨scope, true, field.toList⟩)

theorem ownArtifact {name : String} {scope : Scope} {gap after sha256 : List Char}
    {sizeBytes : Int64} {rest : List JsonCell} (h : m.Unquoted) (hkey : IsKey name)
    (hgap : gap.all isJsonSpace = true)
    (hseek : seek ':' name.toList (manifestCells m) = objCell .artifacts name.toList gap [] ::
      (artifactCells scope sha256 sizeBytes after ++ rest))
    (hobject : seek ':' name.toList (manifestCells m)
      = fromPlace ⟨.artifacts, true, name.toList⟩ (manifestCells m))
    (hsha : artifactCells scope sha256 sizeBytes after ++ rest
      = fromPlace ⟨scope, true, "sha256".toList⟩ (manifestCells m))
    (hsize : numCell scope "size_bytes".toList (i64Text sizeBytes) after :: rest
      = fromPlace ⟨scope, true, "size_bytes".toList⟩ (manifestCells m)) :
    OwnArtifact (render '"' manifestLead (manifestCells m)) m scope name := by
  have hcells := separated_manifest h
  have hlead : '"' ∉ manifestLead := by decide
  have hinner : Separated (artifactCells scope sha256 sizeBytes after ++ rest) := by
    intro c hc
    apply hcells c ((seek_suffix ':' name.toList (manifestCells m)).subset _)
    rw [hseek]
    exact List.mem_cons_of_mem _ hc
  refine ⟨strstr_own hkey hlead hcells hobject (by rw [hseek]; exact List.cons_ne_nil _ _), _,
    jsonFindObj_cells hkey hlead hcells hgap hseek, ?_⟩
  simp only [artifactFields, List.forall_mem_cons]
  refine ⟨?_, ?_, fun _ h => nomatch h⟩
  · rw [CuvsManifest.textFrom, ← hsha]
    exact strstr_key ⟨rfl, by decide, by decide⟩ List.not_mem_nil hinner rfl
  · rw [CuvsManifest.textFrom, ← hsize]
    exact strstr_key ⟨rfl, by decide, by decide⟩ List.not_mem_nil hinner rfl

theorem artifacts_own (h : m.Unquoted) : ∀ a ∈ m.artifacts,
    OwnArtifact (render '"' manifestLead (manifestCells m)) m a.1 a.2 := by
  rw [CuvsManifest.artifacts]
  split_ifs with hkind
  · have hcells := manifestCells_sharded hkind
    simp only [List.forall_mem_cons]
    refine ⟨?_, ?_, fun _ h => nomatch h⟩
    · exact @ownArtifact m "tids" .tids "   ".toList "\x7d,\n    ".toList m.tidsSha256.chars
        m.tidsSizeBytes _ h ⟨rfl, by decide, by decide⟩ (by decide) (by rw [hcells]; rfl)
        (by rw [hcells]; rfl) (by rw [hcells]; rfl) (by rw [hcells]; rfl)
    · exact @ownArtifact m "shards" .shards " ".toList "\x7d\n  \x7d\n\x7d\n".toList
        m.shardsSha256.chars m.shardsSizeBytes [] h ⟨rfl, by decide, by decide⟩ (by decide)
        (by rw [hcells]; rfl) (by rw [hcells]; rfl) (by rw [hcells]; rfl) (by rw [hcells]; rfl)
  · have hcells := manifestCells_unsharded hkind
    simp only [List.forall_mem_cons]
    refine ⟨?_, ?_, fun _ h => nomatch h⟩
    · exact @ownArtifact m "cagra" .cagra " ".toList "\x7d,\n    ".toList m.cagraSha256.chars
        m.cagraSizeBytes _ h ⟨rfl, by decide, by decide⟩ (by decide) (by rw [hcells]; rfl)
        (by rw [hcells]; rfl) (by rw [hcells]; rfl) (by rw [hcells]; rfl)
    · exact @ownArtifact m "tids" .tids "  ".toList "\x7d\n  \x7d\n\x7d\n".toList
        m.tidsSha256.chars m.tidsSizeBytes [] h ⟨rfl, by decide, by decide⟩ (by decide)
        (by rw [hcells]; rfl) (by rw [hcells]; rfl) (by rw [hcells]; rfl) (by rw [hcells]; rfl)

end RoundTrip

/-- A manifest is read back from its text, up to the artifacts it does not have,
and every search of the reader ends at the key it is for. -/
theorem manifestFromJson_roundTrip (m : CuvsManifest) (h : m.Unquoted) :
    manifestFromJson (manifestToJson m 4096) = some m.ownKind ∧
      manifestToJson m 4096 = render '"' manifestLead (manifestCells m) ∧
      (∀ field ∈ manifestFields, strstr (manifestToJson m 4096) (keyPattern field)
        = some (m.textFrom ⟨.manifest, true, field.toList⟩)) ∧
      ∀ a ∈ m.artifacts, OwnArtifact (manifestToJson m 4096) m a.1 a.2 := by
  rw [manifestToJson_eq_render]
  refine ⟨?_, rfl, manifestFields_own h, artifacts_own h⟩
  by_cases hkind : 2 ≤ m.shardCount
  · exact manifestFromJson_sharded h hkind
  · exact manifestFromJson_unsharded h hkind

def sampleManifest : CuvsManifest where
  pgCuvsVersion := ⟨"tids: \x7b".toList, by decide, by decide⟩
  cuvsVersion := ⟨[], by decide, by decide⟩
  metricName := ⟨"dim\\".toList, by decide, by decide⟩
  databaseOid := 5
  tableOid := 16384
  indexOid := 16390
  relfilenode := 16390
  baseGeneration := 4294967295
  dim := 768
  vectorCount := 1000
  buildTimestamp := 1751328000
  cagraSha256 := .empty (by decide)
  cagraSizeBytes := 0
  tidsSha256 := ⟨"size_bytes: 1".toList, by decide, by decide⟩
  tidsSizeBytes := -1
  shardCount := 2
  shardsSha256 := ⟨"sha256".toList, by decide, by decide⟩
  shardsSizeBytes := 96

theorem manifestFromJson_sample :
    manifestFromJson (manifestToJson sampleManifest 4096) = some sampleManifest := by
  have h := manifestFromJson_roundTrip sampleManifest
    ⟨by decide, by decide, by decide, by decide, by decide, by decide⟩
  exact h.1

end PgCuvs
