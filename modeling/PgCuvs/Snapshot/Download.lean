import PgCuvs.Snapshot.ManifestLast

/-! Fetching a snapshot into the index directory: the gates, the hashes, and what is left of
a download that fails. -/

namespace PgCuvs

open Numerals CodeText

def objstoreRespMax : ℕ := 64 * 1024

/-- `write_to_buf`: a body that grows too long fails the transfer. -/
def writeToBuf (buf : Option Contents) (chunk : Contents) : Option Contents :=
  buf.bind fun b =>
    if objstoreRespMax < chunk.length ∨ objstoreRespMax < b.length + chunk.length then none
    else some (b ++ chunk)

/-- `gcs_fetch_string`, with the pieces the body comes in, or none where the request fails. -/
def gcsFetchString : Option (List Contents) → Option Contents
  | none => none
  | some [] => none
  | some chunks => chunks.foldl writeToBuf (some [])

inductive FileFetch
  /-- the temporary file cannot be opened -/
  | noTmp
  /-- the transfer, the closing or the renaming fails -/
  | failed
  | fetched (body : Contents)

/-- A file of an index in the index directory, under its name or as `.tmp`. -/
inductive LocalFile
  | final (file : SnapshotFile)
  | tmp (file : SnapshotFile)
deriving DecidableEq

abbrev IndexFiles := LocalFile → Option Contents

def unlink (d : IndexFiles) (file : LocalFile) : IndexFiles := Function.update d file none

def unlinkAll (d : IndexFiles) (files : List SnapshotFile) : IndexFiles :=
  files.foldl (fun d f => unlink d (.final f)) d

def rename (d : IndexFiles) (file : SnapshotFile) (body : Contents) : IndexFiles :=
  Function.update (unlink d (.tmp file)) (.final file) (some body)

def gcsDownloadFile (d : IndexFiles) (file : SnapshotFile) : FileFetch → IndexFiles × Bool
  | .noTmp => (d, false)
  | .failed => (unlink d (.tmp file), false)
  | .fetched body => (rename d file body, true)

structure DownloadIo where
  token : Bool
  manifest : Option (List Contents)
  file : SnapshotFile → FileFetch

section Body

variable (sha : Sha256) (io : DownloadIo) (m : CuvsManifest)

def Verifies (d : IndexFiles) (file : SnapshotFile) (expected : CString 65) : Prop :=
  cuvsSha256File sha (d (.final file)) = some expected

instance (d : IndexFiles) (file : SnapshotFile) (expected : CString 65) :
    Decidable (Verifies sha d file expected) :=
  inferInstanceAs (Decidable (_ = _))

def downloadUnsharded (d : IndexFiles) : IndexFiles × Bool :=
  match gcsDownloadFile d .tids (io.file .tids) with
  | (d, false) => (d, false)
  | (d, true) =>
    if Verifies sha d .tids m.tidsSha256 then
      match gcsDownloadFile d .cagra (io.file .cagra) with
      -- an older `.cagra` stays, without the `.tids` it needs to be loaded
      | (d, false) => (unlinkAll d [.tids], false)
      | (d, true) =>
        if Verifies sha d .cagra m.cagraSha256 then (d, true)
        else (unlinkAll d [.tids, .cagra], false)
    else (unlinkAll d [.tids], false)

/-- The loop over the shards, with those it has behind it. -/
def downloadShards : IndexFiles → List SnapshotFile → List SnapshotFile → IndexFiles × Bool
  | d, _, [] => (d, true)
  | d, fetched, f :: rest =>
    match gcsDownloadFile d f (io.file f) with
    | (d, true) => downloadShards d (fetched ++ [f]) rest
    | (d, false) => (unlinkAll d (.tids :: .shards :: fetched), false)

def downloadSharded (d : IndexFiles) : IndexFiles × Bool :=
  match gcsDownloadFile d .tids (io.file .tids) with
  | (d, false) => (d, false)
  | (d, true) =>
    if Verifies sha d .tids m.tidsSha256 then
      match gcsDownloadFile d .shards (io.file .shards) with
      | (d, false) => (unlinkAll d [.tids], false)
      | (d, true) =>
        if Verifies sha d .shards m.shardsSha256 then
          downloadShards io d [] (shardNames m.shardCount)
        else (unlinkAll d [.tids, .shards], false)
    else (unlinkAll d [.tids], false)

def downloadBody (d : IndexFiles) : IndexFiles × Bool :=
  if 2 ≤ m.shardCount then downloadSharded sha io m d else downloadUnsharded sha io m d

end Body

/-- The gates in front of the files: the heap, the OIDs and the cuVS version. -/
def Admits (stamps : BuildStamps) (dbOid indexOid localRelfilenode : UInt32)
    (m : CuvsManifest) : Prop :=
  ¬(localRelfilenode ≠ 0 ∧ m.relfilenode ≠ localRelfilenode) ∧
    ¬(m.databaseOid ≠ dbOid ∨ m.indexOid ≠ indexOid) ∧ m.cuvsVersion = stamps.cuvsVersion

instance (stamps : BuildStamps) (dbOid indexOid localRelfilenode : UInt32) (m : CuvsManifest) :
    Decidable (Admits stamps dbOid indexOid localRelfilenode m) :=
  inferInstanceAs (Decidable (_ ∧ _ ∧ _))

def admittedManifest (cfg : SnapshotConfig) (stamps : BuildStamps)
    (dbOid indexOid localRelfilenode : UInt32) (io : DownloadIo) : Option CuvsManifest := do
  if cfg.uri.chars = [] then none
  else
    let _ ← cfg.target
    if io.token = true then
      let body ← gcsFetchString io.manifest
      let m ← manifestFromJson (body.takeWhile (· != '\x00'))
      if Admits stamps dbOid indexOid localRelfilenode m then some m else none
    else none

/-- The directory afterwards, and the timestamp where the call returns 0. -/
def cuvsObjstoreDownload (sha : Sha256) (cfg : SnapshotConfig) (stamps : BuildStamps)
    (dbOid indexOid localRelfilenode : UInt32) (io : DownloadIo) (d : IndexFiles) :
    IndexFiles × Option UInt64 :=
  match admittedManifest cfg stamps dbOid indexOid localRelfilenode io with
  | none => (d, none)
  | some m =>
    match downloadBody sha io m d with
    | (d, true) => (d, some m.buildTimestamp.toUInt64)
    | (d, false) => (d, none)

/-! One file. -/

section Files

variable {d d' : IndexFiles} {f : SnapshotFile} {fetched : List SnapshotFile}

def Within (fetched : List SnapshotFile) (d d' : IndexFiles) : Prop :=
  ∀ file, (∃ f ∈ fetched, file = .final f) ∨ d' file = d file ∨ d' file = none

theorem Within.refl (d : IndexFiles) : Within fetched d d := fun _ => Or.inr (Or.inl rfl)

theorem Within.unlink (h : Within fetched d d') (file : LocalFile) :
    Within fetched d (unlink d' file) := by
  intro other
  by_cases heq : other = file
  · subst heq
    exact Or.inr (Or.inr (Function.update_self _ _ _))
  · have hsame : PgCuvs.unlink d' file other = d' other := Function.update_of_ne heq _ _
    rw [hsame]
    exact h other

theorem Within.fetch (h : Within fetched d d') (f : SnapshotFile) (body : Contents) :
    Within (fetched ++ [f]) d (rename d' f body) := by
  intro other
  by_cases heq : other = .final f
  · exact Or.inl ⟨f, List.mem_append_right _ List.mem_cons_self, heq⟩
  · rw [rename, Function.update_of_ne heq]
    rcases h.unlink (.tmp f) other with ⟨g, hg, hname⟩ | hrest
    · exact Or.inl ⟨g, List.mem_append_left _ hg, hname⟩
    · exact Or.inr hrest

theorem unlinkAll_eq (d : IndexFiles) (files : List SnapshotFile) (file : LocalFile) :
    unlinkAll d files file = if ∃ f ∈ files, file = .final f then none else d file := by
  induction files generalizing d with
  | nil =>
    refine (if_neg ?_).symm
    rintro ⟨f, hf, -⟩
    exact List.not_mem_nil hf
  | cons f files ih =>
    have hstep : unlinkAll d (f :: files) = unlinkAll (unlink d (.final f)) files := rfl
    rw [hstep, ih]
    by_cases hrest : ∃ g ∈ files, file = .final g
    · obtain ⟨g, hg, hname⟩ := hrest
      rw [if_pos ⟨g, hg, hname⟩, if_pos ⟨g, List.mem_cons_of_mem _ hg, hname⟩]
    · rw [if_neg hrest]
      by_cases hhead : file = .final f
      · rw [if_pos ⟨f, List.mem_cons_self, hhead⟩, hhead]
        exact Function.update_self _ _ _
      · rw [if_neg]
        · exact Function.update_of_ne hhead _ _
        · rintro ⟨g, hg, hname⟩
          rcases List.mem_cons.mp hg with rfl | hg
          · exact hhead hname
          · exact hrest ⟨g, hg, hname⟩

theorem Within.unlinkAll (h : Within fetched d d') {files : List SnapshotFile}
    (hall : ∀ f ∈ fetched, f ∈ files) : Within [] d (unlinkAll d' files) := by
  intro file
  rw [unlinkAll_eq]
  by_cases hin : ∃ f ∈ files, file = .final f
  · rw [if_pos hin]
    exact Or.inr (Or.inr rfl)
  · rw [if_neg hin]
    rcases h file with ⟨f, hf, hname⟩ | hrest
    · exact absurd ⟨f, hall f hf, hname⟩ hin
    · exact Or.inr hrest

theorem unlinkAll_tids {files : List SnapshotFile} (h : .tids ∈ files) :
    unlinkAll d files (.final .tids) = none := by
  rw [unlinkAll_eq, if_pos ⟨.tids, h, rfl⟩]

theorem gcsDownloadFile_cases (d : IndexFiles) (f : SnapshotFile) (r : FileFetch) :
    (∃ body, r = .fetched body ∧ gcsDownloadFile d f r =
      (rename d f body, true)) ∨
    ∃ d', gcsDownloadFile d f r = (d', false) ∧ Within [] d d' ∧
      ∀ g, d' (.final g) = d (.final g) := by
  cases r with
  | noTmp => exact Or.inr ⟨d, rfl, Within.refl d, fun _ => rfl⟩
  | failed =>
    refine Or.inr ⟨_, rfl, (Within.refl d).unlink _, fun g => ?_⟩
    exact Function.update_of_ne (by rintro ⟨⟩) _ _
  | fetched body => exact Or.inl ⟨body, rfl, rfl⟩

theorem Within.trans_nil {d'' : IndexFiles} (h : Within fetched d d') (h' : Within [] d' d'') :
    Within fetched d d'' := by
  intro file
  rcases h' file with ⟨f, hf, -⟩ | hsame | hnone
  · exact absurd hf List.not_mem_nil
  · rw [hsame]
    exact h file
  · exact Or.inr (Or.inr hnone)

end Files

/-! The files of a manifest. -/

section Body

variable {sha : Sha256} {io : DownloadIo} {m : CuvsManifest} {d d' : IndexFiles}

/-- What a download that fails leaves: nothing of the snapshot, and no list of TIDs if any
file was replaced or lost. -/
structure Discarded (d d' : IndexFiles) : Prop where
  within : Within [] d d'
  unloadable : (∀ f, d' (.final f) = d (.final f)) ∨ d' (.final .tids) = none

structure Fetched (io : DownloadIo) (m : CuvsManifest) (d d' : IndexFiles) : Prop where
  file : ∀ f ∈ m.files, ∃ body, io.file f = .fetched body ∧ d' (.final f) = some body
  others : ∀ f, f ∉ m.files → d' (.final f) = d (.final f)

theorem discarded_of_fetched {fetched files : List SnapshotFile} (h : Within fetched d d')
    (hall : ∀ f ∈ fetched, f ∈ files) (htids : .tids ∈ files) :
    Discarded d (unlinkAll d' files) :=
  ⟨h.unlinkAll hall, Or.inr (unlinkAll_tids htids)⟩

@[simp] theorem rename_self (d : IndexFiles) (f : SnapshotFile) (body : Contents) :
    rename d f body (.final f) = some body :=
  Function.update_self _ _ _

theorem rename_of_ne (d : IndexFiles) {f g : SnapshotFile} (h : g ≠ f) (body : Contents) :
    rename d f body (.final g) = d (.final g) := by
  rw [rename, Function.update_of_ne fun heq => h (LocalFile.final.inj heq)]
  exact Function.update_of_ne (by rintro ⟨⟩) _ _

theorem downloadShards_spec (io : DownloadIo) (d₀ : IndexFiles) :
    ∀ (rest : List SnapshotFile) (d : IndexFiles) (fetched : List SnapshotFile),
      Within (.tids :: .shards :: fetched) d₀ d →
      ((downloadShards io d fetched rest).2 = true ∧
        (∀ f ∈ rest, ∃ body, io.file f = .fetched body ∧
          (downloadShards io d fetched rest).1 (.final f) = some body) ∧
        ∀ g, g ∉ rest → (downloadShards io d fetched rest).1 (.final g) = d (.final g)) ∨
      ((downloadShards io d fetched rest).2 = false ∧
        Discarded d₀ (downloadShards io d fetched rest).1) := by
  intro rest
  induction rest with
  | nil =>
    intro d fetched _
    exact Or.inl ⟨rfl, fun f hf => absurd hf List.not_mem_nil, fun _ _ => rfl⟩
  | cons f rest ih =>
    intro d fetched hwithin
    rcases gcsDownloadFile_cases d f (io.file f) with ⟨body, hfetch, hdown⟩ | ⟨d', hdown, hnil, -⟩
    · have hstep : downloadShards io d fetched (f :: rest) =
          downloadShards io (rename d f body)
            (fetched ++ [f]) rest := by rw [downloadShards, hdown]
      rw [hstep]
      rcases ih _ (fetched ++ [f]) (hwithin.fetch f body) with ⟨hok, hfiles, hothers⟩ | hfail
      · refine Or.inl ⟨hok, ?_, ?_⟩
        · intro g hg
          by_cases hrest : g ∈ rest
          · exact hfiles g hrest
          · obtain rfl : g = f := (List.mem_cons.mp hg).resolve_right hrest
            exact ⟨body, hfetch, (hothers g hrest).trans (rename_self d g body)⟩
        · intro g hg
          have hne := not_or.mp (mt List.mem_cons.mpr hg)
          exact (hothers g hne.2).trans (rename_of_ne d hne.1 body)
      · exact Or.inr hfail
    · have hstep : downloadShards io d fetched (f :: rest) =
          (unlinkAll d' (.tids :: .shards :: fetched), false) := by rw [downloadShards, hdown]
      rw [hstep]
      refine Or.inr ⟨rfl, ?_⟩
      exact discarded_of_fetched (hwithin.trans_nil hnil) (fun _ hg => hg) List.mem_cons_self

theorem downloadUnsharded_spec (sha : Sha256) (io : DownloadIo) {m : CuvsManifest}
    (hkind : ¬2 ≤ m.shardCount) (d : IndexFiles) :
    ((downloadUnsharded sha io m d).2 = true ∧ Fetched io m d (downloadUnsharded sha io m d).1 ∧
      Verifies sha (downloadUnsharded sha io m d).1 .tids m.tidsSha256 ∧
      Verifies sha (downloadUnsharded sha io m d).1 .cagra m.cagraSha256) ∨
    ((downloadUnsharded sha io m d).2 = false ∧ Discarded d (downloadUnsharded sha io m d).1) := by
  have hfiles : m.files = [.cagra, .tids] := if_neg hkind
  rw [downloadUnsharded]
  rcases gcsDownloadFile_cases d .tids (io.file .tids) with ⟨tids, htids, hdown⟩ | ⟨d', hdown, hnil, hfinal⟩
  · rw [hdown]
    have hrefl : Within [] d d := Within.refl d
    have hone := hrefl.fetch .tids tids
    dsimp only
    split_ifs with hv
    · rcases gcsDownloadFile_cases _ .cagra (io.file .cagra) with ⟨cagra, hcagra, hdown'⟩ | ⟨d', hdown', hnil, -⟩
      · rw [hdown']
        have htwo := hone.fetch .cagra cagra
        dsimp only
        split_ifs with hv'
        · dsimp only
          refine Or.inl ⟨rfl, ⟨?_, ?_⟩, ?_, hv'⟩
          · rw [hfiles, List.forall_mem_cons, List.forall_mem_singleton]
            refine ⟨⟨cagra, hcagra, rename_self _ _ _⟩, ⟨tids, htids, ?_⟩⟩
            rw [rename_of_ne _ (by rintro ⟨⟩), rename_self]
          · rw [hfiles]
            intro f hf
            have hne := not_or.mp (mt List.mem_cons.mpr hf)
            rw [rename_of_ne _ hne.1, rename_of_ne _ (mt List.mem_singleton.mpr hne.2)]
          · rw [Verifies, rename_of_ne _ (by rintro ⟨⟩)]
            exact hv
        · refine Or.inr ⟨rfl, discarded_of_fetched htwo (fun f hf => hf) ?_⟩
          exact List.mem_cons_self
      · rw [hdown']
        exact Or.inr ⟨rfl, discarded_of_fetched (hone.trans_nil hnil) (fun f hf => hf) List.mem_cons_self⟩
    · exact Or.inr ⟨rfl, discarded_of_fetched hone (fun f hf => hf) List.mem_cons_self⟩
  · rw [hdown]
    exact Or.inr ⟨rfl, hnil, Or.inl hfinal⟩

theorem downloadSharded_spec (sha : Sha256) (io : DownloadIo) {m : CuvsManifest}
    (hkind : 2 ≤ m.shardCount) (d : IndexFiles) :
    ((downloadSharded sha io m d).2 = true ∧ Fetched io m d (downloadSharded sha io m d).1 ∧
      Verifies sha (downloadSharded sha io m d).1 .tids m.tidsSha256 ∧
      Verifies sha (downloadSharded sha io m d).1 .shards m.shardsSha256) ∨
    ((downloadSharded sha io m d).2 = false ∧ Discarded d (downloadSharded sha io m d).1) := by
  have hfiles : m.files = .tids :: .shards :: shardNames m.shardCount := if_pos hkind
  have hnames : ∀ f, f ∈ shardNames m.shardCount → f ≠ .tids ∧ f ≠ .shards := by
    intro f hf
    obtain ⟨s, -, rfl⟩ := List.mem_map.mp hf
    exact ⟨by rintro ⟨⟩, by rintro ⟨⟩⟩
  rw [downloadSharded]
  rcases gcsDownloadFile_cases d .tids (io.file .tids) with ⟨tids, htids, hdown⟩ | ⟨d', hdown, hnil, hfinal⟩
  · rw [hdown]
    have hrefl : Within [] d d := Within.refl d
    have hone := hrefl.fetch .tids tids
    dsimp only
    split_ifs with hv
    · rcases gcsDownloadFile_cases _ .shards (io.file .shards) with ⟨shards, hshards, hdown'⟩ | ⟨d', hdown', hnil, -⟩
      · rw [hdown']
        have htwo := hone.fetch .shards shards
        dsimp only
        split_ifs with hv'
        · rcases downloadShards_spec io d (shardNames m.shardCount) _ [] htwo with ⟨hok, hgot, hkept⟩ | hfail
          · have ht := hkept .tids fun hin => (hnames _ hin).1 rfl
            have hs := hkept .shards fun hin => (hnames _ hin).2 rfl
            refine Or.inl ⟨hok, ⟨?_, ?_⟩, ?_, ?_⟩
            · rw [hfiles, List.forall_mem_cons, List.forall_mem_cons]
              refine ⟨⟨tids, htids, ?_⟩, ⟨shards, hshards, hs.trans (rename_self _ _ _)⟩, hgot⟩
              rw [ht, rename_of_ne _ (by rintro ⟨⟩), rename_self]
            · rw [hfiles]
              intro f hf
              have hne := not_or.mp (mt List.mem_cons.mpr hf)
              have hne' := not_or.mp (mt List.mem_cons.mpr hne.2)
              rw [hkept f hne'.2, rename_of_ne _ hne'.1, rename_of_ne _ hne.1]
            · rw [Verifies, ht, rename_of_ne _ (by rintro ⟨⟩)]
              exact hv
            · rw [Verifies, hs]
              exact hv'
          · exact Or.inr hfail
        · exact Or.inr ⟨rfl, discarded_of_fetched htwo (fun f hf => hf) List.mem_cons_self⟩
      · rw [hdown']
        exact Or.inr ⟨rfl, discarded_of_fetched (hone.trans_nil hnil) (fun f hf => hf) List.mem_cons_self⟩
    · exact Or.inr ⟨rfl, discarded_of_fetched hone (fun f hf => hf) List.mem_cons_self⟩
  · rw [hdown]
    exact Or.inr ⟨rfl, hnil, Or.inl hfinal⟩

end Body

structure Verified (sha : Sha256) (m : CuvsManifest) (d : IndexFiles) : Prop where
  tids : Verifies sha d .tids m.tidsSha256
  shards : 2 ≤ m.shardCount → Verifies sha d .shards m.shardsSha256
  cagra : ¬2 ≤ m.shardCount → Verifies sha d .cagra m.cagraSha256

theorem downloadBody_spec (sha : Sha256) (io : DownloadIo) (m : CuvsManifest) (d : IndexFiles) :
    ((downloadBody sha io m d).2 = true ∧ Fetched io m d (downloadBody sha io m d).1 ∧
      Verified sha m (downloadBody sha io m d).1) ∨
    ((downloadBody sha io m d).2 = false ∧ Discarded d (downloadBody sha io m d).1) := by
  rw [downloadBody]
  split_ifs with hkind
  · rcases downloadSharded_spec sha io hkind d with ⟨hok, hgot, htids, hshards⟩ | hfail
    · exact Or.inl ⟨hok, hgot, htids, fun _ => hshards, fun h => absurd hkind h⟩
    · exact Or.inr hfail
  · rcases downloadUnsharded_spec sha io hkind d with ⟨hok, hgot, htids, hcagra⟩ | hfail
    · exact Or.inl ⟨hok, hgot, htids, fun h => absurd h hkind, fun _ => hcagra⟩
    · exact Or.inr hfail

section Whole

variable {sha : Sha256} {cfg : SnapshotConfig} {stamps : BuildStamps} {db index rfn : UInt32}
  {io : DownloadIo} {d : IndexFiles} {m : CuvsManifest}

theorem cuvsObjstoreDownload_spec (sha : Sha256) (cfg : SnapshotConfig) (stamps : BuildStamps)
    (db index rfn : UInt32) (io : DownloadIo) (d : IndexFiles) :
    (∃ m, admittedManifest cfg stamps db index rfn io = some m ∧
      (cuvsObjstoreDownload sha cfg stamps db index rfn io d).2 = some m.buildTimestamp.toUInt64 ∧
      Fetched io m d (cuvsObjstoreDownload sha cfg stamps db index rfn io d).1 ∧
      Verified sha m (cuvsObjstoreDownload sha cfg stamps db index rfn io d).1) ∨
    ((cuvsObjstoreDownload sha cfg stamps db index rfn io d).2 = none ∧
      Discarded d (cuvsObjstoreDownload sha cfg stamps db index rfn io d).1) := by
  rw [cuvsObjstoreDownload]
  cases hm : admittedManifest cfg stamps db index rfn io with
  | none => exact Or.inr ⟨rfl, Within.refl d, Or.inl fun _ => rfl⟩
  | some m =>
    have hspec := downloadBody_spec sha io m d
    dsimp only
    cases hbody : downloadBody sha io m d with
    | mk d' ok =>
      rw [hbody] at hspec
      cases ok with
      | false =>
        rcases hspec with ⟨hok, -⟩ | ⟨-, hfail⟩
        · cases hok
        · exact Or.inr ⟨rfl, hfail⟩
      | true =>
        rcases hspec with ⟨-, hgot, hver⟩ | ⟨hok, -⟩
        · exact Or.inl ⟨m, rfl, rfl, hgot, hver⟩
        · cases hok

theorem foldl_writeToBuf {chunks : List Contents} {b : Contents}
    (h : b.length + chunks.flatten.length ≤ objstoreRespMax) :
    chunks.foldl writeToBuf (some b) = some (b ++ chunks.flatten) := by
  induction chunks generalizing b with
  | nil => rw [List.foldl_nil, List.flatten_nil, List.append_nil]
  | cons chunk chunks ih =>
    rw [List.flatten_cons, List.length_append] at h
    have hfits : ¬(objstoreRespMax < chunk.length ∨ objstoreRespMax < b.length + chunk.length) := by
      omega
    have hstep : writeToBuf (some b) chunk = some (b ++ chunk) := if_neg hfits
    rw [List.foldl_cons, hstep, ih (by rw [List.length_append]; omega), List.flatten_cons,
      List.append_assoc]

theorem foldl_writeToBuf_none (chunks : List Contents) :
    chunks.foldl writeToBuf none = none := by
  induction chunks with
  | nil => rfl
  | cons chunk chunks ih => exact ih

theorem flatten_of_foldl_writeToBuf {chunks : List Contents} {b c : Contents}
    (h : chunks.foldl writeToBuf (some b) = some c) : c = b ++ chunks.flatten := by
  induction chunks generalizing b with
  | nil => rw [List.flatten_nil, List.append_nil, ← Option.some.inj h]
  | cons chunk chunks ih =>
    rw [List.foldl_cons] at h
    by_cases hlong : objstoreRespMax < chunk.length ∨ objstoreRespMax < b.length + chunk.length
    · have hstep : writeToBuf (some b) chunk = none := if_pos hlong
      rw [hstep, foldl_writeToBuf_none] at h
      cases h
    · have hstep : writeToBuf (some b) chunk = some (b ++ chunk) := if_neg hlong
      rw [hstep] at h
      rw [ih h, List.flatten_cons, List.append_assoc]

theorem gcsFetchString_eq_some {reply : Option (List Contents)} {c : Contents}
    (h : gcsFetchString reply = some c) : ∃ chunks, reply = some chunks ∧ c = chunks.flatten := by
  cases reply with
  | none => cases h
  | some chunks =>
    cases chunks with
    | nil => cases h
    | cons chunk chunks => exact ⟨_, rfl, @flatten_of_foldl_writeToBuf (chunk :: chunks) [] c h⟩

theorem gcsFetchString_of_le {chunks : List Contents} (hne : chunks ≠ [])
    (h : chunks.flatten.length ≤ objstoreRespMax) :
    gcsFetchString (some chunks) = some chunks.flatten := by
  cases chunks with
  | nil => exact absurd rfl hne
  | cons chunk chunks => exact foldl_writeToBuf ((Nat.zero_add _).symm ▸ h)

theorem target_uri_ne {t : SnapshotTarget} (h : cfg.target = some t) : cfg.uri.chars ≠ [] := by
  intro hnil
  have hparse : parseGcsUri cfg.uri.chars 256 512 = none := by
    rw [hnil]
    rfl
  rw [SnapshotConfig.target] at h
  split at h
  · cases h
  · rename_i heq
    rw [hparse] at heq
    cases heq

/-- The manifest past the gates is one the store has sent. -/
theorem admittedManifest_eq_some (h : admittedManifest cfg stamps db index rfn io = some m) :
    ∃ chunks, io.manifest = some chunks ∧
      manifestFromJson (chunks.flatten.takeWhile (· != '\x00')) = some m ∧
      Admits stamps db index rfn m := by
  rw [admittedManifest] at h
  split_ifs at h with huri htoken
  · obtain ⟨t, -, h⟩ := Option.bind_eq_some_iff.mp h
    obtain ⟨body, hbody, h⟩ := Option.bind_eq_some_iff.mp h
    obtain ⟨m', hm', h⟩ := Option.bind_eq_some_iff.mp h
    split_ifs at h with hadmits
    obtain rfl := Option.some.inj h
    obtain ⟨chunks, hchunks, rfl⟩ := gcsFetchString_eq_some hbody
    exact ⟨chunks, hchunks, hm', hadmits⟩
  · obtain ⟨t, -, h⟩ := Option.bind_eq_some_iff.mp h
    cases h

theorem admittedManifest_eq_ite {t : SnapshotTarget} (ht : cfg.target = some t)
    (htoken : io.token = true) {chunks : List Contents} (hreply : io.manifest = some chunks)
    (hne : chunks ≠ []) (hlen : chunks.flatten.length ≤ objstoreRespMax)
    (hm : manifestFromJson (chunks.flatten.takeWhile (· != '\x00')) = some m) :
    admittedManifest cfg stamps db index rfn io =
      if Admits stamps db index rfn m then some m else none := by
  rw [admittedManifest, if_neg (target_uri_ne ht), ht, hreply, gcsFetchString_of_le hne hlen]
  simp only [Option.bind_eq_bind, Option.bind_some, htoken, if_true, hm]

end Whole

end PgCuvs
