import PgCuvs.Snapshot.Download

/-! Restoring on one node what another has uploaded: what a download that returns 0 has put
into the directory, and when it returns 0. -/

namespace PgCuvs

open CodeText

section Hashes

theorem hexByte_prefixFree : PrefixFree hexByte fun _ => True where
  ne_nil _ _ := List.cons_ne_nil _ _
  unique a b _ _ h := by
    have hinj : ∀ m < 16, ∀ n < 16, Nat.digitChar m = Nat.digitChar n → m = n := by decide
    have hhi := List.cons_prefix_cons.mp h
    have hlo := (List.cons_prefix_cons.mp hhi.2).1
    have hdiv : a.toNat / 16 = b.toNat / 16 :=
      hinj _ (Nat.div_lt_of_lt_mul a.toNat_lt) _ (Nat.div_lt_of_lt_mul b.toNat_lt) hhi.1
    have hmod : a.toNat % 16 = b.toNat % 16 :=
      hinj _ (Nat.mod_lt _ (by decide)) _ (Nat.mod_lt _ (by decide)) hlo
    apply UInt8.toNat_inj.mp
    calc a.toNat = 16 * (a.toNat / 16) + a.toNat % 16 := (Nat.div_add_mod _ _).symm
      _ = 16 * (b.toNat / 16) + b.toNat % 16 := by rw [hdiv, hmod]
      _ = b.toNat := Nat.div_add_mod _ _

theorem Sha256.hex_inj {sha : Sha256} {a b : Contents} :
    sha.hex a = sha.hex b ↔ sha.digest a = sha.digest b := by
  refine ⟨fun h => ?_, fun h => ?_⟩
  · have hchars : (sha.digest a).flatMap hexByte = (sha.digest b).flatMap hexByte :=
      congrArg CString.chars h
    exact hexByte_prefixFree.flatMap_injective (fun _ _ => trivial) (fun _ _ => trivial) hchars
  · apply CString.ext
    show (sha.digest a).flatMap hexByte = (sha.digest b).flatMap hexByte
    rw [h]

def SameDigest (sha : Sha256) (a b : Option Contents) : Prop :=
  ∃ x y, a = some x ∧ b = some y ∧ sha.digest x = sha.digest y

variable {sha : Sha256} {d : IndexFiles} {f : SnapshotFile} {expected : CString 65}
  {file : SnapshotFile → Option Contents}

theorem Verifies.sameDigest (h : Verifies sha d f expected)
    (hhash : ∃ c, file f = some c ∧ expected = sha.hex c) :
    SameDigest sha (d (.final f)) (file f) := by
  obtain ⟨c, hc, rfl⟩ := hhash
  obtain ⟨x, hx, hhex⟩ := Option.map_eq_some_iff.mp h
  exact ⟨x, c, hx, hc, Sha256.hex_inj.mp hhex⟩

theorem Verifies.of_eq (h : d (.final f) = file f)
    (hhash : ∃ c, file f = some c ∧ expected = sha.hex c) : Verifies sha d f expected := by
  obtain ⟨c, hc, rfl⟩ := hhash
  rw [Verifies, h, hc]
  rfl

end Hashes

def Replies (s : ObjectStore) (name : ObjectName) (reply : Option (List Contents)) : Prop :=
  ∀ chunks, reply = some chunks → s.objects name = some chunks.flatten

/-- A directory with the snapshot of an upload in it, as far as the hashes of its manifest
tell; `before` is the directory without it. -/
structure Restored (sha : Sha256) (t : SnapshotTarget) (stamps : BuildStamps)
    (db index localRelfilenode : UInt32) (u : Upload) (before d : IndexFiles) : Prop where
  bucket : u.target.bucket = t.bucket
  base : u.target.base = t.base
  dbOid : u.args.dbOid = db
  indexOid : u.args.indexOid = index
  heap : localRelfilenode = 0 ∨ u.args.relfilenode = localRelfilenode
  cuvsVersion : u.manifest.cuvsVersion = stamps.cuvsVersion
  tids : SameDigest sha (d (.final .tids)) (u.env.file .tids)
  shards : 2 ≤ u.manifest.shardCount → SameDigest sha (d (.final .shards)) (u.env.file .shards)
  cagra : ¬2 ≤ u.manifest.shardCount → SameDigest sha (d (.final .cagra)) (u.env.file .cagra)
  present : ∀ f ∈ u.manifest.files, ∃ c, d (.final f) = some c
  others : ∀ f, f ∉ u.manifest.files → d (.final f) = before (.final f)

namespace ObjectStore

section Integrity

variable {sha : Sha256} {s : ObjectStore}

theorem Settled.admitted (h : Settled sha s) {cfg : SnapshotConfig} {t : SnapshotTarget}
    {stamps : BuildStamps} {db index rfn : UInt32} {io : DownloadIo} {m : CuvsManifest}
    (hreply : Replies s (t.object db index .latest .manifest) io.manifest)
    (hm : admittedManifest cfg stamps db index rfn io = some m) :
    ∃ u ∈ s.uploads, Filed u t db index .latest u.json ∧ m = u.manifest ∧
      Admits stamps db index rfn u.manifest := by
  obtain ⟨chunks, hchunks, hread, hadmits⟩ := admittedManifest_eq_some hm
  have hobj := hreply chunks hchunks
  obtain ⟨u, hu, hfiled, -⟩ := h.manifests t db index .latest _ hobj
  have hjson := (h.formed u hu).read
  rw [← hfiled.json, hread] at hjson
  obtain rfl := Option.some.inj hjson
  exact ⟨u, hu, ⟨hfiled.bucket, hfiled.base, hfiled.dbOid, hfiled.indexOid, hfiled.slot, rfl⟩, rfl,
    hadmits⟩

/-- A download returns -1 and has discarded all it fetched, or it returns the second of an
upload of this index, from a heap and a cuVS that are the node's own, and every hash of that
upload holds here; what the network answers for the files does not matter. -/
def DownloadsSafely (sha : Sha256) (s : ObjectStore) : Prop :=
  ∀ (cfg : SnapshotConfig) (t : SnapshotTarget) (stamps : BuildStamps) (db index rfn : UInt32)
    (io : DownloadIo) (d : IndexFiles), cfg.target = some t →
    Replies s (t.object db index .latest .manifest) io.manifest →
      ((cuvsObjstoreDownload sha cfg stamps db index rfn io d).2 = none ∧
        Discarded d (cuvsObjstoreDownload sha cfg stamps db index rfn io d).1) ∨
      ∃ u ∈ s.uploads,
        (cuvsObjstoreDownload sha cfg stamps db index rfn io d).2 = some u.env.now.toUInt64 ∧
        Restored sha t stamps db index rfn u d
          (cuvsObjstoreDownload sha cfg stamps db index rfn io d).1

theorem run_downloadsSafely (sha : Sha256) (evs : List UploadEvent) :
    DownloadsSafely sha (Run.run (step sha) .empty evs) := by
  intro cfg t stamps db index rfn io d _ hreply
  have hinv := settled_run sha evs
  rcases cuvsObjstoreDownload_spec sha cfg stamps db index rfn io d with
    ⟨m, hm, hresult, hgot, hver⟩ | hfail
  · obtain ⟨u, hu, hfiled, rfl, hheap, -, hversion⟩ := hinv.admitted hreply hm
    have hform := hinv.formed u hu
    refine Or.inr ⟨u, hu, by rw [hresult, hform.buildTimestamp], ?_⟩
    constructor
    case bucket => exact hfiled.bucket
    case base => exact hfiled.base
    case dbOid => exact hfiled.dbOid
    case indexOid => exact hfiled.indexOid
    case heap =>
      rw [← hform.relfilenode]
      exact (not_and_or.mp hheap).imp not_not.mp not_not.mp
    case cuvsVersion => exact hversion
    case tids => exact hver.tids.sameDigest hform.hashes.tids
    case shards => exact fun hkind => (hver.shards hkind).sameDigest (hform.hashes.shards hkind)
    case cagra => exact fun hkind => (hver.cagra hkind).sameDigest (hform.hashes.cagra hkind)
    case present =>
      intro f hf
      obtain ⟨body, -, hbody⟩ := hgot.file f hf
      exact ⟨body, hbody⟩
    case others => exact hgot.others
  · exact Or.inl hfail

end Integrity

/-! Uploads that do not disturb each other. -/

def SameVersion (u v : Upload) : Prop :=
  (u.target.bucket = v.target.bucket ∧ u.target.base = v.target.base) ∧
    u.args.dbOid = v.args.dbOid ∧ u.args.indexOid = v.args.indexOid ∧ u.env.now = v.env.now

/-- No upload starts in the second of another of its index, and a file is sent as it was when
it was hashed. -/
def Calm (sha : Sha256) (s : ObjectStore) : UploadEvent → Prop
  | .start cfg stamps args env => ∀ v, startUpload sha cfg stamps args env = some v →
      ∀ u ∈ s.uploads, ¬SameVersion u v
  | .put thread read _ => ∀ u f rest, s.uploads[thread]? = some u →
      s.todo thread = .artifact f :: rest → read = u.env.file f

structure Exact (s : ObjectStore) : Prop where
  unique : ∀ u ∈ s.uploads, ∀ v ∈ s.uploads, SameVersion u v → u = v
  origin : ∀ (t : SnapshotTarget) db index ts f c, f ≠ .manifest →
    s.objects (t.object db index (.version ts) f) = some c →
      ∃ u ∈ s.uploads, t.object db index (.version ts) f = u.putObject (.artifact f) ∧
        u.env.file f = some c

section Availability

variable {sha : Sha256} {s : ObjectStore}

theorem exact_empty : Exact .empty where
  unique _ hu := absurd hu List.not_mem_nil
  origin _ _ _ _ _ c _ hc := absurd hc.symm (Option.some_ne_none c)

theorem putObject_artifact (u : Upload) (f : SnapshotFile) :
    u.putObject (.artifact f) =
      u.target.object u.args.dbOid u.args.indexOid (.version u.env.now) f := rfl

theorem Exact.file (h : Exact s) {u : Upload} (hu : u ∈ s.uploads) {f : SnapshotFile}
    (hf : f ≠ .manifest) {c : Contents} (hc : s.objects (u.putObject (.artifact f)) = some c) :
    u.env.file f = some c := by
  obtain ⟨v, hv, hname, hfile⟩ := h.origin u.target u.args.dbOid u.args.indexOid u.env.now f c hf hc
  rw [putObject_artifact] at hname
  obtain ⟨hplace, hdb, hindex, hslot, -⟩ := SnapshotTarget.object_inj.mp hname
  have hsame : u = v :=
    h.unique u hu v hv ⟨hplace, hdb, hindex, SnapshotSlot.version.inj hslot⟩
  rw [hsame]
  exact hfile

theorem SameVersion.symm {u v : Upload} (h : SameVersion u v) : SameVersion v u :=
  ⟨⟨h.1.1.symm, h.1.2.symm⟩, h.2.1.symm, h.2.2.1.symm, h.2.2.2.symm⟩

theorem Exact.start (h : Exact s) {u : Upload} (hnew : ∀ v ∈ s.uploads, ¬SameVersion v u)
    (todo : ℕ → List Put) : Exact { s with uploads := s.uploads ++ [u], todo } := by
  constructor
  case unique =>
    intro v hv w hw hsame
    rcases List.mem_append.mp hv with hv | hv
    · rcases List.mem_append.mp hw with hw | hw
      · exact h.unique v hv w hw hsame
      · rw [List.mem_singleton.mp hw] at hsame
        exact absurd hsame (hnew v hv)
    · rcases List.mem_append.mp hw with hw | hw
      · rw [List.mem_singleton.mp hv] at hsame
        exact absurd hsame.symm (hnew w hw)
      · exact (List.mem_singleton.mp hv).trans (List.mem_singleton.mp hw).symm
  case origin =>
    intro t db index ts f c hf hc
    obtain ⟨v, hv, hrest⟩ := h.origin t db index ts f c hf hc
    exact ⟨v, List.mem_append_left _ hv, hrest⟩

theorem Exact.put (h : Exact s) {s' : ObjectStore} {u : Upload} {thread : ℕ} {p : Put}
    {rest : List Put} {read : Option Contents} (hu : u ∈ s.uploads)
    (hread : ∀ f, p = .artifact f → read = u.env.file f)
    (hs : PutSpec s u thread p rest read s') : Exact s' := by
  constructor
  case unique => rw [hs.uploads]; exact h.unique
  case origin =>
    intro t db index ts f c hf hc
    rw [hs.uploads]
    rcases hs.objects with heq | ⟨d, hpay, heq⟩
    · rw [heq] at hc
      exact h.origin t db index ts f c hf hc
    · rw [heq] at hc
      by_cases hname : t.object db index (.version ts) f = u.putObject p
      · have hd : some d = some c := by rw [← hc, hname, store_self]
        obtain rfl := Option.some.inj hd
        cases p with
        | artifact g =>
          obtain ⟨-, -, -, -, hfg⟩ := SnapshotTarget.object_inj.mp
            (hname.trans (putObject_artifact u g))
          subst hfg
          refine ⟨u, hu, hname, ?_⟩
          rw [← hread f rfl]
          exact hpay
        | manifest slot =>
          have hname : t.object db index (.version ts) f =
            u.target.object u.args.dbOid u.args.indexOid slot .manifest := hname
          obtain ⟨-, -, -, -, hfile⟩ := SnapshotTarget.object_inj.mp hname
          exact absurd hfile hf
      · rw [store_of_ne s hname] at hc
        exact h.origin t db index ts f c hf hc

theorem Exact.step (h : Exact s) {ev : UploadEvent} (hev : Calm sha s ev) :
    Exact (s.step sha ev) := by
  rcases step_cases sha s ev with heq | ⟨cfg, stamps, args, env, u, rfl, hu, heq⟩ |
    ⟨thread, read, result, u, p, rest, rfl, hu, htodo, hs⟩
  · rw [heq]
    exact h
  · rw [heq]
    exact h.start (hev u hu) _
  · refine h.put (List.mem_of_getElem? hu) ?_ hs
    rintro f rfl
    exact hev u f rest hu htodo

/-- What the requests of a download are answered with while the run goes on: each file comes
from the store as it is then. -/
structure Serves (sha : Sha256) (s : ObjectStore) (t : SnapshotTarget) (db index : UInt32)
    (u : Upload) (io : DownloadIo) : Prop where
  token : io.token = true
  manifest : ∃ chunks, io.manifest = some chunks ∧ chunks ≠ [] ∧
    s.objects (t.object db index .latest .manifest) = some chunks.flatten
  file : ∀ f ∈ u.manifest.files, ∃ more, Run.Along (ObjectStore.step sha) (Calm sha) s more ∧
    ∀ c, (Run.run (ObjectStore.step sha) s more).objects
      (t.object db index (.version u.env.now) f) = some c → io.file f = .fetched c

theorem run_exact {evs : List UploadEvent} (h : Exact s)
    (hcalm : Run.Along (ObjectStore.step sha) (Calm sha) s evs) :
    Exact (Run.run (ObjectStore.step sha) s evs) :=
  Run.run_invariant Exact (fun _ _ hs hev => hs.step hev) h hcalm

theorem Has.run {name : ObjectName} (h : s.Has name) (evs : List UploadEvent) :
    (Run.run (ObjectStore.step sha) s evs).Has name :=
  Run.run_invariant (fun s : ObjectStore => s.Has name) (fun _ ev hs _ => hs.step ev) h
    (Run.along_of_forall (P := fun _ => True) (fun _ _ => trivial) _)

theorem downloadShards_complete {io : DownloadIo} {rest : List SnapshotFile}
    (h : ∀ f ∈ rest, ∃ body, io.file f = .fetched body) (d : IndexFiles)
    (fetched : List SnapshotFile) : (downloadShards io d fetched rest).2 = true := by
  induction rest generalizing d fetched with
  | nil => rfl
  | cons f rest ih =>
    obtain ⟨body, hbody⟩ := h f List.mem_cons_self
    rw [downloadShards, hbody]
    exact ih (fun g hg => h g (List.mem_cons_of_mem _ hg)) _ _

theorem downloadBody_complete {io : DownloadIo} {m : CuvsManifest}
    {file : SnapshotFile → Option Contents} (hhash : m.Hashes sha file)
    (hfetch : ∀ f ∈ m.files, ∃ body, io.file f = .fetched body ∧ file f = some body)
    (d : IndexFiles) : (downloadBody sha io m d).2 = true := by
  have hverifies : ∀ (d : IndexFiles) f body expected, file f = some body →
      (∃ c, file f = some c ∧ expected = sha.hex c) →
      Verifies sha (rename d f body) f expected := by
    intro d f body expected hfile hexpected
    exact Verifies.of_eq ((rename_self d f body).trans hfile.symm) hexpected
  rw [downloadBody]
  by_cases hkind : 2 ≤ m.shardCount
  · have hfiles : m.files = .tids :: .shards :: shardNames m.shardCount := if_pos hkind
    rw [hfiles, List.forall_mem_cons, List.forall_mem_cons] at hfetch
    obtain ⟨⟨tids, htids, hft⟩, ⟨shards, hshards, hfs⟩, hrest⟩ := hfetch
    rw [if_pos hkind, downloadSharded, htids]
    dsimp only [gcsDownloadFile]
    rw [if_pos (hverifies d .tids tids _ hft hhash.tids), hshards]
    dsimp only [gcsDownloadFile]
    rw [if_pos (hverifies _ .shards shards _ hfs (hhash.shards hkind))]
    apply downloadShards_complete
    intro f hf
    obtain ⟨body, hbody, -⟩ := hrest f hf
    exact ⟨body, hbody⟩
  · have hfiles : m.files = [.cagra, .tids] := if_neg hkind
    rw [hfiles, List.forall_mem_cons, List.forall_mem_singleton] at hfetch
    obtain ⟨⟨cagra, hcagra, hfc⟩, ⟨tids, htids, hft⟩⟩ := hfetch
    rw [if_neg hkind, downloadUnsharded, htids]
    dsimp only [gcsDownloadFile]
    rw [if_pos (hverifies d .tids tids _ hft hhash.tids), hcagra]
    dsimp only [gcsDownloadFile]
    rw [if_pos (hverifies _ .cagra cagra _ hfc (hhash.cagra hkind))]

theorem mem_uploads_step {u : Upload} (h : u ∈ s.uploads) (ev : UploadEvent) :
    u ∈ (s.step sha ev).uploads := by
  rcases step_cases sha s ev with heq | ⟨cfg, stamps, args, env, v, -, -, heq⟩ |
    ⟨thread, read, result, v, p, rest, -, -, -, hs⟩
  · rw [heq]
    exact h
  · rw [heq]
    exact List.mem_append_left _ h
  · rw [hs.uploads]
    exact h

theorem mem_uploads_run {u : Upload} (h : u ∈ s.uploads) (evs : List UploadEvent) :
    u ∈ (Run.run (ObjectStore.step sha) s evs).uploads :=
  Run.run_invariant (fun s : ObjectStore => u ∈ s.uploads)
    (fun _ ev hs _ => mem_uploads_step hs ev) h
    (Run.along_of_forall (P := fun _ => True) (fun _ _ => trivial) _)

theorem json_length (u : Upload) : u.json.length ≤ objstoreRespMax := by
  have hlen := manifestText_length u.manifest
  rw [Upload.json, manifestToJson_eq_text]
  exact (Nat.le_of_lt hlen).trans (by decide)

/-- The files of the upload are what the requests bring, however late they are made. -/
theorem Exact.served (h : Exact s) {t : SnapshotTarget} {db index : UInt32} {u : Upload}
    {io : DownloadIo} {c : Contents} (hu : u ∈ s.uploads) (hfiled : Filed u t db index .latest c)
    (hall : ∀ f ∈ u.manifest.files, s.Has (u.putObject (.artifact f)))
    (hserves : Serves sha s t db index u io) :
    ∀ f ∈ u.manifest.files, ∃ body, io.file f = .fetched body ∧ u.env.file f = some body := by
  intro f hf
  obtain ⟨more, hmore, hreply⟩ := hserves.file f hf
  have hname : t.object db index (.version u.env.now) f = u.putObject (.artifact f) :=
    SnapshotTarget.object_inj.mpr
      ⟨⟨hfiled.bucket.symm, hfiled.base.symm⟩, hfiled.dbOid.symm, hfiled.indexOid.symm, rfl, rfl⟩
  have hne : f ≠ .manifest := fun heq => manifest_not_mem_files u.manifest (heq ▸ hf)
  obtain ⟨body, hbody⟩ := @Has.run sha s _ (hall f hf) more
  refine ⟨body, hreply body (hname ▸ hbody), ?_⟩
  exact (run_exact h hmore).file (mem_uploads_run hu more) hne hbody

/-- What a node has to hope for: the alias leads to an upload of its index, and a download
that is answered brings that upload's files byte for byte, while other uploads go on, if its
gates are passed; if not, the directory stays as it was. -/
def Restorable (sha : Sha256) (s : ObjectStore) : Prop :=
  ∀ (cfg : SnapshotConfig) (t : SnapshotTarget) (db index : UInt32), cfg.target = some t →
    s.Has (t.object db index .latest .manifest) →
    ∃ u ∈ s.uploads, Filed u t db index .latest u.json ∧
      ∀ (stamps : BuildStamps) (rfn : UInt32) (io : DownloadIo) (d : IndexFiles),
        Serves sha s t db index u io →
        if Admits stamps db index rfn u.manifest then
          (cuvsObjstoreDownload sha cfg stamps db index rfn io d).2 = some u.env.now.toUInt64 ∧
          ∀ f, (cuvsObjstoreDownload sha cfg stamps db index rfn io d).1 (.final f) =
            if f ∈ u.manifest.files then u.env.file f else d (.final f)
        else cuvsObjstoreDownload sha cfg stamps db index rfn io d = (d, none)

/-- Where uploads of an index are a second apart and files stay while they are sent, no
manifest behind the alias is one that cannot be restored. -/
theorem run_restorable (sha : Sha256) (evs : List UploadEvent)
    (hcalm : Run.Along (step sha) (Calm sha) .empty evs) :
    Restorable sha (Run.run (step sha) .empty evs) := by
  intro cfg t db index ht hhas
  obtain ⟨c, hc⟩ := hhas
  have hinv := settled_run sha evs
  have hexact : Exact (Run.run (step sha) .empty evs) := run_exact exact_empty hcalm
  obtain ⟨u, hu, hfiled, hall⟩ := hinv.manifests t db index .latest c hc
  have hform := hinv.formed u hu
  obtain rfl := hfiled.json
  refine ⟨u, hu, hfiled, fun stamps rfn io d hserves => ?_⟩
  obtain ⟨chunks, hchunks, hne, hobj⟩ := hserves.manifest
  have hjson : chunks.flatten = u.json := Option.some.inj (hobj.symm.trans hc)
  have hgate : admittedManifest cfg stamps db index rfn io =
      if Admits stamps db index rfn u.manifest then some u.manifest else none :=
    admittedManifest_eq_ite ht hserves.token hchunks hne (hjson ▸ json_length u)
      (hjson ▸ hform.read)
  -- the gates look at the manifest alone, and the one stored is the upload's own
  split_ifs with hadmits
  · rw [if_pos hadmits] at hgate
    have hfetch := hexact.served hu hfiled hall hserves
    have hdone := downloadBody_complete hform.hashes hfetch d
    rcases downloadBody_spec sha io u.manifest d with ⟨-, hgot, -⟩ | ⟨hfail, -⟩
    · have hdown : cuvsObjstoreDownload sha cfg stamps db index rfn io d =
          ((downloadBody sha io u.manifest d).1, some u.manifest.buildTimestamp.toUInt64) := by
        rw [cuvsObjstoreDownload, hgate]
        dsimp only
        cases hbody : downloadBody sha io u.manifest d with
        | mk d' ok =>
          rw [hbody] at hdone
          obtain rfl : ok = true := hdone
          rfl
      rw [hdown]
      refine ⟨by rw [hform.buildTimestamp], fun f => ?_⟩
      split_ifs with hf
      · obtain ⟨body, hbody, hfile⟩ := hgot.file f hf
        obtain ⟨body', hbody', henv⟩ := hfetch f hf
        have hsame : body = body' := FileFetch.fetched.inj (hbody.symm.trans hbody')
        rw [henv, ← hsame]
        exact hfile
      · exact hgot.others f hf
    · rw [hdone] at hfail
      cases hfail
  · rw [if_neg hadmits] at hgate
    rw [cuvsObjstoreDownload, hgate]

end Availability

/-! One upload from beginning to end. -/

def sampleDigest (c : Contents) : List UInt8 :=
  if c = "graph".toList then
    [0xee, 0xf9, 0x3e, 0x1d, 0x14, 0x48, 0x28, 0x04, 0x27, 0x7f, 0xca, 0x01,
      0x72, 0x46, 0x40, 0x32, 0xd1, 0xa4, 0xfd, 0xbc, 0xc3, 0x38, 0x52, 0x40,
      0x59, 0xfa, 0x1e, 0x86, 0x14, 0x54, 0xad, 0x4d]
  else if c = "tids".toList then
    [0x18, 0x91, 0xac, 0xf3, 0x7b, 0xf6, 0x30, 0x7b, 0xac, 0xb6, 0x76, 0x04,
      0x74, 0x32, 0x7d, 0x5d, 0xc8, 0xfa, 0x22, 0xfd, 0x6d, 0x91, 0x16, 0xa7,
      0x8e, 0x8d, 0xad, 0x01, 0x26, 0x2a, 0xf6, 0xa7]
  else
    [0xe3, 0xb0, 0xc4, 0x42, 0x98, 0xfc, 0x1c, 0x14, 0x9a, 0xfb, 0xf4, 0xc8,
      0x99, 0x6f, 0xb9, 0x24, 0x27, 0xae, 0x41, 0xe4, 0x64, 0x9b, 0x93, 0x4c,
      0xa4, 0x95, 0x99, 0x1b, 0x78, 0x52, 0xb8, 0x55]

def sampleSha : Sha256 where
  digest := sampleDigest
  digest_length c := by
    unfold sampleDigest
    split_ifs <;> rfl

def sampleStamps : BuildStamps where
  pgCuvsVersion := ⟨"0.8.0".toList, by decide, by decide⟩
  cuvsVersion := ⟨"26.04.00".toList, by decide, by decide⟩
  pgCuvs_unquoted := by decide
  cuvs_unquoted := by decide

def sampleSnapshots : SnapshotConfig where
  uri := ⟨"gs://b/p".toList, by decide, by decide⟩
  clusterId := ⟨"c".toList, by decide, by decide⟩
  uri_bytes := IsBytes.of_all (by decide)
  clusterId_bytes := IsBytes.of_all (by decide)

def sampleTarget : SnapshotTarget where
  bucket := "b".toList
  bucketPrefix := "p".toList
  clusterId := sampleSnapshots.clusterId
  bucket_length := by decide
  prefix_length := by decide
  prefix_bytes := IsBytes.of_all (by decide)
  clusterId_bytes := sampleSnapshots.clusterId_bytes

def sampleArgs : UploadArgs where
  kind := .unsharded
  dbOid := 5
  tableOid := 16384
  indexOid := 16390
  relfilenode := 16390
  metric := 1
  dim := 3
  vectorCount := 1000
  baseGeneration := 7
  relfilenode_ne := by decide

def sampleFile : SnapshotFile → Option Contents
  | .cagra => some "graph".toList
  | .tids => some "tids".toList
  | _ => none

def sampleEnv : UploadEnv := ⟨true, sampleFile, fun _ => some 5, 1700000000⟩

def sampleUploadRun : List UploadEvent :=
  [.start sampleSnapshots sampleStamps sampleArgs sampleEnv, .put 0 (some "graph".toList) .stored,
    .put 0 (some "tids".toList) .stored, .put 0 none .stored, .put 0 none .stored]

def sampleUpload : Upload where
  target := sampleTarget
  args := sampleArgs
  env := sampleEnv
  manifest :=
    { manifestOf sampleStamps sampleArgs sampleEnv with
      cagraSha256 := sampleSha.hex "graph".toList
      cagraSizeBytes := 5
      tidsSha256 := sampleSha.hex "tids".toList
      tidsSizeBytes := 5 }
  puts := [.artifact .cagra, .artifact .tids] ++ manifestPuts 1700000000

theorem calm_sample {s : ObjectStore} {read : Option Contents} {result : PutResult} {p : Put}
    {rest : List Put} (hs : s.uploads[0]? = some sampleUpload) (htodo : s.todo 0 = p :: rest)
    (hread : ∀ f, p = .artifact f → read = sampleFile f) :
    Calm sampleSha s (.put 0 read result) := by
  intro u f more hu hmore
  obtain rfl := Option.some.inj (hs.symm.trans hu)
  exact hread f (List.head_eq_of_cons_eq (htodo.symm.trans hmore))

theorem sampleUploadRun_calm :
    Run.Along (step sampleSha) (Calm sampleSha) .empty sampleUploadRun := by
  refine ⟨?_, calm_sample rfl rfl ?_, calm_sample rfl rfl ?_, calm_sample rfl rfl ?_,
    calm_sample rfl rfl ?_, trivial⟩
  · intro v _ u hu
    cases hu
  · rintro f ⟨⟩
    rfl
  · rintro f ⟨⟩
    rfl
  · rintro f ⟨⟩
  · rintro f ⟨⟩

/-- The run ends with a manifest behind the alias. -/
theorem sampleUploadRun_restorable :
    Restorable sampleSha (Run.run (step sampleSha) .empty sampleUploadRun) ∧
      (Run.run (step sampleSha) .empty sampleUploadRun).Has
        (sampleTarget.object 5 16390 .latest .manifest) :=
  ⟨run_restorable sampleSha sampleUploadRun sampleUploadRun_calm, sampleUpload.json, rfl⟩

end ObjectStore

end PgCuvs
