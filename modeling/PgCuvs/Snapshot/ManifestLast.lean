import PgCuvs.Snapshot.Upload

/-! A manifest in the store is never ahead of its files: whatever uploads run beside each
other, and wherever one of them stops, what a manifest names is there. -/

namespace PgCuvs

open QuotedText

section Text

variable {m : CuvsManifest}

theorem not_mem_flatten {c : Char} {pieces : List (List Char)} (h : ∀ p ∈ pieces, c ∉ p) :
    c ∉ pieces.flatten := by
  intro hc
  obtain ⟨p, hp, hcp⟩ := List.mem_flatten.mp hc
  exact h p hp hcp

theorem nul_not_mem_u32Text (x : UInt32) : '\x00' ∉ u32Text x :=
  fun h => absurd (Numerals.isDigit_of_mem_decimal h) (by decide)

theorem nul_not_mem_i64Text (x : Int64) : '\x00' ∉ i64Text x :=
  Numerals.not_mem_signedDecimal (by decide) (by decide) _

theorem nul_not_mem_manifestText (m : CuvsManifest) : '\x00' ∉ manifestText m := by
  have hhead : ∀ p ∈ manifestHead m, '\x00' ∉ p := by
    simp only [manifestHead, List.forall_mem_cons]
    exact ⟨by decide, m.pgCuvsVersion.unterminated, by decide, m.cuvsVersion.unterminated,
      by decide, nul_not_mem_u32Text _, by decide, nul_not_mem_u32Text _, by decide,
      nul_not_mem_u32Text _, by decide, nul_not_mem_u32Text _, by decide, nul_not_mem_u32Text _,
      by decide, m.metricName.unterminated, by decide, nul_not_mem_u32Text _, by decide,
      nul_not_mem_i64Text _, by decide, nul_not_mem_i64Text _, by decide, nul_not_mem_u32Text _,
      by decide, fun _ h => absurd h List.not_mem_nil⟩
  rw [manifestText]
  split_ifs
  · apply not_mem_flatten
    rw [List.forall_mem_append]
    refine ⟨hhead, ?_⟩
    simp only [List.forall_mem_cons]
    exact ⟨by decide, m.tidsSha256.unterminated, by decide, nul_not_mem_i64Text _, by decide,
      m.shardsSha256.unterminated, by decide, nul_not_mem_i64Text _, by decide,
      fun _ h => absurd h List.not_mem_nil⟩
  · apply not_mem_flatten
    rw [List.forall_mem_append]
    refine ⟨hhead, ?_⟩
    simp only [List.forall_mem_cons]
    exact ⟨by decide, m.cagraSha256.unterminated, by decide, nul_not_mem_i64Text _, by decide,
      m.tidsSha256.unterminated, by decide, nul_not_mem_i64Text _, by decide,
      fun _ h => absurd h List.not_mem_nil⟩

theorem manifestToJson_eq_text : manifestToJson m 4096 = manifestText m :=
  List.take_of_length_le (Nat.le_pred_of_lt (manifestText_length m))

theorem takeWhile_manifestToJson :
    (manifestToJson m 4096).takeWhile (· != '\x00') = manifestToJson m 4096 := by
  rw [manifestToJson_eq_text, List.takeWhile_eq_self_iff]
  intro c hc
  rw [bne_iff_ne]
  rintro rfl
  exact nul_not_mem_manifestText m hc

/-- A manifest without fields of the other kind comes back from its text. -/
theorem manifestFromJson_own (h : m.Unquoted) (hown : m.ownKind = m) :
    manifestFromJson (manifestToJson m 4096) = some m := by
  rw [manifestToJson_eq_render]
  by_cases hkind : 2 ≤ m.shardCount
  · rw [manifestFromJson_sharded h hkind, hown]
  · rw [manifestFromJson_unsharded h hkind, hown]

end Text

structure CuvsManifest.Hashes (sha : Sha256) (m : CuvsManifest)
    (file : SnapshotFile → Option Contents) : Prop where
  tids : ∃ c, file .tids = some c ∧ m.tidsSha256 = sha.hex c
  shards : 2 ≤ m.shardCount → ∃ c, file .shards = some c ∧ m.shardsSha256 = sha.hex c
  cagra : ¬2 ≤ m.shardCount → ∃ c, file .cagra = some c ∧ m.cagraSha256 = sha.hex c

structure Upload.Formed (sha : Sha256) (u : Upload) : Prop where
  puts : ∃ files : List SnapshotFile, u.puts = files.map .artifact ++ manifestPuts u.env.now ∧
    ∀ f, f ∈ files ↔ f ∈ u.manifest.files
  unquoted : u.manifest.Unquoted
  ownKind : u.manifest.ownKind = u.manifest
  databaseOid : u.manifest.databaseOid = u.args.dbOid
  indexOid : u.manifest.indexOid = u.args.indexOid
  relfilenode : u.manifest.relfilenode = u.args.relfilenode
  buildTimestamp : u.manifest.buildTimestamp = u.env.now
  hashes : u.manifest.Hashes sha u.env.file

section Formed

variable {sha : Sha256} {target : SnapshotTarget} {stamps : BuildStamps} {args : UploadArgs}
  {env : UploadEnv} {u : Upload}

theorem Sha256.hex_unquoted (c : Contents) : '"' ∉ (sha.hex c).chars :=
  fun h => (sha.hex_chars c _ h).1 rfl

theorem CString.empty_unquoted {size : ℕ} (h : 0 < size) : '"' ∉ (CString.empty h).chars :=
  List.not_mem_nil

theorem cuvsObjstoreUpload_formed (h : cuvsObjstoreUpload sha target stamps args env = some u) :
    u.Formed sha := by
  rw [cuvsObjstoreUpload, cuvsSha256File, cuvsSha256File] at h
  obtain ⟨cagraSha, hcagra, h⟩ := Option.bind_eq_some_iff.mp h
  obtain ⟨tidsSha, htids, h⟩ := Option.bind_eq_some_iff.mp h
  obtain ⟨c, hc, rfl⟩ := Option.map_eq_some_iff.mp hcagra
  obtain ⟨t, ht, rfl⟩ := Option.map_eq_some_iff.mp htids
  obtain rfl := Option.some.inj h
  have hkind : ¬(2 : UInt32) ≤ 0 := by decide
  constructor
  case puts => exact ⟨[.cagra, .tids], rfl, fun f => Iff.rfl⟩
  case unquoted =>
    exact ⟨stamps.pgCuvs_unquoted, stamps.cuvs_unquoted, metricText_unquoted _,
      Sha256.hex_unquoted _, Sha256.hex_unquoted _, CString.empty_unquoted _⟩
  case ownKind => rfl
  case databaseOid => rfl
  case indexOid => rfl
  case relfilenode => rfl
  case buildTimestamp => rfl
  case hashes => exact ⟨⟨t, ht, rfl⟩, fun hs => absurd hs hkind, fun _ => ⟨c, hc, rfl⟩⟩

theorem cuvsObjstoreUploadSharded_formed {shardCount : UInt32} (hsharded : 2 ≤ shardCount)
    (h : cuvsObjstoreUploadSharded sha target stamps args shardCount env = some u) :
    u.Formed sha := by
  rw [cuvsObjstoreUploadSharded, cuvsSha256File, cuvsSha256File] at h
  obtain ⟨tidsSha, htids, h⟩ := Option.bind_eq_some_iff.mp h
  obtain ⟨shardsSha, hshards, h⟩ := Option.bind_eq_some_iff.mp h
  obtain ⟨t, ht, rfl⟩ := Option.map_eq_some_iff.mp htids
  obtain ⟨c, hc, rfl⟩ := Option.map_eq_some_iff.mp hshards
  obtain rfl := Option.some.inj h
  constructor
  case puts =>
    refine ⟨shardNames shardCount ++ [.tids, .shards], ?_, fun f => ?_⟩
    · rw [List.map_append]
      rfl
    · rw [CuvsManifest.files, if_pos hsharded]
      exact List.perm_append_comm.mem_iff
  case unquoted =>
    exact ⟨stamps.pgCuvs_unquoted, stamps.cuvs_unquoted, metricText_unquoted _,
      CString.empty_unquoted _, Sha256.hex_unquoted _, Sha256.hex_unquoted _⟩
  case ownKind => exact if_pos hsharded
  case databaseOid => rfl
  case indexOid => rfl
  case relfilenode => rfl
  case buildTimestamp => rfl
  case hashes => exact ⟨⟨t, ht, rfl⟩, fun _ => ⟨c, hc, rfl⟩, fun hs => absurd hsharded hs⟩

theorem startUpload_formed {cfg : SnapshotConfig}
    (h : startUpload sha cfg stamps args env = some u) : u.Formed sha := by
  rw [startUpload] at h
  split_ifs at h with huri htoken
  · obtain ⟨target, -, h⟩ := Option.bind_eq_some_iff.mp h
    cases hkind : args.kind with
    | unsharded =>
      rw [hkind] at h
      exact cuvsObjstoreUpload_formed h
    | sharded shardCount hsharded =>
      rw [hkind] at h
      exact cuvsObjstoreUploadSharded_formed hsharded h
  · obtain ⟨target, -, h⟩ := Option.bind_eq_some_iff.mp h
    cases h

theorem Upload.Formed.read (h : u.Formed sha) :
    manifestFromJson (u.json.takeWhile (· != '\x00')) = some u.manifest := by
  rw [Upload.json, takeWhile_manifestToJson]
  exact manifestFromJson_own h.unquoted h.ownKind

theorem Upload.Formed.before (h : u.Formed sha) {done rest : List Put} {slot : SnapshotSlot}
    (hputs : u.puts = done ++ .manifest slot :: rest) :
    (∀ f ∈ u.manifest.files, .artifact f ∈ done) ∧ (slot = .version u.env.now ∨ slot = .latest) := by
  obtain ⟨files, hformed, hfiles⟩ := h.puts
  rw [hformed] at hputs
  have hmem : Put.manifest slot ∉ files.map Put.artifact := by
    intro hm
    obtain ⟨f, -, hf⟩ := List.mem_map.mp hm
    cases hf
  have hslot : slot = .version u.env.now ∨ slot = .latest := by
    have hin : Put.manifest slot ∈ files.map Put.artifact ++ manifestPuts u.env.now := by
      rw [hputs]
      exact List.mem_append_right _ List.mem_cons_self
    rcases List.mem_append.mp hin with hl | hr
    · exact absurd hl hmem
    · rcases List.mem_cons.mp hr with heq | hr
      · exact Or.inl (Put.manifest.inj heq)
      · exact Or.inr (Put.manifest.inj (List.mem_singleton.mp hr))
  refine ⟨fun f hf => ?_, hslot⟩
  have hpre : files.map Put.artifact <+: done := by
    rcases List.append_eq_append_iff.mp hputs with ⟨as, hdone, -⟩ | ⟨bs, hl, hr⟩
    · exact ⟨as, hdone.symm⟩
    · cases bs with
      | nil => exact ⟨[], by rw [List.append_nil, hl, List.append_nil]⟩
      | cons b bs =>
        obtain ⟨rfl, -⟩ := List.cons.inj hr
        exact absurd (hl ▸ List.mem_append_right _ List.mem_cons_self) hmem
  exact hpre.subset (List.mem_map.mpr ⟨f, (hfiles f).mpr hf, rfl⟩)

theorem Upload.Formed.latest_last (h : u.Formed sha) {done rest : List Put}
    (hputs : u.puts = done ++ .manifest .latest :: rest) : rest = [] := by
  obtain ⟨files, hformed, -⟩ := h.puts
  by_contra hne
  have hearly : Put.manifest .latest ∈ u.puts.dropLast := by
    rw [hputs, List.dropLast_append_of_ne_nil (List.cons_ne_nil _ _),
      List.dropLast_cons_of_ne_nil hne]
    exact List.mem_append_right _ List.mem_cons_self
  have hdrop : u.puts.dropLast = files.map .artifact ++ [.manifest (.version u.env.now)] := by
    rw [hformed, manifestPuts, List.dropLast_append_of_ne_nil (List.cons_ne_nil _ _)]
    rfl
  rw [hdrop, List.mem_append, List.mem_singleton, List.mem_map] at hearly
  rcases hearly with ⟨f, -, hf⟩ | hslot
  · cases hf
  · cases hslot

theorem manifest_not_mem_files (m : CuvsManifest) : SnapshotFile.manifest ∉ m.files := by
  rw [CuvsManifest.files]
  split_ifs
  · rw [List.mem_cons, List.mem_cons, shardNames, List.mem_map]
    rintro (h | h | ⟨s, -, h⟩) <;> cases h
  · decide

theorem Upload.Formed.artifact_ne (h : u.Formed sha) {f : SnapshotFile}
    (hf : .artifact f ∈ u.puts) : f ≠ .manifest := by
  rintro rfl
  obtain ⟨files, hformed, hfiles⟩ := h.puts
  rw [hformed, List.mem_append, List.mem_map] at hf
  rcases hf with ⟨g, hg, hgf⟩ | hlast
  · obtain rfl := Put.artifact.inj hgf
    exact manifest_not_mem_files _ ((hfiles _).mp hg)
  · rw [manifestPuts, List.mem_cons, List.mem_singleton] at hlast
    rcases hlast with hl | hl <;> cases hl

end Formed

/-! The store under all uploads. -/

namespace ObjectStore

def Has (s : ObjectStore) (name : ObjectName) : Prop := ∃ c, s.objects name = some c

structure Filed (u : Upload) (t : SnapshotTarget) (db index : UInt32) (slot : SnapshotSlot)
    (c : Contents) : Prop where
  bucket : u.target.bucket = t.bucket
  base : u.target.base = t.base
  dbOid : u.args.dbOid = db
  indexOid : u.args.indexOid = index
  slot : slot = .version u.env.now ∨ slot = .latest
  json : c = u.json

/-- The manifests there are come from uploads of their index, and their files are there. -/
structure Settled (sha : Sha256) (s : ObjectStore) : Prop where
  formed : ∀ u ∈ s.uploads, u.Formed sha
  progress : ∀ i u p rest, s.uploads[i]? = some u → s.todo i = p :: rest →
    ∃ done, u.puts = done ++ p :: rest ∧ ∀ q ∈ done, s.Has (u.putObject q)
  manifests : ∀ (t : SnapshotTarget) db index slot c,
    s.objects (t.object db index slot .manifest) = some c →
      ∃ u ∈ s.uploads, Filed u t db index slot c ∧
        ∀ f ∈ u.manifest.files, s.Has (u.putObject (.artifact f))

section Step

variable {sha : Sha256} {s : ObjectStore} {u : Upload} {thread : ℕ} {p : Put} {rest : List Put}
  {read : Option Contents} {result : PutResult}

@[simp] theorem store_self (s : ObjectStore) (name : ObjectName) (c : Contents) :
    (s.store name c).objects name = some c := Function.update_self _ _ _

theorem store_of_ne (s : ObjectStore) {name name' : ObjectName} (h : name ≠ name')
    (c : Contents) : (s.store name' c).objects name = s.objects name :=
  Function.update_of_ne h _ _

theorem Has.store {name : ObjectName} (h : s.Has name) (name' : ObjectName) (c : Contents) :
    (s.store name' c).Has name := by
  by_cases heq : name = name'
  · subst heq
    exact ⟨c, store_self s name c⟩
  · obtain ⟨d, hd⟩ := h
    exact ⟨d, (store_of_ne s heq c).trans hd⟩

/-- What one request leaves: the store may have the object, and the thread may have gone on. -/
structure PutSpec (s : ObjectStore) (u : Upload) (thread : ℕ) (p : Put) (rest : List Put)
    (read : Option Contents) (s' : ObjectStore) : Prop where
  uploads : s'.uploads = s.uploads
  objects : s'.objects = s.objects ∨
    ∃ c, payload u read p = some c ∧ s'.objects = (s.store (u.putObject p) c).objects
  others : ∀ i, i ≠ thread → s'.todo i = s.todo i
  todo : s'.todo thread = [] ∨ s'.todo thread = rest ∧ (s'.Has (u.putObject p) ∨ p = .manifest .latest)

theorem put_spec (s : ObjectStore) (u : Upload) (thread : ℕ) (p : Put) (rest : List Put)
    (read : Option Contents) (result : PutResult) :
    PutSpec s u thread p rest read (s.put u thread p rest read result) := by
  have habort : ∀ s' : ObjectStore, s'.uploads = s.uploads → s'.todo = s.todo →
      (s'.objects = s.objects ∨ ∃ c, payload u read p = some c ∧
        s'.objects = (s.store (u.putObject p) c).objects) →
      PutSpec s u thread p rest read (s'.abort thread) := by
    intro s' hu ht ho
    refine ⟨hu, ho, fun i hi => ?_, Or.inl (Function.update_self _ _ _)⟩
    exact (Function.update_of_ne hi _ _).trans (congrFun ht i)
  rw [put]
  cases hpay : payload u read p with
  | none => exact habort s rfl rfl (Or.inl rfl)
  | some c =>
    have hobj : (if result = .failed then s else s.store (u.putObject p) c).objects = s.objects ∨
        ∃ d, payload u read p = some d ∧
          (if result = .failed then s else s.store (u.putObject p) c).objects =
            (s.store (u.putObject p) d).objects := by
      split_ifs
      · exact Or.inl rfl
      · exact Or.inr ⟨c, hpay, rfl⟩
    dsimp only
    split_ifs with hgo hfail hfail
    · rw [if_pos hfail] at hobj
      refine ⟨rfl, hobj, fun i hi => Function.update_of_ne hi _ _, Or.inr ?_⟩
      refine ⟨Function.update_self _ _ _, Or.inr ?_⟩
      rcases hgo with hstored | hlatest
      · rw [hfail] at hstored
        cases hstored
      · exact hlatest
    · rw [if_neg hfail] at hobj
      refine ⟨rfl, hobj, fun i hi => Function.update_of_ne hi _ _, Or.inr ?_⟩
      exact ⟨Function.update_self _ _ _, Or.inl ⟨c, Function.update_self _ _ _⟩⟩
    · exact habort s rfl rfl (Or.inl rfl)
    · rw [if_neg hfail] at hobj
      exact habort _ rfl rfl hobj

theorem PutSpec.has {s' : ObjectStore} (h : PutSpec s u thread p rest read s')
    {name : ObjectName} (hn : s.Has name) : s'.Has name := by
  rcases h.objects with heq | ⟨c, -, heq⟩
  · rw [Has, heq]
    exact hn
  · rw [Has, heq]
    exact hn.store _ _

/-- A step starts an upload, or it is one request of a thread, or it changes nothing. -/
theorem step_cases (sha : Sha256) (s : ObjectStore) (ev : UploadEvent) :
    s.step sha ev = s ∨
    (∃ cfg stamps args env u, ev = .start cfg stamps args env ∧
      startUpload sha cfg stamps args env = some u ∧ s.step sha ev = { s with
        uploads := s.uploads ++ [u]
        todo := Function.update s.todo s.uploads.length u.puts }) ∨
    ∃ thread read result u p rest, ev = .put thread read result ∧ s.uploads[thread]? = some u ∧
      s.todo thread = p :: rest ∧ PutSpec s u thread p rest read (s.step sha ev) := by
  cases ev with
  | start cfg stamps args env =>
    rw [step]
    cases hu : startUpload sha cfg stamps args env with
    | none => exact Or.inl rfl
    | some u => exact Or.inr (Or.inl ⟨cfg, stamps, args, env, u, rfl, hu, rfl⟩)
  | put thread read result =>
    rw [step]
    cases hu : s.uploads[thread]? with
    | none => exact Or.inl rfl
    | some u =>
      cases htodo : s.todo thread with
      | nil => exact Or.inl rfl
      | cons p rest =>
        refine Or.inr (Or.inr ⟨thread, read, result, u, p, rest, rfl, hu, htodo, ?_⟩)
        exact put_spec s u thread p rest read result

theorem Settled.start (h : Settled sha s) (hu : u.Formed sha) :
    Settled sha { s with
      uploads := s.uploads ++ [u]
      todo := Function.update s.todo s.uploads.length u.puts } := by
  constructor
  case formed =>
    intro v hv
    rcases List.mem_append.mp hv with hold | hnew
    · exact h.formed v hold
    · rw [List.mem_singleton.mp hnew]
      exact hu
  case progress =>
    intro i v p rest hv htodo
    by_cases hi : i = s.uploads.length
    · subst hi
      rw [List.getElem?_concat_length] at hv
      obtain rfl := Option.some.inj hv
      have hputs : u.puts = p :: rest := by
        rw [← htodo]
        exact (Function.update_self s.uploads.length u.puts s.todo).symm
      exact ⟨[], hputs, fun q hq => absurd hq List.not_mem_nil⟩
    · have hlt : i < s.uploads.length := by
        have hlen := (List.getElem?_eq_some_iff.mp hv).1
        rw [List.length_append, List.length_singleton] at hlen
        omega
      rw [List.getElem?_append_left hlt] at hv
      exact h.progress i v p rest hv ((Function.update_of_ne hi _ _).symm.trans htodo)
  case manifests =>
    intro t db index slot c hc
    obtain ⟨v, hv, hrest⟩ := h.manifests t db index slot c hc
    exact ⟨v, List.mem_append_left _ hv, hrest⟩

theorem Settled.put {s' : ObjectStore} (h : Settled sha s) (hu : s.uploads[thread]? = some u)
    (htodo : s.todo thread = p :: rest) (hs : PutSpec s u thread p rest read s') :
    Settled sha s' := by
  have hmem : u ∈ s.uploads := List.mem_of_getElem? hu
  obtain ⟨done, hputs, hdone⟩ := h.progress thread u p rest hu htodo
  constructor
  case formed => rw [hs.uploads]; exact h.formed
  case progress =>
    intro i v q todo hv hq
    rw [hs.uploads] at hv
    by_cases hi : i = thread
    · subst hi
      obtain rfl := Option.some.inj (hu.symm.trans hv)
      rcases hs.todo with hnil | ⟨hrest, hlast⟩
      · rw [hnil] at hq
        cases hq
      · rw [hrest] at hq
        refine ⟨done ++ [p], by rw [hputs, hq, List.append_assoc]; rfl, ?_⟩
        rw [List.forall_mem_append, List.forall_mem_singleton]
        refine ⟨fun r hr => hs.has (hdone r hr), ?_⟩
        rcases hlast with hhas | hlatest
        · exact hhas
        · rw [hlatest] at hputs
          rw [(h.formed u hmem).latest_last hputs] at hq
          cases hq
    · rw [hs.others i hi] at hq
      obtain ⟨done', hputs', hdone'⟩ := h.progress i v q todo hv hq
      exact ⟨done', hputs', fun r hr => hs.has (hdone' r hr)⟩
  case manifests =>
    intro t db index slot c hc
    rw [hs.uploads]
    have hold : ∀ v ∈ s.uploads, Filed v t db index slot c ∧
        (∀ f ∈ v.manifest.files, s.Has (v.putObject (.artifact f))) →
        ∃ v ∈ s.uploads, Filed v t db index slot c ∧
          ∀ f ∈ v.manifest.files, s'.Has (v.putObject (.artifact f)) :=
      fun v hv hfiled => ⟨v, hv, hfiled.1, fun f hf => hs.has (hfiled.2 f hf)⟩
    rcases hs.objects with heq | ⟨d, hpay, heq⟩
    · rw [heq] at hc
      obtain ⟨v, hv, hfiled⟩ := h.manifests t db index slot c hc
      exact hold v hv hfiled
    · rw [heq] at hc
      by_cases hname : t.object db index slot .manifest = u.putObject p
      · have hd : some d = some c := by rw [← hc, hname, store_self]
        obtain rfl := Option.some.inj hd
        -- only a manifest is stored under a manifest name, and by then all its files are there
        cases p with
        | artifact f =>
          have hname : t.object db index slot .manifest =
            u.target.object u.args.dbOid u.args.indexOid (.version u.env.now) f := hname
          obtain ⟨-, -, -, -, hf⟩ := SnapshotTarget.object_inj.mp hname
          have hin : .artifact f ∈ u.puts := hputs ▸ List.mem_append_right _ List.mem_cons_self
          exact absurd hf.symm ((h.formed u hmem).artifact_ne hin)
        | manifest slot' =>
          have hname : t.object db index slot .manifest =
            u.target.object u.args.dbOid u.args.indexOid slot' .manifest := hname
          obtain ⟨⟨hbucket, hbase⟩, hdb, hindex, hslot, -⟩ := SnapshotTarget.object_inj.mp hname
          obtain ⟨hbefore, hwhere⟩ := (h.formed u hmem).before hputs
          refine ⟨u, hmem, ⟨hbucket.symm, hbase.symm, hdb.symm, hindex.symm, hslot ▸ hwhere,
            (Option.some.inj hpay).symm⟩, ?_⟩
          exact fun f hf => hs.has (hdone _ (hbefore f hf))
      · rw [store_of_ne s hname] at hc
        obtain ⟨v, hv, hfiled⟩ := h.manifests t db index slot c hc
        exact hold v hv hfiled

theorem Settled.step (h : Settled sha s) (ev : UploadEvent) : Settled sha (s.step sha ev) := by
  rcases step_cases sha s ev with heq | ⟨cfg, stamps, args, env, u, -, hu, heq⟩ |
    ⟨thread, read, result, u, p, rest, -, hu, htodo, hs⟩
  · rw [heq]
    exact h
  · rw [heq]
    exact h.start (startUpload_formed hu)
  · exact h.put hu htodo hs

theorem Has.step {name : ObjectName} (h : s.Has name) (ev : UploadEvent) :
    (s.step sha ev).Has name := by
  rcases step_cases sha s ev with heq | ⟨cfg, stamps, args, env, u, -, -, heq⟩ |
    ⟨thread, read, result, u, p, rest, -, -, -, hs⟩
  · rw [heq]
    exact h
  · rw [heq]
    exact h
  · exact hs.has h

theorem settled_empty : Settled sha .empty where
  formed _ hu := absurd hu List.not_mem_nil
  progress _ _ p rest _ htodo := absurd htodo.symm (List.cons_ne_nil p rest)
  manifests _ _ _ _ c hc := absurd hc.symm (Option.some_ne_none c)

theorem settled_run (sha : Sha256) (evs : List UploadEvent) :
    Settled sha (Run.run (ObjectStore.step sha) .empty evs) :=
  Run.run_invariant (Settled sha) (fun _ ev hs _ => hs.step ev) settled_empty
    (Run.along_of_forall (P := fun _ => True) (fun _ _ => trivial) _)

end Step

/-- A manifest that a reader of the store can come upon, of a build or behind the alias, is
whole: it parses, it is about the index it is filed under, and every file it names is there. -/
def ManifestLast (s : ObjectStore) : Prop :=
  ∀ (t : SnapshotTarget) (db index : UInt32) (slot : SnapshotSlot) (c : Contents),
    s.objects (t.object db index slot .manifest) = some c →
      ∃ m, manifestFromJson (c.takeWhile (· != '\x00')) = some m ∧ m.databaseOid = db ∧
        m.indexOid = index ∧ (∀ ts, slot = .version ts → m.buildTimestamp = ts) ∧
        ∀ f ∈ m.files, ∃ file,
          s.objects (t.object db index (.version m.buildTimestamp) f) = some file

/-- No interleaving of uploads, whichever of them stop or fail, and no lost reply, leaves a
manifest in the store without the files it names. -/
theorem run_manifestLast (sha : Sha256) (evs : List UploadEvent) :
    (Run.run (ObjectStore.step sha) .empty evs).ManifestLast := by
  intro t db index slot c hc
  have hinv := settled_run sha evs
  obtain ⟨u, hu, hfiled, hall⟩ := hinv.manifests t db index slot c hc
  have hform := hinv.formed u hu
  have hread := hform.read
  rw [← hfiled.json] at hread
  refine ⟨u.manifest, hread, hform.databaseOid.trans hfiled.dbOid,
    hform.indexOid.trans hfiled.indexOid, ?_, ?_⟩
  · rintro ts rfl
    rcases hfiled.slot with hts | hlatest
    · rw [hform.buildTimestamp, SnapshotSlot.version.inj hts]
    · cases hlatest
  · intro f hf
    have hname : t.object db index (.version u.manifest.buildTimestamp) f =
        u.putObject (.artifact f) :=
      SnapshotTarget.object_inj.mpr ⟨⟨hfiled.bucket.symm, hfiled.base.symm⟩, hfiled.dbOid.symm,
        hfiled.indexOid.symm, congrArg SnapshotSlot.version hform.buildTimestamp, rfl⟩
    rw [hname]
    exact hall f hf

end ObjectStore

end PgCuvs
