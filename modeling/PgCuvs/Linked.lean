import PgCuvs.RegistryKeys
import PgCuvs.Invariants

/-! Invariants that tie an entry to the files the daemon has of its index. With one entry
for each index, a change to the files of one index concerns one entry. -/

namespace PgCuvs

/-- `G` of every entry and its files in the daemon's directory, `F` of the files of every
index. -/
structure Linked (cfg : Config) (G : IndexEntry → Artifacts → Prop)
    (F : Dir → Key → Artifacts → Prop) (r : Resident) : Prop where
  unique : UniqueKeys r.1
  entries : ∀ e ∈ r.1.live, G e (r.2 cfg.indexDir e.key)
  files : ∀ dir key, F dir key (r.2 dir key)

variable {cfg : Config} {G : IndexEntry → Artifacts → Prop} {F : Dir → Key → Artifacts → Prop}
  {r r' : Resident} {reg : Registry} {disk : Disk} {x : Effect} {i : ℕ} {e e' : IndexEntry}
  {key : Key} {f : Dir → Artifacts → Artifacts} {L : Prop}

section Rules

variable (cfg G F)

/-- Saving an entry before it is evicted keeps the files in order, and the entry too when it
has to stay. -/
structure SaveKeeps : Prop where
  saved : ∀ (e : IndexEntry) (g : Cagra) (a : Artifacts), G e a → F cfg.indexDir e.key a →
    needsSave e → e.handle = some g →
    F cfg.indexDir e.key (runFileOps (saveEntryOps none e g).1 a)
  failed : ∀ (fault : SaveFault) (e : IndexEntry) (g : Cagra) (a : Artifacts), G e a →
    F cfg.indexDir e.key a → needsSave e → e.handle = some g →
    F cfg.indexDir e.key (runFileOps (saveEntryOps (some fault) e g).1 a) ∧
      G e (runFileOps (saveEntryOps (some fault) e g).1 a)

def StoreKeeps : Prop :=
  ∀ (e e' : IndexEntry) (a : Artifacts), F cfg.indexDir e.key a → EntryMove True a e e' → G e a → G e' a

end Rules

theorem mem_live_set_ne (h : e ∈ (reg.set i e').live) :
    (∃ j, j ≠ i ∧ reg.live[j]? = some e) ∨ e = e' := by
  obtain ⟨j, hj⟩ := List.getElem?_of_mem h
  rw [Registry.set_live, List.getElem?_set] at hj
  split_ifs at hj with hij hlt
  · exact .inr (Option.some.inj hj).symm
  · exact .inl ⟨j, fun h => hij h.symm, hj⟩

theorem UniqueKeys.key_ne {j : ℕ} (h : UniqueKeys reg) (hi : reg.live[i]? = some e)
    (hj : reg.live[j]? = some e') (hij : j ≠ i) : e'.key ≠ e.key := by
  intro heq
  have hkj : (reg.live.map IndexEntry.key)[j]? = some e'.key := by simp [hj]
  have hki : (reg.live.map IndexEntry.key)[i]? = some e.key := by simp [hi]
  rw [heq] at hkj
  have hlt := (List.getElem?_eq_some_iff.mp hkj).1
  exact hij ((List.getElem?_inj hlt h).mp (hkj.trans hki.symm))

theorem Linked.set (h : Linked cfg G F (reg, disk)) (hi : reg.live[i]? = some e)
    (hkey : e'.key = e.key) (he : G e' (disk cfg.indexDir e.key)) :
    Linked cfg G F (reg.set i e', disk) := by
  refine ⟨h.unique.set hi hkey, ?_, h.files⟩
  intro x hx
  rcases mem_live_set hx with hold | rfl
  · exact h.entries x hold
  · rwa [hkey]

theorem Linked.removeIdx (h : Linked cfg G F (reg, disk)) : Linked cfg G F (reg.removeIdx i e, disk) :=
  ⟨h.unique.removeIdx i e, fun x hx => h.entries x (mem_live_removeIdx hx), h.files⟩

theorem Linked.append {init : IndexEntry → IndexEntry} (h : Linked cfg G F (reg, disk))
    (hmissing : ∀ e ∈ reg.live, e.key ≠ key)
    (hkey : (init (reg.tail.headD IndexEntry.zero)).key = key)
    (hinit : G (init (reg.tail.headD IndexEntry.zero)) (disk cfg.indexDir key)) :
    Linked cfg G F (reg.append init, disk) := by
  refine ⟨?_, ?_, h.files⟩
  · rw [UniqueKeys, Registry.append_live, List.map_append, List.map_singleton, hkey]
    refine List.Nodup.append h.unique (List.nodup_singleton _) ?_
    intro k hk hc
    obtain ⟨e, he, rfl⟩ := List.mem_map.mp hk
    exact hmissing e he (List.mem_singleton.mp hc)
  · intro x hx
    rcases mem_live_append hx with hold | rfl
    · exact h.entries x hold
    · rwa [hkey]

theorem Linked.modifyKey (h : Linked cfg G F (reg, disk))
    (hF : ∀ dir, F dir key (f dir (disk dir key)))
    (hG : ∀ e ∈ reg.live, e.key = key → G e (f cfg.indexDir (disk cfg.indexDir key))) :
    Linked cfg G F (reg, disk.modifyKey key f) := by
  refine ⟨h.unique, ?_, ?_⟩
  · intro e he
    change G e (disk.modifyKey key f cfg.indexDir e.key)
    by_cases hk : e.key = key
    · rw [hk, Disk.modifyKey_same]
      exact hG e he hk
    · rw [Disk.modifyKey_of_ne _ _ _ hk]
      exact h.entries e he
  · intro dir key'
    change F dir key' (disk.modifyKey key f dir key')
    by_cases hk : key' = key
    · subst hk
      rw [Disk.modifyKey_same]
      exact hF dir
    · rw [Disk.modifyKey_of_ne _ _ _ hk]
      exact h.files dir key'

theorem Linked.write (h : Linked cfg G F (reg, disk)) (hi : reg.live[i]? = some e)
    (hek : e.key = key) (hkey : e'.key = key) (hF : ∀ dir, F dir key (f dir (disk dir key)))
    (hG : G e' (f cfg.indexDir (disk cfg.indexDir key))) :
    Linked cfg G F (reg.set i e', disk.modifyKey key f) := by
  subst hek
  have hfiles : ∀ dir key', F dir key' (disk.modifyKey e.key f dir key') := by
    intro dir key'
    by_cases hk : key' = e.key
    · subst hk
      rw [Disk.modifyKey_same]
      exact hF dir
    · rw [Disk.modifyKey_of_ne _ _ _ hk]
      exact h.files dir key'
  refine ⟨h.unique.set hi hkey, ?_, hfiles⟩
  intro x hx
  change G x (disk.modifyKey e.key f cfg.indexDir x.key)
  rcases mem_live_set_ne hx with ⟨j, hij, hj⟩ | rfl
  · rw [Disk.modifyKey_of_ne _ _ _ (h.unique.key_ne hi hj hij)]
    exact h.entries x (List.mem_of_getElem? hj)
  · rw [hkey, Disk.modifyKey_same]
    exact hG

theorem Linked.remove {freed : IndexEntry} (h : Linked cfg G F (reg, disk))
    (hi : reg.live[i]? = some e) (hek : e.key = key)
    (hF : ∀ dir, F dir key (f dir (disk dir key))) :
    Linked cfg G F (reg.removeIdx i freed, disk.modifyKey key f) := by
  subst hek
  refine Linked.modifyKey h.removeIdx hF ?_
  intro x hx hxk
  obtain ⟨j, hij, hj⟩ := List.mem_eraseIdx_iff_getElem?.mp hx
  exact absurd hxk (h.unique.key_ne hi hj hij)

theorem Evictions.linked (hsave : SaveKeeps cfg G F) (hsteps : Evictions cfg r r')
    (h : Linked cfg G F r) : Linked cfg G F r' := by
  induction hsteps with
  | refl => exact h
  | tail _ hstep ih =>
    cases hstep with
    | drop hi hdev hneeds => exact ih.removeIdx
    | @saved reg disk i device e g hi hdev hneeds hg =>
      have he := List.mem_of_getElem? hi
      rw [Disk.modify_eq]
      refine Linked.remove ih hi rfl fun dir => ?_
      by_cases hdir : dir = cfg.indexDir
      · subst hdir
        rw [onDir_same]
        exact hsave.saved e g _ (ih.entries e he) (ih.files _ _) hneeds hg
      · rw [onDir_of_ne _ _ hdir]
        exact ih.files _ _
    | @failed reg disk i e g fault hi hneeds hg =>
      have he := List.mem_of_getElem? hi
      obtain ⟨hF, hG⟩ := hsave.failed fault e g _ (ih.entries e he) (ih.files _ _) hneeds hg
      rw [Disk.modify_eq]
      refine Linked.modifyKey ih (fun dir => ?_) ?_
      · by_cases hdir : dir = cfg.indexDir
        · subst hdir
          rw [onDir_same]
          exact hF
        · rw [onDir_of_ne _ _ hdir]
          exact ih.files _ _
      · intro x hx hxk
        obtain ⟨j, hj⟩ := List.getElem?_of_mem hx
        -- keys are unique: the entry of the key is the one whose save failed
        have hij : j = i := by
          by_contra hij
          exact ih.unique.key_ne hi hj hij hxk
        subst hij
        cases hi.symm.trans hj
        rw [onDir_same]
        exact hG

theorem Stores.linked (hstore : StoreKeeps cfg G F) (hsteps : Stores L cfg r r')
    (h : Linked cfg G F r) : Linked cfg G F r' := by
  induction hsteps with
  | refl => exact h
  | tail _ hstep ih =>
    obtain ⟨hi, hmove⟩ := hstep
    have he := List.mem_of_getElem? hi
    exact Linked.set ih hi hmove.key (hstore _ _ _ (ih.files _ _) (hmove.mono fun _ => trivial)
      (ih.entries _ he))

theorem Resolved.linked {env : Env} {d : Daemon} (hsave : SaveKeeps cfg G F)
    (hresolved : Resolved cfg env key d r) (h : Linked cfg G F d.resident)
    (hload : NotResident key d → ∀ (d1 : Daemon) thdr tids init,
      (loadIndex cfg env d key).1 = { d1 with registry := d1.registry.append init } →
      TidsAccepted (d.disk cfg.indexDir key) thdr tids →
      LoadPlan env (d.disk cfg.indexDir key) key thdr tids init →
      G (init (d1.registry.tail.headD IndexEntry.zero)) (d.disk cfg.indexDir key)) :
    Linked cfg G F r := by
  cases hresolved with
  | found hr => rwa [hr]
  | loaded hkey hr =>
    rw [hr]
    obtain ⟨d1, hevict, ⟨-, heq⟩ | ⟨-, thdr, tids, init, htids, hplan, heq⟩⟩ :=
      loadIndex_spec cfg env hkey
    · rw [heq]
      exact hevict.linked hsave h
    · have hG := hload hkey d1 thdr tids init heq htids hplan
      have hdisk : d1.disk cfg.indexDir key = d.disk cfg.indexDir key := hevict.disk cfg hkey _
      obtain ⟨c, -, hck, rfl⟩ := hplan.slotInit htids
      rw [heq]
      refine Linked.append (hevict.linked hsave h) (hevict.notResident cfg hkey) ?_ ?_
      · exact (c.apply_key _).trans hck
      · rw [hdisk]
        exact hG

theorem Effect.final_resident (x : Effect) :
    x.final.resident = (x.daemon.registry.act x.action, x.daemon.disk) := rfl

/-- What a commit has to keep. -/
theorem Committed.linked {s : Server} {given : Given} (hcommit : Committed cfg s given r x)
    (h : Linked cfg G F r) (hsave : SaveKeeps cfg G F)
    (hfiles : ∀ {found key f o}, Change cfg s given found key f x.reply.status o →
      (∀ e ∈ found, e ∈ r.1.live ∧ e.key = key) → ∀ dir, F dir key (f dir (r.2 dir key)))
    (hkeep : ∀ {key f}, Change cfg s given none key f x.reply.status .keep →
      ∀ e ∈ r.1.live, e.key = key → G e (f cfg.indexDir (r.2 cfg.indexDir key)))
    (hwrite : ∀ {e key f w i}, Change cfg s given (some e) key f x.reply.status (.write w) →
      e ∈ r.1.live → e.key = key → x.action = .replace i w →
      G (w.apply e) (f cfg.indexDir (r.2 cfg.indexDir key)))
    (hcreate : ∀ {key f c}, Change cfg s given none key f x.reply.status (.create c) →
      ∀ slot, G (c.apply slot) (f cfg.indexDir (r.2 cfg.indexDir key))) :
    Linked cfg G F x.final.resident := by
  have hnone : ∀ {key : Key}, ∀ e ∈ (none : Option IndexEntry), e ∈ r.1.live ∧ e.key = key :=
    fun _ he => (nomatch he)
  rw [Effect.final_resident]
  cases hcommit with
  | restart hx hact =>
    obtain ⟨hreg, hdisk⟩ := Prod.mk.inj hx
    rw [hact, hreg, hdisk]
    exact ⟨List.nodup_nil, fun e he => (nomatch he), h.files⟩
  | keep hchange hx hact =>
    obtain ⟨hreg, hdisk⟩ := Prod.mk.inj hx
    rw [hact, hreg, hdisk]
    exact Linked.modifyKey h (hfiles hchange hnone) (hkeep hchange)
  | absent hchange hmissing hx hact =>
    obtain ⟨hreg, hdisk⟩ := Prod.mk.inj hx
    rw [hact, hreg, hdisk]
    exact Linked.modifyKey h (hfiles hchange hnone) fun e he hk => absurd hk (hmissing e he)
  | @write i e key f w hchange hfind hi hkey hx hact =>
    obtain ⟨hreg, hdisk⟩ := Prod.mk.inj hx
    have he := List.mem_of_getElem? hi
    have hfound : ∀ e' ∈ some e, e' ∈ r.1.live ∧ e'.key = key := by
      rintro e' ⟨⟩
      exact ⟨he, hkey⟩
    rw [hact, hreg, hdisk]
    simp only [Registry.act, hi]
    exact Linked.write h hi hkey ((EntryWrite.apply_key (hchange.write_fits hkey)).trans hkey)
      (hfiles hchange hfound) (hwrite hchange he hkey hact)
  | @create key f c hchange hmissing hevict hact =>
    have hdone : Linked cfg G F (r.1, r.2.modifyKey key f) :=
      Linked.modifyKey h (hfiles hchange hnone) fun e he hk => absurd hk (hmissing e he)
    obtain ⟨hstill, hsame⟩ := hevict.frame hmissing
    obtain ⟨-, hck⟩ := hchange.create_fits
    rw [hact]
    refine Linked.append (hevict.linked hsave hdone) hstill ((c.apply_key _).trans hck) ?_
    -- the evictions before a new slot leave the files of its key alone
    have hfile : x.daemon.disk cfg.indexDir key = f cfg.indexDir (r.2 cfg.indexDir key) :=
      (hsame cfg.indexDir).trans (Disk.modifyKey_same ..)
    rw [hfile]
    exact hcreate hchange _
  | full hchange hmissing hevict hact =>
    rw [hact]
    refine hevict.linked hsave ?_
    exact Linked.modifyKey h (hfiles hchange hnone) fun e he hk => absurd hk (hmissing e he)
  | @remove i e key f hchange hfind hi hkey hx hact =>
    obtain ⟨hreg, hdisk⟩ := Prod.mk.inj hx
    have hfound : ∀ e' ∈ some e, e' ∈ r.1.live ∧ e'.key = key := by
      rintro e' ⟨⟩
      exact ⟨List.mem_of_getElem? hi, hkey⟩
    rw [hact, hreg, hdisk]
    simp only [Registry.act, hi]
    exact Linked.remove h hi hkey (hfiles hchange hfound)

end PgCuvs
