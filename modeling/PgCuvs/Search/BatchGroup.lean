import Mathlib.Data.List.Dedup
import PgCuvs.Search.Frame

/-! `cuvs_batch_group`: which of the queued requests share a dispatch. -/

namespace PgCuvs

/-- The test of the inner loop: CAGRA tuning counts for CAGRA requests only. -/
def BatchKey.SameKernel (a b : BatchKey) : Prop :=
  a.key = b.key ∧ a.precision = b.precision ∧ a.dim = b.dim ∧ a.mode = b.mode ∧
    (b.mode ≠ 0 ∨ (a.itopkSize = b.itopkSize ∧ a.searchWidth = b.searchWidth))

instance (a b : BatchKey) : Decidable (a.SameKernel b) :=
  inferInstanceAs (Decidable (_ ∧ _ ∧ _ ∧ _ ∧ (_ ∨ (_ ∧ _))))

theorem BatchKey.SameKernel.refl (a : BatchKey) : a.SameKernel a :=
  ⟨rfl, rfl, rfl, rfl, .inr ⟨rfl, rfl⟩⟩

theorem BatchKey.SameKernel.symm {a b : BatchKey} (h : a.SameKernel b) : b.SameKernel a := by
  obtain ⟨hkey, hprec, hdim, hmode, htuning⟩ := h
  refine ⟨hkey.symm, hprec.symm, hdim.symm, hmode.symm, ?_⟩
  rcases htuning with hbf | ⟨hitopk, hwidth⟩
  · exact .inl (hmode ▸ hbf)
  · exact .inr ⟨hitopk.symm, hwidth.symm⟩

theorem BatchKey.SameKernel.trans {a b c : BatchKey} (hab : a.SameKernel b)
    (hbc : b.SameKernel c) : a.SameKernel c := by
  obtain ⟨hkey, hprec, hdim, hmode, htuning⟩ := hab
  obtain ⟨hkey', hprec', hdim', hmode', htuning'⟩ := hbc
  refine ⟨hkey.trans hkey', hprec.trans hprec', hdim.trans hdim', hmode.trans hmode', ?_⟩
  rcases htuning' with hbf | ⟨hitopk', hwidth'⟩
  · exact .inl hbf
  · rcases htuning with hbf | ⟨hitopk, hwidth⟩
    · exact .inl (hmode' ▸ hbf)
    · exact .inr ⟨hitopk.trans hitopk', hwidth.trans hwidth'⟩

/-- Keys from the current one on, the earlier keys with their groups, and the groups so far. -/
def batchGroupLoop : List BatchKey → List (BatchKey × ℕ) → ℕ → List (BatchKey × ℕ) × ℕ
  | [], earlier, ng => (earlier, ng)
  | key :: rest, earlier, ng =>
    match earlier.find? fun p => p.1.SameKernel key with
    | some p => batchGroupLoop rest (earlier ++ [(key, p.2)]) ng
    | none => batchGroupLoop rest (earlier ++ [(key, ng)]) (ng + 1)

def cuvsBatchGroup (keys : List BatchKey) : List ℕ × ℕ :=
  ((batchGroupLoop keys [] 0).1.map Prod.snd, (batchGroupLoop keys [] 0).2)

/-- The groups given so far are the classes of the kernel key. -/
structure Grouped (earlier : List (BatchKey × ℕ)) (ng : ℕ) : Prop where
  below : ∀ p ∈ earlier, p.2 < ng
  used : ∀ g < ng, ∃ p ∈ earlier, p.2 = g
  classes : ∀ p ∈ earlier, ∀ q ∈ earlier, p.2 = q.2 ↔ p.1.SameKernel q.1
  count : ng ≤ earlier.length

theorem Grouped.join {earlier : List (BatchKey × ℕ)} {ng : ℕ} (h : Grouped earlier ng)
    {p : BatchKey × ℕ} (hp : p ∈ earlier) {key : BatchKey} (hsame : p.1.SameKernel key) :
    Grouped (earlier ++ [(key, p.2)]) ng := by
  have hclass : ∀ q ∈ earlier, q.2 = p.2 ↔ q.1.SameKernel key := fun q hq =>
    (h.classes q hq p hp).trans ⟨fun hqp => hqp.trans hsame, fun hqk => hqk.trans hsame.symm⟩
  constructor
  case below =>
    intro q hq
    rcases List.mem_append.mp hq with hq | hq
    · exact h.below q hq
    · rw [List.mem_singleton.mp hq]
      exact h.below p hp
  case used =>
    intro g hg
    obtain ⟨q, hq, hgid⟩ := h.used g hg
    exact ⟨q, List.mem_append_left _ hq, hgid⟩
  case classes =>
    intro q hq r hr
    rcases List.mem_append.mp hq with hq | hq <;> rcases List.mem_append.mp hr with hr | hr
    · exact h.classes q hq r hr
    · rw [List.mem_singleton.mp hr]
      exact hclass q hq
    · rw [List.mem_singleton.mp hq]
      exact eq_comm.trans ((hclass r hr).trans ⟨fun hrk => hrk.symm, fun hkr => hkr.symm⟩)
    · rw [List.mem_singleton.mp hq, List.mem_singleton.mp hr]
      exact iff_of_true rfl (BatchKey.SameKernel.refl key)
  case count =>
    rw [List.length_append]
    exact h.count.trans (Nat.le_add_right _ _)

theorem Grouped.fresh {earlier : List (BatchKey × ℕ)} {ng : ℕ} (h : Grouped earlier ng)
    {key : BatchKey} (hnew : ∀ p ∈ earlier, ¬ p.1.SameKernel key) :
    Grouped (earlier ++ [(key, ng)]) (ng + 1) := by
  constructor
  case below =>
    intro q hq
    rcases List.mem_append.mp hq with hq | hq
    · exact (h.below q hq).trans (Nat.lt_succ_self ng)
    · rw [List.mem_singleton.mp hq]
      exact Nat.lt_succ_self ng
  case used =>
    intro g hg
    rcases Nat.lt_succ_iff_lt_or_eq.mp hg with hg | rfl
    · obtain ⟨q, hq, hgid⟩ := h.used g hg
      exact ⟨q, List.mem_append_left _ hq, hgid⟩
    · exact ⟨(key, g), List.mem_append_right _ List.mem_cons_self, rfl⟩
  case classes =>
    intro q hq r hr
    rcases List.mem_append.mp hq with hq | hq <;> rcases List.mem_append.mp hr with hr | hr
    · exact h.classes q hq r hr
    · rw [List.mem_singleton.mp hr]
      exact iff_of_false (Nat.ne_of_lt (h.below q hq)) (hnew q hq)
    · rw [List.mem_singleton.mp hq]
      exact iff_of_false (Nat.ne_of_gt (h.below r hr)) fun hkr => hnew r hr hkr.symm
    · rw [List.mem_singleton.mp hq, List.mem_singleton.mp hr]
      exact iff_of_true rfl (BatchKey.SameKernel.refl key)
  case count =>
    rw [List.length_append, List.length_singleton]
    exact Nat.succ_le_succ h.count

theorem batchGroupLoop_spec (keys : List BatchKey) (earlier : List (BatchKey × ℕ)) (ng : ℕ)
    (h : Grouped earlier ng) :
    Grouped (batchGroupLoop keys earlier ng).1 (batchGroupLoop keys earlier ng).2 ∧
      (batchGroupLoop keys earlier ng).1.map Prod.fst = earlier.map Prod.fst ++ keys := by
  induction keys generalizing earlier ng with
  | nil => exact ⟨h, (List.append_nil _).symm⟩
  | cons key rest ih =>
    simp only [batchGroupLoop]
    cases hfind : earlier.find? fun p => decide (p.1.SameKernel key) with
    | some p =>
      have hsame : p.1.SameKernel key := by
        have hpass := List.find?_some hfind
        exact of_decide_eq_true hpass
      obtain ⟨hgrouped, hkeys⟩ := ih _ _ (h.join (List.mem_of_find?_eq_some hfind) hsame)
      refine ⟨hgrouped, ?_⟩
      rw [hkeys, List.map_append, List.append_assoc]
      rfl
    | none =>
      have hnew : ∀ p ∈ earlier, ¬ p.1.SameKernel key := fun p hp hsame =>
        List.find?_eq_none.mp hfind p hp (decide_eq_true hsame)
      obtain ⟨hgrouped, hkeys⟩ := ih _ _ (h.fresh hnew)
      refine ⟨hgrouped, ?_⟩
      rw [hkeys, List.map_append, List.append_assoc]
      rfl

theorem grouped_nil : Grouped [] 0 where
  below := fun _ hp => nomatch hp
  used := fun g hg => absurd hg (Nat.not_lt_zero g)
  classes := fun _ hp => nomatch hp
  count := Nat.le_refl 0

/-- The keys paired with their group ids. -/
theorem cuvsBatchGroup_spec (keys : List BatchKey) :
    ∃ pairs, Grouped pairs (cuvsBatchGroup keys).2 ∧ pairs.map Prod.fst = keys ∧
      pairs.map Prod.snd = (cuvsBatchGroup keys).1 := by
  obtain ⟨hgrouped, hkeys⟩ := batchGroupLoop_spec keys [] 0 grouped_nil
  exact ⟨_, hgrouped, hkeys, rfl⟩

theorem cuvsBatchGroup_length (keys : List BatchKey) :
    (cuvsBatchGroup keys).1.length = keys.length := by
  obtain ⟨pairs, -, hkeys, hgids⟩ := cuvsBatchGroup_spec keys
  rw [← hgids, ← hkeys, List.length_map, List.length_map]

theorem cuvsBatchGroup_le (keys : List BatchKey) : (cuvsBatchGroup keys).2 ≤ keys.length := by
  obtain ⟨pairs, hgrouped, hkeys, -⟩ := cuvsBatchGroup_spec keys
  have hcount := hgrouped.count
  rwa [← List.length_map (f := Prod.fst), hkeys] at hcount

theorem cuvsBatchGroup_lt (keys : List BatchKey) : ∀ g ∈ (cuvsBatchGroup keys).1,
    g < (cuvsBatchGroup keys).2 := by
  obtain ⟨pairs, hgrouped, -, hgids⟩ := cuvsBatchGroup_spec keys
  intro g hg
  rw [← hgids] at hg
  obtain ⟨p, hp, rfl⟩ := List.mem_map.mp hg
  exact hgrouped.below p hp

section Classes

/-- What the requests of a dispatch have in common; only CAGRA has tuning. -/
structure KernelClass where
  key : Key
  precision : ℕ
  dim : ℕ
  mode : ℕ
  tuning : Option (ℕ × ℕ)
deriving DecidableEq, Repr

def BatchKey.kernel (a : BatchKey) : KernelClass where
  key := a.key
  precision := a.precision
  dim := a.dim
  mode := a.mode
  tuning := if a.mode = 0 then some (a.itopkSize, a.searchWidth) else none

theorem BatchKey.sameKernel_iff (a b : BatchKey) : a.SameKernel b ↔ a.kernel = b.kernel := by
  simp only [SameKernel, kernel, KernelClass.mk.injEq]
  refine and_congr_right fun _ => and_congr_right fun _ => and_congr_right fun _ =>
    and_congr_right fun hmode => ?_
  rw [hmode]
  by_cases hzero : b.mode = 0
  · simp [hzero]
  · simp [hzero]

/-- Equal labels are equal values of a key, so there are as many labels as values. -/
theorem dedup_length_congr {α β γ : Type} [DecidableEq β] [DecidableEq γ] {l : List α} {f : α → β}
    {g : α → γ} (h : ∀ p ∈ l, ∀ q ∈ l, f p = f q ↔ g p = g q) :
    (l.map f).dedup.length = (l.map g).dedup.length := by
  induction l with
  | nil => rfl
  | cons p l ih =>
    have htail := ih fun a ha b hb => h a (List.mem_cons_of_mem p ha) b (List.mem_cons_of_mem p hb)
    have hmem : f p ∈ l.map f ↔ g p ∈ l.map g := by
      simp only [List.mem_map]
      constructor
      · rintro ⟨q, hq, heq⟩
        exact ⟨q, hq, (h q (List.mem_cons_of_mem p hq) p List.mem_cons_self).mp heq⟩
      · rintro ⟨q, hq, heq⟩
        exact ⟨q, hq, (h q (List.mem_cons_of_mem p hq) p List.mem_cons_self).mpr heq⟩
    rw [List.map_cons, List.map_cons]
    by_cases hf : f p ∈ l.map f
    · rw [List.dedup_cons_of_mem hf, List.dedup_cons_of_mem (hmem.mp hf), htail]
    · rw [List.dedup_cons_of_notMem hf, List.dedup_cons_of_notMem (mt hmem.mpr hf),
        List.length_cons, List.length_cons, htail]

def FirstSeen (earlier : List (BatchKey × ℕ)) : Prop :=
  ∀ (i : ℕ) (p : BatchKey × ℕ), earlier[i]? = some p →
    ∀ g < p.2, ∃ j < i, ∃ q, earlier[j]? = some q ∧ q.2 = g

theorem FirstSeen.concat {earlier : List (BatchKey × ℕ)} {ng g : ℕ} (h : FirstSeen earlier)
    (hgrouped : Grouped earlier ng) (hle : g ≤ ng) (key : BatchKey) :
    FirstSeen (earlier ++ [(key, g)]) := by
  intro i p hp g' hg'
  rcases Nat.lt_or_ge i earlier.length with hi | hi
  · rw [List.getElem?_append_left hi] at hp
    obtain ⟨j, hj, q, hq, hgid⟩ := h i p hp g' hg'
    exact ⟨j, hj, q, by rwa [List.getElem?_append_left (hj.trans hi)], hgid⟩
  · rw [List.getElem?_append_right hi] at hp
    obtain rfl : (key, g) = p := List.mem_singleton.mp (List.mem_of_getElem? hp) ▸ rfl
    -- The groups so far are all in use.
    obtain ⟨q, hq, hgid⟩ := hgrouped.used g' (Nat.lt_of_lt_of_le hg' hle)
    obtain ⟨j, hj⟩ := List.mem_iff_getElem?.mp hq
    have hlt : j < earlier.length := (List.getElem?_eq_some_iff.mp hj).1
    exact ⟨j, hlt.trans_le hi, q, by rwa [List.getElem?_append_left hlt], hgid⟩

theorem batchGroupLoop_firstSeen (keys : List BatchKey) (earlier : List (BatchKey × ℕ)) (ng : ℕ)
    (hgrouped : Grouped earlier ng) (h : FirstSeen earlier) :
    FirstSeen (batchGroupLoop keys earlier ng).1 := by
  induction keys generalizing earlier ng with
  | nil => exact h
  | cons key rest ih =>
    simp only [batchGroupLoop]
    cases hfind : earlier.find? fun p => decide (p.1.SameKernel key) with
    | some p =>
      have hmem := List.mem_of_find?_eq_some hfind
      have hpass := List.find?_some hfind
      refine ih _ _ (hgrouped.join hmem (of_decide_eq_true hpass)) ?_
      exact h.concat hgrouped (hgrouped.below p hmem).le key
    | none =>
      have hnew : ∀ p ∈ earlier, ¬ p.1.SameKernel key := fun p hp hsame =>
        List.find?_eq_none.mp hfind p hp (decide_eq_true hsame)
      exact ih _ _ (hgrouped.fresh hnew) (h.concat hgrouped (Nat.le_refl ng) key)

/-- The groups are the classes of the kernel key, numbered densely in the order they are seen. -/
theorem cuvsBatchGroup_partition (keys : List BatchKey) :
    (cuvsBatchGroup keys).1.length = keys.length ∧
      (∀ (i j : ℕ) (a b : BatchKey) (g g' : ℕ), keys[i]? = some a → keys[j]? = some b →
        (cuvsBatchGroup keys).1[i]? = some g → (cuvsBatchGroup keys).1[j]? = some g' →
          (g = g' ↔ a.key.dbOid = b.key.dbOid ∧ a.key.indexOid = b.key.indexOid ∧
            a.precision = b.precision ∧ a.dim = b.dim ∧ a.mode = b.mode ∧
            (a.mode = 0 → a.itopkSize = b.itopkSize ∧ a.searchWidth = b.searchWidth))) ∧
      (∀ g, g ∈ (cuvsBatchGroup keys).1 ↔ g < (cuvsBatchGroup keys).2) ∧
      (∀ (i g : ℕ), (cuvsBatchGroup keys).1[i]? = some g →
        ∀ g' < g, ∃ j < i, (cuvsBatchGroup keys).1[j]? = some g') ∧
      (cuvsBatchGroup keys).2 = (keys.map BatchKey.kernel).dedup.length := by
  obtain ⟨hgrouped, hkeys⟩ := batchGroupLoop_spec keys [] 0 grouped_nil
  have hseen := batchGroupLoop_firstSeen keys [] 0 grouped_nil fun i p hp => nomatch hp
  set pairs := (batchGroupLoop keys [] 0).1
  replace hkeys : pairs.map Prod.fst = keys := hkeys
  have hgids : (cuvsBatchGroup keys).1 = pairs.map Prod.snd := rfl
  -- the loop pairs every key with its group, and the rest is read off the pairs
  have hpair : ∀ (i : ℕ) (a : BatchKey) (g : ℕ), keys[i]? = some a →
      (cuvsBatchGroup keys).1[i]? = some g → (a, g) ∈ pairs := by
    intro i a g ha hg
    rw [← hkeys, List.getElem?_map] at ha
    rw [hgids, List.getElem?_map] at hg
    obtain ⟨p, hp, rfl⟩ := Option.map_eq_some_iff.mp ha
    rw [hp] at hg
    obtain rfl := Option.some.inj hg
    exact List.mem_of_getElem? hp
  have hdense : ∀ g, g ∈ (cuvsBatchGroup keys).1 ↔ g < (cuvsBatchGroup keys).2 := by
    intro g
    rw [hgids, List.mem_map]
    constructor
    · rintro ⟨p, hp, rfl⟩
      exact hgrouped.below p hp
    · intro hg
      exact hgrouped.used g hg
  refine ⟨cuvsBatchGroup_length keys, ?_, hdense, ?_, ?_⟩
  · intro i j a b g g' ha hb hg hg'
    have hclass : g = g' ↔ a.SameKernel b :=
      hgrouped.classes _ (hpair i a g ha hg) _ (hpair j b g' hb hg')
    have hkey : a.key = b.key ↔ a.key.dbOid = b.key.dbOid ∧ a.key.indexOid = b.key.indexOid := by
      cases a.key
      cases b.key
      simp
    rw [hclass, BatchKey.SameKernel, hkey, and_assoc]
    refine and_congr_right fun _ => and_congr_right fun _ => and_congr_right fun _ =>
      and_congr_right fun _ => and_congr_right fun hmode => ?_
    rw [hmode, ← imp_iff_not_or]
  · intro i g hg g' hlt
    rw [hgids, List.getElem?_map] at hg
    obtain ⟨p, hp, rfl⟩ := Option.map_eq_some_iff.mp hg
    obtain ⟨j, hj, q, hq, rfl⟩ := hseen i p hp g' hlt
    exact ⟨j, hj, by rw [hgids, List.getElem?_map, hq]; rfl⟩
  · have hrange : (pairs.map Prod.snd).dedup.length = (cuvsBatchGroup keys).2 := by
      have hperm : (pairs.map Prod.snd).dedup.Perm (List.range (cuvsBatchGroup keys).2) := by
        refine (List.perm_ext_iff_of_nodup (List.nodup_dedup _) List.nodup_range).mpr fun g => ?_
        rw [List.mem_dedup, List.mem_range, ← hgids]
        exact hdense g
      rw [hperm.length_eq, List.length_range]
    have hkernel : keys.map BatchKey.kernel = pairs.map fun p => p.1.kernel := by
      rw [← hkeys, List.map_map]
      rfl
    rw [← hrange, hkernel]
    exact dedup_length_congr fun p hp q hq =>
      (hgrouped.classes p hp q hq).trans (BatchKey.sameKernel_iff p.1 q.1)

end Classes

end PgCuvs
