import Mathlib.Data.List.DropRight
import PgCuvs.Library.Selection

/-! Feeding elements one by one into a running selection of the `k` smallest,
and telling the two ends of a list apart. -/

namespace Selection

variable {α D : Type*}

section Reach

variable {r : D → D → Prop} {key : α → D} {k : ℕ} {L R R' : List α} {x : α}

theorem IsNearest.perm_of_length_le (h : IsNearest r key k L R) (hk : L.length ≤ k) :
    L.Perm R := by
  obtain ⟨S, hS, -⟩ := h.split
  have hlen := hS.length_eq
  rw [List.length_append, h.length_eq, min_eq_right hk] at hlen
  have hnil : S = [] := List.length_eq_zero_iff.mp (by omega)
  rwa [hnil, List.append_nil] at hS

theorem IsNearest.reject (h : IsNearest r key k L R) (hfull : k ≤ R.length)
    (hx : ∀ a ∈ R, r (key a) (key x)) : IsNearest r key k (L ++ [x]) R := by
  obtain ⟨S, hS, hle⟩ := h.split
  refine ⟨h.sorted, ?_, S ++ [x], ?_, ?_⟩
  · have hlen := h.length_eq
    rw [List.length_append]
    omega
  · rw [← List.append_assoc]
    exact hS.append_right [x]
  · intro a ha b hb
    rcases List.mem_append.mp hb with hb | hb
    · exact hle a ha b hb
    · exact List.mem_singleton.mp hb ▸ hx a ha

theorem IsNearest.grow (h : IsNearest r key k L R) (hroom : R.length < k)
    (hperm : R'.Perm (x :: R)) (hsorted : R'.Pairwise fun a b => r (key a) (key b)) :
    IsNearest r key k (L ++ [x]) R' := by
  have hlen := h.length_eq
  have hall := h.perm_of_length_le (by omega)
  refine ⟨hsorted, ?_, [], ?_, ?_⟩
  · rw [hperm.length_eq, List.length_cons, List.length_append, List.length_singleton]
    omega
  · rw [List.append_nil]
    calc (L ++ [x]).Perm (R ++ [x]) := hall.append_right [x]
      _ |>.Perm (x :: R) := List.perm_append_singleton x R
      _ |>.Perm R' := hperm.symm
  · simp

theorem IsNearest.evict [IsTrans D r] {w : α} (h : IsNearest r key k L (R ++ [w]))
    (hfull : k ≤ R.length + 1) (hx : r (key x) (key w)) (hperm : R'.Perm (x :: R))
    (hsorted : R'.Pairwise fun a b => r (key a) (key b)) :
    IsNearest r key k (L ++ [x]) R' := by
  obtain ⟨S, hS, hle⟩ := h.split
  have hlen := h.length_eq
  rw [List.length_append, List.length_singleton] at hlen
  have hlast : ∀ a ∈ R, r (key a) (key w) := by
    have hpairs := h.sorted
    rw [List.pairwise_append] at hpairs
    exact fun a ha => hpairs.2.2 a ha w (List.mem_singleton_self w)
  have hw : ∀ b ∈ S, r (key w) (key b) := hle w (List.mem_append_right R (List.mem_singleton_self w))
  refine ⟨hsorted, ?_, w :: S, ?_, ?_⟩
  · rw [hperm.length_eq, List.length_cons, List.length_append, List.length_singleton]
    omega
  · calc (L ++ [x]).Perm ((R ++ [w]) ++ S ++ [x]) := hS.append_right [x]
      _ |>.Perm (x :: ((R ++ [w]) ++ S)) := List.perm_append_singleton x _
      _ = (x :: R) ++ w :: S := by simp
      _ |>.Perm (R' ++ w :: S) := hperm.symm.append_right _
  · intro a ha b hb
    have haw : r (key a) (key w) := by
      rcases List.mem_cons.mp (hperm.subset ha) with rfl | ha
      · exact hx
      · exact hlast a ha
    rcases List.mem_cons.mp hb with rfl | hb
    · exact haw
    · exact IsTrans.trans _ _ _ haw (hw b hb)

end Reach

section Insert

variable [LinearOrder D] {key : α → D} {k : ℕ} {L R : List α}

def insertBehind (key : α → D) (x : α) (l : List α) : List α :=
  l.rdropWhile (fun c => decide (key x < key c)) ++ x ::
    l.rtakeWhile fun c => decide (key x < key c)

theorem insertBehind_perm (key : α → D) (x : α) (l : List α) :
    (insertBehind key x l).Perm (x :: l) := by
  unfold insertBehind
  rw [List.perm_middle.congr_left, List.rdropWhile_append_rtakeWhile]

theorem insertBehind_sorted {x : α} {l : List α}
    (hl : l.Pairwise fun a b => key a ≤ key b) :
    (insertBehind key x l).Pairwise fun a b => key a ≤ key b := by
  have hsplit : l.rdropWhile (fun c => decide (key x < key c)) ++
      l.rtakeWhile (fun c => decide (key x < key c)) = l := List.rdropWhile_append_rtakeWhile
  have hbehind : ∀ b ∈ l.rtakeWhile (fun c => decide (key x < key c)), key x < key b := by
    intro b hb
    have hbeyond := List.mem_rtakeWhile_imp hb
    exact of_decide_eq_true hbeyond
  have hbefore : ∀ a ∈ l.rdropWhile (fun c => decide (key x < key c)), key a ≤ key x := by
    intro a ha
    have hne := List.ne_nil_of_mem ha
    have hstop := List.rdropWhile_last_not (fun c => decide (key x < key c)) l hne
    have hlast : key (List.getLast _ hne) ≤ key x := by simpa using hstop
    have hpre := hl.sublist (List.rdropWhile_prefix (fun c => decide (key x < key c)) l).sublist
    rw [← List.dropLast_append_getLast hne] at ha hpre
    rcases List.mem_append.mp ha with ha | ha
    · exact ((List.pairwise_append.mp hpre).2.2 a ha _ (List.mem_singleton_self _)).trans hlast
    · exact List.mem_singleton.mp ha ▸ hlast
  unfold insertBehind
  rw [← hsplit, List.pairwise_append] at hl
  rw [List.pairwise_append, List.pairwise_cons]
  refine ⟨hl.1, ⟨fun b hb => (hbehind b hb).le, hl.2.1⟩, ?_⟩
  intro a ha b hb
  rcases List.mem_cons.mp hb with rfl | hb
  · exact hbefore a ha
  · exact (hbefore a ha).trans (hbehind b hb).le

end Insert

section Ends

variable [LinearOrder D]

/-- The smallest of the largest of each part are the largest of all exactly when
nothing is smaller or larger. -/
theorem isNearest_swap_iff {ι : Type*} {key : α → D} {k : ℕ} {l : List ι} {L A : ι → List α}
    {R : List α} (hk : 0 < k)
    (hA : ∀ i ∈ l, IsNearest (fun a b : D => b ≤ a) key k (L i) (A i))
    (h : IsNearest (· ≤ ·) key k (l.flatMap A) R) :
    IsNearest (fun a b : D => b ≤ a) key k (l.flatMap L) R ↔
      ∀ x ∈ l.flatMap A, ∀ y ∈ l.flatMap A, key x = key y := by
  have : IsTrans D fun a b : D => b ≤ a := ⟨fun _ _ _ hab hbc => hbc.trans hab⟩
  obtain ⟨S, hS, hle⟩ := h.split
  constructor
  · intro hR x hx y hy
    obtain ⟨S', hS', hge⟩ := hR.split
    obtain ⟨first, hfirst⟩ : ∃ first, first ∈ R := by
      refine List.exists_mem_of_ne_nil R (List.ne_nil_of_length_pos ?_)
      rw [h.length_eq]
      exact lt_min hk (List.length_pos_of_mem hx)
    have hR_eq : ∀ a ∈ R, key a = key first := by
      intro a ha
      have hup : ∀ a ∈ R, ∀ b ∈ R, key a ≤ key b := by
        intro a ha b hb
        obtain ⟨i, hi, rfl⟩ := List.getElem_of_mem ha
        obtain ⟨j, hj, rfl⟩ := List.getElem_of_mem hb
        rcases lt_trichotomy i j with hij | rfl | hij
        · exact List.pairwise_iff_getElem.mp h.sorted i j hi hj hij
        · exact le_rfl
        · exact List.pairwise_iff_getElem.mp hR.sorted j i hj hi hij
      exact le_antisymm (hup a ha first hfirst) (hup first hfirst a ha)
    have hall : ∀ u ∈ l.flatMap A, key u = key first := by
      intro u hu
      rcases List.mem_append.mp (hS.subset hu) with hu' | hu'
      · exact hR_eq u hu'
      · obtain ⟨i, hi, hui⟩ := List.mem_flatMap.mp hu
        have hmem : u ∈ l.flatMap L := List.mem_flatMap.mpr ⟨i, hi, (hA i hi).mem hui⟩
        rcases List.mem_append.mp (hS'.subset hmem) with hu'' | hu''
        · exact hR_eq u hu''
        · exact le_antisymm (hge first hfirst u hu'') (hle first hfirst u hu')
    rw [hall x hx, hall y hy]
  · intro hall
    have hR : ∀ a ∈ R, a ∈ l.flatMap A := fun a ha => h.mem ha
    have hnear : IsNearest (fun a b : D => b ≤ a) key k (l.flatMap A) R := by
      refine ⟨?_, h.length_eq, S, hS, ?_⟩
      · refine List.pairwise_iff_forall_sublist.mpr fun hab => ?_
        exact (hall _ (hR _ (hab.subset (by simp))) _ (hR _ (hab.subset (by simp)))).le
      · intro a ha b hb
        exact (hall b (hS.symm.subset (List.mem_append_right R hb)) a (hR a ha)).le
    have hparts := IsNearest.flatMap (Y := []) (fun i hi => ⟨k, le_rfl, hA i hi⟩)
      (by rwa [List.append_nil])
    rwa [List.append_nil] at hparts

theorem eq_of_take_perm_drop {k : ℕ} {l : List D} (hl : l.Pairwise (· ≤ ·)) (hpos : 0 < k)
    (hk : k < l.length) (h : (l.take k).Perm (l.drop (l.length - k))) :
    ∀ x ∈ l, ∀ y ∈ l, x = y := by
  have heq : l.take k = l.drop (l.length - k) :=
    h.eq_of_pairwise (fun _ _ _ _ => le_antisymm) (hl.sublist (List.take_sublist _ _))
      (hl.sublist (List.drop_sublist _ _))
  have hshift : ∀ i (hi : i < k), l[i] = l[l.length - k + i] := by
    intro i hi
    have hget := congrArg (fun m => m[i]?) heq
    simp only [List.getElem?_take, hi, if_true, List.getElem?_drop] at hget
    rwa [List.getElem?_eq_getElem, List.getElem?_eq_getElem, Option.some.injEq] at hget
  have hfirst : ∀ j (hj : j < l.length), l[j] = l[0] := by
    intro j
    induction j using Nat.strong_induction_on with
    | _ j ih =>
      intro hj
      rcases Nat.lt_or_ge j (l.length - k) with hlow | hhigh
      · have hmono := List.pairwise_iff_getElem.mp hl
        have hend : l[l.length - k] = l[0] := (hshift 0 hpos).symm
        rcases Nat.eq_zero_or_pos j with rfl | hjpos
        · rfl
        · exact le_antisymm ((hmono j (l.length - k) hj (by omega) hlow).trans hend.le)
            (hmono 0 j (by omega) hj hjpos)
      · have hback := hshift (j - (l.length - k)) (by omega)
        simp only [Nat.add_sub_cancel' hhigh] at hback
        rw [← hback]
        exact ih _ (by omega) (by omega)
  intro x hx y hy
  obtain ⟨i, hi, rfl⟩ := List.getElem_of_mem hx
  obtain ⟨j, hj, rfl⟩ := List.getElem_of_mem hy
  rw [hfirst i hi, hfirst j hj]

/-- The `k` smallest and the `k` largest keys of a longer list agree only when
there is one key. -/
theorem eq_of_nearestKeys_perm {key : α → D} {k : ℕ} {L : List α} (hpos : 0 < k)
    (hk : k < L.length)
    (h : (nearestKeys (· ≤ ·) key k L).Perm (nearestKeys (fun a b : D => b ≤ a) key k L)) :
    ∀ x ∈ L, ∀ y ∈ L, key x = key y := by
  have htotal : Std.Total fun a b : D => b ≤ a := ⟨fun a b => le_total b a⟩
  have htrans : IsTrans D fun a b : D => b ≤ a := ⟨fun _ _ _ hab hbc => hbc.trans hab⟩
  set asc := (L.map key).insertionSort (· ≤ ·) with hasc
  have hsorted : asc.Pairwise (· ≤ ·) := List.pairwise_insertionSort _ _
  have hdesc : (L.map key).insertionSort (fun a b => b ≤ a) = asc.reverse := by
    have hboth : ∀ a b : D, a ∈ (L.map key).insertionSort (fun a b => b ≤ a) → b ∈ asc.reverse →
        b ≤ a → a ≤ b → a = b := fun _ _ _ _ hab hba => le_antisymm hba hab
    refine List.Perm.eq_of_pairwise hboth (List.pairwise_insertionSort _ _)
      (List.pairwise_reverse.mpr hsorted) ?_
    calc ((L.map key).insertionSort fun a b => b ≤ a).Perm (L.map key) :=
          List.perm_insertionSort _ _
      _ |>.Perm asc := (List.perm_insertionSort _ _).symm
      _ |>.Perm asc.reverse := (List.reverse_perm asc).symm
  have hlen : asc.length = L.length := by rw [hasc, List.length_insertionSort, List.length_map]
  have hends : (asc.take k).Perm (asc.drop (asc.length - k)) := by
    rw [nearestKeys, nearestKeys, hdesc, List.take_reverse] at h
    exact h.trans (List.reverse_perm _)
  have hmem : ∀ x ∈ L, key x ∈ asc := by
    intro x hx
    rw [hasc, List.mem_insertionSort]
    exact List.mem_map_of_mem hx
  exact fun x hx y hy => eq_of_take_perm_drop hsorted hpos (hlen ▸ hk) hends _ (hmem x hx) _
    (hmem y hy)

end Ends

end Selection
