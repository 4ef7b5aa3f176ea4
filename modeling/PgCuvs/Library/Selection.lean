import Mathlib.Data.List.Perm.Basic
import Mathlib.Data.List.Sort

/-! Selecting the `k` smallest elements of a list by a key. Ties may be broken
in any way, so a selection is a relation and only its keys are determined. -/

namespace Selection

variable {α β D : Type*} {r : D → D → Prop} {key : α → D}

/-- `R` lists `min k |L|` elements of `L` in order, none of them beyond an
element that was left out. -/
structure IsNearest (r : D → D → Prop) (key : α → D) (k : ℕ) (L R : List α) : Prop where
  sorted : R.Pairwise fun a b => r (key a) (key b)
  length_eq : R.length = min k L.length
  split : ∃ S, L.Perm (R ++ S) ∧ ∀ a ∈ R, ∀ b ∈ S, r (key a) (key b)

theorem isNearest_nil (k : ℕ) : IsNearest r key k [] [] :=
  ⟨.nil, by simp, [], by simp, by simp⟩

theorem IsNearest.perm {k : ℕ} {L L' R : List α} (h : IsNearest r key k L R)
    (hp : L.Perm L') : IsNearest r key k L' R := by
  obtain ⟨S, hS, hle⟩ := h.split
  exact ⟨h.sorted, hp.length_eq ▸ h.length_eq, S, hp.symm.trans hS, hle⟩

theorem IsNearest.map {k : ℕ} {L R : List β} {f : β → α}
    (h : IsNearest r (key ∘ f) k L R) : IsNearest r key k (L.map f) (R.map f) := by
  obtain ⟨S, hS, hle⟩ := h.split
  refine ⟨List.pairwise_map.mpr h.sorted, by simpa using h.length_eq, S.map f, ?_, ?_⟩
  · simpa using hS.map f
  · intro a ha b hb
    obtain ⟨c, hc, rfl⟩ := List.mem_map.mp ha
    obtain ⟨d, hd, rfl⟩ := List.mem_map.mp hb
    exact hle c hc d hd

theorem IsNearest.of_map {k : ℕ} {L : List β} {R : List α} {f : β → α}
    (h : IsNearest r key k (L.map f) R) :
    ∃ Q, R = Q.map f ∧ IsNearest r (key ∘ f) k L Q := by
  obtain ⟨S, hS, hle⟩ := h.split
  have himage : List.Forall₂ (fun a b => a = f b) (L.map f) L :=
    List.forall₂_map_left_iff.mpr (List.forall₂_same.mpr fun _ _ => rfl)
  obtain ⟨M, hM, hperm⟩ := List.perm_comp_forall₂ hS.symm himage
  have hmap : R ++ S = M.map f := by
    rw [← List.forall₂_eq_eq_eq]
    exact List.forall₂_map_right_iff.mpr hM
  have hR : R = (M.take R.length).map f := by
    rw [List.map_take, ← hmap, List.take_left]
  have hS' : S = (M.drop R.length).map f := by
    rw [List.map_drop, ← hmap, List.drop_left]
  refine ⟨M.take R.length, hR, ?_, ?_, M.drop R.length, ?_, ?_⟩
  · have hsorted := h.sorted
    rwa [hR, List.pairwise_map] at hsorted
  · have hlen := h.length_eq
    rw [List.length_map] at hlen
    rw [← hlen]
    conv_rhs => rw [hR]
    rw [List.length_map]
  · rw [List.take_append_drop]
    exact hperm.symm
  · intro a ha b hb
    apply hle
    · rw [hR]
      exact List.mem_map_of_mem ha
    · rw [hS']
      exact List.mem_map_of_mem hb

theorem IsNearest.mem {k : ℕ} {L R : List α} (h : IsNearest r key k L R) {a : α}
    (ha : a ∈ R) : a ∈ L := by
  obtain ⟨S, hS, -⟩ := h.split
  exact hS.symm.subset (List.mem_append_left S ha)

theorem IsNearest.take {j k : ℕ} {L R : List α} (h : IsNearest r key k L R) (hjk : j ≤ k) :
    IsNearest r key j L (R.take j) := by
  obtain ⟨S, hS, hle⟩ := h.split
  refine ⟨h.sorted.sublist (List.take_sublist j R), ?_, R.drop j ++ S, ?_, ?_⟩
  · rw [List.length_take, h.length_eq]
    omega
  · rwa [← List.append_assoc, List.take_append_drop]
  · intro a ha b hb
    rcases List.mem_append.mp hb with hb | hb
    · have hsorted := h.sorted
      rw [← List.take_append_drop j R, List.pairwise_append] at hsorted
      exact hsorted.2.2 a ha b hb
    · exact hle a (List.mem_of_mem_take ha) b hb

theorem IsNearest.length_le {k : ℕ} {L R : List α} (h : IsNearest r key k L R) :
    R.length ≤ k := by
  rw [h.length_eq]
  exact Nat.min_le_left ..

theorem isNearest_take_of_perm {L R : List α} (hp : L.Perm R)
    (hs : R.Pairwise fun a b => r (key a) (key b)) (k : ℕ) :
    IsNearest r key k L (R.take k) := by
  refine ⟨hs.sublist (List.take_sublist k R), ?_, R.drop k, ?_, ?_⟩
  · rw [List.length_take, hp.length_eq]
  · rwa [List.take_append_drop]
  · rw [← List.take_append_drop k R, List.pairwise_append] at hs
    exact hs.2.2

/-- Filtering a selection selects from the filtered list when enough of it is
left, or when it was the whole list. -/
theorem IsNearest.filter_of_wide {j k : ℕ} {L R : List α} {p : α → Bool}
    (h : IsNearest r key j L R) (hwide : k ≤ (R.filter p).length ∨ L.length ≤ j) :
    IsNearest r key k (L.filter p) ((R.filter p).take k) := by
  obtain ⟨S, hS, hle⟩ := h.split
  have hperm : (L.filter p).Perm (R.filter p ++ S.filter p) := by
    rw [← List.filter_append]
    exact hS.filter p
  have hrest : k ≤ (R.filter p).length ∨ S.filter p = [] := by
    refine hwide.imp_right fun hj => ?_
    have hlen := hS.length_eq
    rw [List.length_append, h.length_eq, min_eq_right hj] at hlen
    rw [List.length_eq_zero_iff.mp (by omega : S.length = 0)]
    rfl
  refine ⟨(h.sorted.filter p).sublist (List.take_sublist _ _), ?_,
    (R.filter p).drop k ++ S.filter p, ?_, ?_⟩
  · rw [List.length_take, hperm.length_eq, List.length_append]
    rcases hrest with hrest | hnil
    · omega
    · rw [hnil, List.length_nil, Nat.add_zero]
  · rwa [← List.append_assoc, List.take_append_drop]
  · intro a ha b hb
    have haR := List.mem_of_mem_take ha
    rcases List.mem_append.mp hb with hb | hb
    · have hsorted := h.sorted.filter p
      rw [← List.take_append_drop k (R.filter p), List.pairwise_append] at hsorted
      exact hsorted.2.2 a ha b hb
    · exact hle a (List.mem_of_mem_filter haR) b (List.mem_of_mem_filter hb)

/-- Dropping at most `t` elements of `L` needs a selection that is `t` wider. -/
theorem IsNearest.filter {k t : ℕ} {L R : List α} {p : α → Bool}
    (h : IsNearest r key (k + t) L R) (ht : L.countP (fun a => !p a) ≤ t) :
    IsNearest r key k (L.filter p) ((R.filter p).take k) := by
  refine h.filter_of_wide ?_
  rcases Nat.le_total L.length (k + t) with hall | hmore
  · exact .inr hall
  · obtain ⟨S, hS, -⟩ := h.split
    have hdead := hS.countP_eq (fun a => !p a)
    have hRlen := h.length_eq
    have hRsplit : R.length = (R.filter p).length + R.countP (fun a => !p a) := by
      rw [List.countP_eq_length_filter]
      exact List.length_eq_length_filter_add p
    rw [List.countP_append] at hdead
    left
    omega

theorem IsNearest.of_eq_min {j k : ℕ} {L R : List α} (h : IsNearest r key j L R)
    (hj : j = min k L.length) : IsNearest r key k L R := by
  refine ⟨h.sorted, ?_, h.split⟩
  rw [h.length_eq, hj]
  omega

section Sorting

variable [DecidableRel r] [IsTrans D r]

/-- Taking the `k` smallest of `L ++ Y` may start from a selection of `L`
that is at least that wide. -/
theorem IsNearest.append {j k : ℕ} {L A Y R : List α} (hA : IsNearest r key j L A)
    (hkj : k ≤ j) (h : IsNearest r key k (A ++ Y) R) : IsNearest r key k (L ++ Y) R := by
  obtain ⟨S, hS, hAS⟩ := hA.split
  obtain ⟨T, hT, hRT⟩ := h.split
  have hperm : (L ++ Y).Perm (R ++ (T ++ S)) := by
    calc (L ++ Y).Perm ((A ++ S) ++ Y) := hS.append_right Y
      _ |>.Perm ((A ++ Y) ++ S) := by
        rw [List.append_assoc, List.append_assoc]
        exact List.perm_append_comm.append_left A
      _ |>.Perm ((R ++ T) ++ S) := hT.append_right S
      _ = R ++ (T ++ S) := List.append_assoc ..
  have hlen := hperm.length_eq
  have hRlen := h.length_eq
  have hAlen := hA.length_eq
  have hLlen := hS.length_eq
  simp only [List.length_append] at hlen hRlen hLlen
  have hbeyond : ∀ a ∈ R, ∀ b ∈ S, r (key a) (key b) := by
    intro a ha b hb
    by_contra hab
    -- everything in `A` is at most `b`, hence strictly before `a`, hence selected
    have hcount : A.length ≤ R.countP (fun c => r (key c) (key b)) := by
      have hRT' : T.countP (fun c => r (key c) (key b)) = 0 := by
        rw [List.countP_eq_zero]
        intro t ht hle
        exact hab (IsTrans.trans _ _ _ (hRT a ha t ht) (of_decide_eq_true hle))
      have hAall : A.countP (fun c => r (key c) (key b)) = A.length := by
        rw [List.countP_eq_length]
        exact fun c hc => decide_eq_true (hAS c hc b hb)
      have hsplit := hT.countP_eq (fun c => decide (r (key c) (key b)))
      rw [List.countP_append, List.countP_append, hAall, hRT'] at hsplit
      omega
    have hlt : R.countP (fun c => r (key c) (key b)) ≠ R.length := by
      rw [Ne, List.countP_eq_length]
      exact fun hall => hab (of_decide_eq_true (hall a ha))
    have hle : R.countP (fun c => r (key c) (key b)) ≤ R.length := List.countP_le_length
    have hSpos := List.length_pos_of_mem hb
    omega
  refine ⟨h.sorted, ?_, T ++ S, hperm, ?_⟩
  · rw [List.length_append]
    omega
  · intro a ha b hb
    rcases List.mem_append.mp hb with hb | hb
    · exact hRT a ha b hb
    · exact hbeyond a ha b hb

theorem IsNearest.append_append {j k : ℕ} {L A M B R : List α} (hA : IsNearest r key j L A)
    (hB : IsNearest r key j M B) (hkj : k ≤ j) (h : IsNearest r key k (A ++ B) R) :
    IsNearest r key k (L ++ M) R := by
  have hLB := hA.append hkj h
  exact (hB.append hkj (hLB.perm List.perm_append_comm)).perm List.perm_append_comm

/-- The `k` smallest of many lists may be taken from selections of each. -/
theorem IsNearest.flatMap {ι : Type*} {k : ℕ} {L A : ι → List α} {Y R : List α} {l : List ι}
    (hA : ∀ i ∈ l, ∃ j, k ≤ j ∧ IsNearest r key j (L i) (A i))
    (h : IsNearest r key k (l.flatMap A ++ Y) R) : IsNearest r key k (l.flatMap L ++ Y) R := by
  induction l generalizing Y with
  | nil => exact h
  | cons i l ih =>
    obtain ⟨j, hkj, hi⟩ := hA i List.mem_cons_self
    rw [List.flatMap_cons, List.append_assoc] at h ⊢
    have hhead := hi.append hkj h
    have hswap : (L i ++ (l.flatMap A ++ Y)).Perm (l.flatMap A ++ (L i ++ Y)) := by
      rw [← List.append_assoc, ← List.append_assoc]
      exact List.perm_append_comm.append_right Y
    have hswap' : (l.flatMap L ++ (L i ++ Y)).Perm (L i ++ (l.flatMap L ++ Y)) := by
      rw [← List.append_assoc, ← List.append_assoc]
      exact List.perm_append_comm.append_right Y
    exact (ih (fun i hi => hA i (List.mem_cons_of_mem _ hi)) (hhead.perm hswap)).perm hswap'

section Order

variable [Std.Total r]

instance total_key : Std.Total fun a b : α => r (key a) (key b) :=
  ⟨fun a b => Std.Total.total (key a) (key b)⟩

instance isTrans_key : IsTrans α fun a b => r (key a) (key b) :=
  ⟨fun _ _ _ => IsTrans.trans _ _ _⟩

theorem isNearest_insertionSort (k : ℕ) (L : List α) :
    IsNearest r key k L ((L.insertionSort fun a b => r (key a) (key b)).take k) := by
  have hsorted := List.pairwise_insertionSort (fun a b : α => r (key a) (key b)) L
  have hperm := List.perm_insertionSort (fun a b : α => r (key a) (key b)) L
  exact isNearest_take_of_perm hperm.symm hsorted k

/-- The keys of the `k` smallest elements of `L`, in order. -/
def nearestKeys (r : D → D → Prop) [DecidableRel r] (key : α → D) (k : ℕ) (L : List α) :
    List D :=
  ((L.map key).insertionSort r).take k

omit [IsTrans D r] [Std.Total r] in
theorem nearestKeys_min (k : ℕ) (L : List α) :
    nearestKeys r key (min k L.length) L = nearestKeys r key k L := by
  have hlen : ((L.map key).insertionSort r).length = L.length := by simp
  rw [nearestKeys, nearestKeys, ← hlen, ← List.take_take, List.take_length]

section Antisymmetric

variable [Std.Antisymm r]

theorem IsNearest.map_key {k : ℕ} {L R : List α} (h : IsNearest r key k L R) :
    R.map key = nearestKeys r key k L := by
  obtain ⟨S, hS, hle⟩ := h.split
  have hsorted : (R.map key ++ (S.map key).insertionSort r).Pairwise r := by
    rw [List.pairwise_append]
    refine ⟨List.pairwise_map.mpr h.sorted, List.pairwise_insertionSort r _, ?_⟩
    intro a ha b hb
    rw [List.mem_insertionSort] at hb
    obtain ⟨c, hc, rfl⟩ := List.mem_map.mp ha
    obtain ⟨d, hd, rfl⟩ := List.mem_map.mp hb
    exact hle c hc d hd
  have hperm : (R.map key ++ (S.map key).insertionSort r).Perm ((L.map key).insertionSort r) := by
    calc (R.map key ++ (S.map key).insertionSort r).Perm (R.map key ++ S.map key) :=
          (List.perm_insertionSort r _).append_left _
      _ |>.Perm (L.map key) := by
        rw [← List.map_append]
        exact (hS.map key).symm
      _ |>.Perm ((L.map key).insertionSort r) := (List.perm_insertionSort r _).symm
  have heq := hperm.eq_of_pairwise (fun a b _ _ => Std.Antisymm.antisymm a b) hsorted
    (List.pairwise_insertionSort r _)
  have hlen := h.length_eq
  have hSlen := hS.length_eq
  rw [List.length_append] at hSlen
  rw [nearestKeys, ← heq]
  rcases Nat.le_total k L.length with hk | hk
  · have hRk : (R.map key).length = k := by rw [List.length_map, hlen, Nat.min_eq_left hk]
    rw [← hRk, List.take_left']
    rfl
  · have hnil : S = [] := List.length_eq_zero_iff.mp (by omega)
    rw [hnil, List.map_nil, List.insertionSort_nil, List.append_nil, List.take_of_length_le]
    rw [List.length_map]
    exact h.length_le

/-- Appending `E` leaves the `k` smallest keys of `L` alone exactly when no
element of `E` comes strictly before one of them. -/
theorem nearestKeys_append_eq_iff {k : ℕ} {L E : List α} (hk : k ≤ L.length) :
    nearestKeys r key k (L ++ E) = nearestKeys r key k L ↔
      ∀ d ∈ nearestKeys r key k L, ∀ e ∈ E, r d (key e) := by
  have hT : IsNearest r key k L _ := isNearest_insertionSort k L
  set T := (L.insertionSort fun a b => r (key a) (key b)).take k
  obtain ⟨S, hS, hTS⟩ := hT.split
  constructor
  · intro heq d hd e he
    have hT' : IsNearest r key k (L ++ E) _ := isNearest_insertionSort k (L ++ E)
    set T' := ((L ++ E).insertionSort fun a b => r (key a) (key b)).take k
    obtain ⟨S', hS', hTS'⟩ := hT'.split
    have hkeys : T'.map key = T.map key := by rw [hT'.map_key, hT.map_key, heq]
    -- as the same keys are selected, the same are left, those of `E` among them
    have hrest : ((S ++ E).map key).Perm (S'.map key) := by
      have hperm := ((hS.append_right E).symm.trans hS').map key
      simp only [List.append_assoc, List.map_append, hkeys] at hperm
      rw [List.map_append]
      exact (List.perm_append_left_iff _).mp hperm
    have he' : key e ∈ S'.map key :=
      hrest.subset (List.mem_map_of_mem (List.mem_append_right S he))
    rw [← hT.map_key, ← hkeys] at hd
    obtain ⟨a, ha, rfl⟩ := List.mem_map.mp hd
    obtain ⟨b, hb, hbe⟩ := List.mem_map.mp he'
    exact hbe ▸ hTS' a ha b hb
  · intro hle
    have hTE : IsNearest r key k (L ++ E) T := by
      refine ⟨hT.sorted, ?_, S ++ E, ?_, ?_⟩
      · rw [hT.length_eq, List.length_append]
        omega
      · rw [← List.append_assoc]
        exact hS.append_right E
      · intro a ha b hb
        rcases List.mem_append.mp hb with hb | hb
        · exact hTS a ha b hb
        · exact hle (key a) (hT.map_key ▸ List.mem_map_of_mem ha) b hb
    rw [← hTE.map_key, ← hT.map_key]

omit [Std.Antisymm r] [Std.Total r] in
theorem countP_take_sorted {X : List D} (hX : X.Pairwise r) (k : ℕ) (t : D) :
    (X.take k).countP (fun x => decide (r x t)) = min k (X.countP fun x => decide (r x t)) := by
  induction X generalizing k with
  | nil => simp
  | cons a X ih =>
    obtain ⟨ha, hX⟩ := List.pairwise_cons.mp hX
    cases k with
    | zero => simp
    | succ k =>
      rw [List.take_succ_cons, List.countP_cons, List.countP_cons, ih hX]
      by_cases hat : r a t
      · simp only [hat, decide_true, if_true]
        omega
      · have hbeyond : X.countP (fun x => decide (r x t)) = 0 := by
          rw [List.countP_eq_zero]
          intro b hb hbt
          exact hat (IsTrans.trans _ _ _ (ha b hb) (of_decide_eq_true hbt))
        simp [hat, hbeyond]

theorem eq_of_countP_eq {X Y : List D} (hX : X.Pairwise r) (hY : Y.Pairwise r)
    (h : ∀ t, X.countP (fun x => decide (r x t)) = Y.countP fun x => decide (r x t)) : X = Y := by
  have hrefl : ∀ a : D, r a a := fun a => (Std.Total.total a a).elim id id
  have hfirst : ∀ {a b : D} {X Y : List D}, (b :: Y).Pairwise r →
      (a :: X).countP (fun x => decide (r x a)) = (b :: Y).countP (fun x => decide (r x a)) →
        r b a := by
    intro a b X Y hY heq
    have hpos : 0 < (b :: Y).countP fun x => decide (r x a) := by
      rw [← heq, List.countP_pos_iff]
      exact ⟨a, List.mem_cons_self, decide_eq_true (hrefl a)⟩
    obtain ⟨y, hy, hya⟩ := List.countP_pos_iff.mp hpos
    rcases List.mem_cons.mp hy with rfl | hy
    · exact of_decide_eq_true hya
    · exact IsTrans.trans _ _ _ (List.rel_of_pairwise_cons hY hy) (of_decide_eq_true hya)
  induction X generalizing Y with
  | nil =>
    cases Y with
    | nil => rfl
    | cons b Y =>
      have hb := h b
      simp [hrefl b] at hb
  | cons a X ih =>
    cases Y with
    | nil =>
      have ha := h a
      simp [hrefl a] at ha
    | cons b Y =>
      obtain rfl : a = b :=
        Std.Antisymm.antisymm a b (hfirst hX (h b).symm) (hfirst hY (h a))
      refine congrArg _ (ih hX.of_cons hY.of_cons fun t => ?_)
      have ht := h t
      rw [List.countP_cons, List.countP_cons] at ht
      omega

/-- Two lists have the same `k` smallest keys exactly when every key bounds as
many elements of the one as of the other, counting up to `k`. -/
theorem nearestKeys_eq_iff {k : ℕ} {L M : List α} :
    nearestKeys r key k L = nearestKeys r key k M ↔
      ∀ t, min k (L.countP fun a => decide (r (key a) t))
        = min k (M.countP fun a => decide (r (key a) t)) := by
  have hsorted : ∀ N : List α, ((N.map key).insertionSort r).Pairwise r :=
    fun N => List.pairwise_insertionSort r _
  have hcount : ∀ (N : List α) (t : D),
      (nearestKeys r key k N).countP (fun x => decide (r x t))
        = min k (N.countP fun a => decide (r (key a) t)) := by
    intro N t
    rw [nearestKeys, countP_take_sorted (hsorted N), (List.perm_insertionSort r _).countP_eq,
      List.countP_map]
    rfl
  constructor
  · intro h t
    rw [← hcount, ← hcount, h]
  · intro h
    exact eq_of_countP_eq ((hsorted L).sublist (List.take_sublist _ _))
      ((hsorted M).sublist (List.take_sublist _ _)) fun t =>
        (hcount L t).trans ((h t).trans (hcount M t).symm)

end Antisymmetric

end Order

end Sorting

end Selection
