import PgCuvs.Corpus.Segments
import PgCuvs.Library.Run

/-! Which segments the reaper unlinks, over whole runs. -/

namespace PgCuvs

open Run Function

section Segments

variable {now : ℕ} {s : ShmSegment}

@[simp] theorem ShmSegment.release_owner (s : ShmSegment) (holder : LockHolder) :
    (s.release holder).owner = s.owner := by
  unfold ShmSegment.release
  split_ifs <;> rfl

@[simp] theorem ShmSegment.release_linked (s : ShmSegment) (holder : LockHolder) :
    (s.release holder).linked = s.linked := by
  unfold ShmSegment.release
  split_ifs <;> rfl

theorem ShmSegment.release_holder {h x : LockHolder} :
    (s.release h).holder = some x ↔ s.holder = some x ∧ x ≠ h := by
  unfold ShmSegment.release
  split_ifs with heq
  · rw [heq]
    constructor
    · intro hx
      cases hx
    · rintro ⟨hx, hne⟩
      exact absurd (Option.some.inj hx).symm hne
  · refine ⟨fun hx => ⟨hx, ?_⟩, And.left⟩
    rintro rfl
    exact heq hx

/-- The owner has the lock exactly while it scans with it, and a segment is in the directory
only between its creation and its removal. -/
structure ShmSegment.Inv (s : ShmSegment) : Prop where
  owner : s.holder = some .owner ↔ s.owner = .scanning true
  unlinked : s.owner = .idle ∨ (∃ ok, s.owner = .closed ok) → s.linked = false

inductive ShmSegment.OwnMove (now : ℕ) (s : ShmSegment) : OwnerEvent → ShmSegment → Prop
  | stay (e : OwnerEvent) : OwnMove now s e s
  | create (h : s.owner = .idle) :
    OwnMove now s .create { s with owner := .created, linked := true, mtime := now }
  | lock (h : s.owner = .created) (hfree : s.holder = none) :
    OwnMove now s (.lock true) { s with owner := .scanning true, holder := some .owner }
  | unlocked (h : s.owner = .created) :
    OwnMove now s (.lock false) { s with owner := .scanning false }
  | resize (h : ∃ locked, s.owner = .scanning locked) : OwnMove now s .resize { s with mtime := now }
  | detach (h : ∃ locked, s.owner = .scanning locked) :
    OwnMove now s .detach { s.release .owner with owner := .detached }
  | close (e : OwnerEvent) (ok : Bool) (he : e ≠ .detach) :
    OwnMove now s e { s.release .owner with owner := .closed ok, linked := false }
  | die (h : s.owner ≠ .detached) (hopen : ∀ ok, s.owner ≠ .closed ok) :
    OwnMove now s .die { s.release .owner with owner := .died }

theorem ShmSegment.own_move (e : OwnerEvent) : OwnMove now s e (s.own now e) := by
  unfold ShmSegment.own
  split
  · rename_i h
    exact .create h
  · rename_i h
    split_ifs with hfree
    · exact .lock h hfree
    · exact .stay _
  · rename_i h
    exact .unlocked h
  · rename_i locked h
    exact .resize ⟨locked, h⟩
  · rename_i locked h
    exact .detach ⟨locked, h⟩
  · exact .close _ _ nofun
  · exact .close _ _ nofun
  · exact .close _ _ nofun
  · exact .close _ _ nofun
  · rename_i h
    exact .die (h ▸ nofun) (h ▸ nofun)
  · rename_i h
    exact .die (h ▸ nofun) (h ▸ nofun)
  · rename_i h
    exact .die (h ▸ nofun) (h ▸ nofun)
  · exact .stay _

variable {e : OwnerEvent} {s' : ShmSegment}

theorem ShmSegment.OwnMove.inv (h : s.Inv) (hmove : s.OwnMove now e s') : s'.Inv := by
  have hreleased : (s.release .owner).holder ≠ some .owner := fun hx =>
    (ShmSegment.release_holder.mp hx).2 rfl
  cases hmove with
  | stay => exact h
  | create howner =>
    refine ⟨⟨fun hx => ?_, nofun⟩, nofun⟩
    cases howner.symm.trans (h.owner.mp hx)
  | lock => exact ⟨⟨fun _ => rfl, fun _ => rfl⟩, nofun⟩
  | unlocked howner =>
    refine ⟨⟨fun hx => ?_, nofun⟩, nofun⟩
    cases howner.symm.trans (h.owner.mp hx)
  | resize => exact ⟨h.owner, h.unlinked⟩
  | detach => exact ⟨⟨fun hx => absurd hx hreleased, nofun⟩, nofun⟩
  | close => exact ⟨⟨fun hx => absurd hx hreleased, nofun⟩, fun _ => rfl⟩
  | die => exact ⟨⟨fun hx => absurd hx hreleased, nofun⟩, nofun⟩

theorem ShmSegment.OwnMove.reaper (hmove : s.OwnMove now e s') (r : ℕ) :
    s'.holder = some (.reaper r) ↔ s.holder = some (.reaper r) := by
  have hreleased : (s.release .owner).holder = some (.reaper r) ↔ s.holder = some (.reaper r) :=
    ShmSegment.release_holder.trans (and_iff_left nofun)
  cases hmove with
  | stay | create | unlocked | resize => rfl
  | lock howner hfree =>
    rw [hfree]
    exact ⟨nofun, nofun⟩
  | detach | close | die => exact hreleased

end Segments

def Reaper.Locks (x : Reaper) (n : SegmentId) : Prop := x = .locked n ∨ x = .unlinked n

def Reaper.Has (x : Reaper) (n : SegmentId) : Prop := x = .aged n ∨ x = .opened n ∨ x.Locks n

theorem Reaper.has_iff {x : Reaper} {n : SegmentId} :
    x.Has n ↔ x = .aged n ∨ x = .opened n ∨ x = .locked n ∨ x = .unlinked n :=
  Iff.rfl

theorem Reaper.not_has_idle (n : SegmentId) : ¬ Reaper.idle.Has n := by
  rw [Reaper.has_iff]
  rintro (h | h | h | h) <;> cases h

def SegmentOwner.Active (x : SegmentOwner) : Prop :=
  x = .created ∨ (∃ locked, x = .scanning locked) ∨ x = .detached

namespace SharedMemory

section Inv

variable {kinds : ℕ → BuildKind} {minAge : ℕ} {s : SharedMemory} {n : SegmentId} {r : ℕ}

structure Inv (s : SharedMemory) : Prop where
  seg : ∀ n, (s.segs n).Inv
  reaper : ∀ n r, (s.segs n).holder = some (.reaper r) ↔ (s.reapers r).Locks n

/-- No reaper works on a segment in a window. -/
structure Clear (s : SharedMemory) : Prop where
  created : ∀ r n, (s.reapers r).Has n → (s.segs n).owner ≠ .idle
  window : ∀ r n, (s.reapers r).Has n → ¬ s.InWindow n
  linked : ∀ n, s.phase n.build ≠ .over → (s.segs n).owner.Active → (s.segs n).linked = true

theorem inv_start : start.Inv where
  seg _ := ⟨⟨nofun, nofun⟩, fun _ => rfl⟩
  reaper _ _ := ⟨nofun, fun h => h.elim nofun nofun⟩

theorem clear_start : start.Clear where
  created _ n h := absurd h (Reaper.not_has_idle n)
  window _ n h := absurd h (Reaper.not_has_idle n)
  linked _ _ h := h.elim nofun (·.elim (fun ⟨_, h⟩ => nomatch h) nofun)

theorem Inv.setReaper (h : s.Inv) {x : Reaper} (hx : ∀ n, x.Locks n ↔ (s.reapers r).Locks n) :
    (s.setReaper r x).Inv where
  seg := h.seg
  reaper n q := by
    refine (h.reaper n q).trans ?_
    simp only [SharedMemory.setReaper]
    by_cases hq : q = r
    · rw [hq, update_self, hx]
    · rw [update_of_ne hq]

theorem Inv.setSegment (h : s.Inv) {x : Reaper} {seg : ShmSegment} (hseg : seg.Inv)
    (hreaper : seg.holder = some (.reaper r) ↔ x.Locks n)
    (hother : ∀ q, q ≠ r →
      (seg.holder = some (.reaper q) ↔ (s.segs n).holder = some (.reaper q)))
    (hmoved : ∀ m, m ≠ n → ¬ x.Locks m ∧ ¬ (s.reapers r).Locks m) :
    ((s.setSegment n seg).setReaper r x).Inv where
  seg m := by
    by_cases hm : m = n
    · subst hm
      simpa [SharedMemory.setReaper, SharedMemory.setSegment] using hseg
    · simpa [SharedMemory.setReaper, SharedMemory.setSegment, hm] using h.seg m
  reaper m q := by
    have hold := h.reaper m q
    simp only [SharedMemory.setReaper, SharedMemory.setSegment]
    by_cases hm : m = n
    · subst hm
      rw [update_self]
      by_cases hq : q = r
      · rw [hq, update_self]
        exact hreaper
      · rw [update_of_ne hq]
        exact (hother q hq).trans hold
    · rw [update_of_ne hm]
      by_cases hq : q = r
      · rw [hq, update_self]
        rw [hq] at hold
        exact hold.trans (iff_of_false (hmoved m hm).2 (hmoved m hm).1)
      · rw [update_of_ne hq]
        exact hold

theorem Inv.free (h : s.Inv) (hr : (s.reapers r).Locks n) :
    ((s.setSegment n ((s.segs n).release (.reaper r))).setReaper r .idle).Inv := by
  have hholder : (s.segs n).holder = some (.reaper r) := (h.reaper n r).mpr hr
  refine h.setSegment ⟨⟨fun hx => ?_, fun hx => ?_⟩, ?_⟩ ?_ ?_ fun m hm => ⟨?_, ?_⟩
  · rw [ShmSegment.release_owner]
    exact (h.seg n).owner.mp (ShmSegment.release_holder.mp hx).1
  · rw [ShmSegment.release_owner] at hx
    cases hholder.symm.trans ((h.seg n).owner.mpr hx)
  · rw [ShmSegment.release_owner, ShmSegment.release_linked]
    exact (h.seg n).unlinked
  · exact iff_of_false (fun hx => (ShmSegment.release_holder.mp hx).2 rfl) (·.elim nofun nofun)
  · intro q hq
    refine ShmSegment.release_holder.trans (and_iff_left fun heq => hq ?_)
    cases heq
    rfl
  · exact (·.elim nofun nofun)
  · intro hm'
    rcases hr with hr | hr <;> rw [hr] at hm' <;> rcases hm' with hm' | hm' <;> cases hm' <;>
      exact hm rfl

theorem Inv.reapStep (h : s.Inv) (r : ℕ) : (s.reapStep r).Inv := by
  unfold SharedMemory.reapStep
  split
  · exact h
  · rename_i n hr
    refine h.setReaper fun m => ?_
    rw [hr]
    split_ifs
    · exact iff_of_false (·.elim nofun nofun) (·.elim nofun nofun)
    · exact iff_of_false (·.elim nofun nofun) (·.elim nofun nofun)
  · rename_i n hr
    split_ifs with hfree
    · refine h.setSegment ⟨⟨nofun, fun hx => ?_⟩, (h.seg n).unlinked⟩ ?_ ?_ fun m hm => ⟨?_, ?_⟩
      · cases hfree.symm.trans ((h.seg n).owner.mpr hx)
      · exact ⟨fun _ => .inl rfl, fun _ => rfl⟩
      · intro q hq
        rw [hfree]
        refine iff_of_false (fun hx => hq ?_) nofun
        cases hx
        rfl
      · rintro (hx | hx) <;> cases hx
        exact hm rfl
      · rw [hr]
        exact (·.elim nofun nofun)
    · refine h.setReaper fun m => ?_
      rw [hr]
      exact iff_of_false (·.elim nofun nofun) (·.elim nofun nofun)
  · rename_i n hr
    have hholder : (s.segs n).holder = some (.reaper r) := (h.reaper n r).mpr (.inl hr)
    refine h.setSegment ⟨(h.seg n).owner, fun _ => rfl⟩ ?_ (fun _ _ => Iff.rfl) fun m hm => ⟨?_, ?_⟩
    · exact iff_of_true hholder (.inr rfl)
    · rintro (hx | hx) <;> cases hx
      exact hm rfl
    · rw [hr]
      rintro (hx | hx) <;> cases hx
      exact hm rfl
  · rename_i n hr
    exact h.free (.inr hr)

theorem Inv.reaperDies (h : s.Inv) (r : ℕ) : (s.reaperDies r).Inv := by
  unfold SharedMemory.reaperDies
  split
  · rename_i n hr
    exact h.free (.inl hr)
  · rename_i n hr
    exact h.free (.inr hr)
  · rename_i hlocked hunlinked
    refine h.setReaper fun m => iff_of_false (·.elim nofun nofun) ?_
    exact (·.elim (hlocked m) (hunlinked m))

theorem Inv.ownStep (h : s.Inv) (n : SegmentId) (e : OwnerEvent) : (s.ownStep kinds n e).Inv := by
  unfold SharedMemory.ownStep
  by_cases howns : owns kinds n e
  · rw [if_pos howns]
    have hmove : (s.segs n).OwnMove s.now e ((s.segs n).own s.now e) := ShmSegment.own_move e
    refine ⟨fun m => ?_, fun m r => ?_⟩
    · by_cases hm : m = n
      · subst hm
        simpa using hmove.inv (h.seg m)
      · simpa [hm] using h.seg m
    · by_cases hm : m = n
      · subst hm
        simpa using (hmove.reaper r).trans (h.reaper m r)
      · simpa [hm] using h.reaper m r
  · rw [if_neg howns]
    exact h

theorem Inv.buildStep (h : s.Inv) (b : ℕ) (e : BuildEvent) : (s.buildStep kinds b e).Inv := by
  have hphase : ∀ p, (s.setPhase b p).Inv := fun p => ⟨h.seg, h.reaper⟩
  have hfinish : Inv { s.setPhase b .over with
      segs := fun n => if n.build = b then { s.segs n with linked := false } else s.segs n } := by
    refine ⟨fun n => ?_, fun n r => ?_⟩
    · simp only
      split_ifs
      · exact ⟨(h.seg n).owner, fun _ => rfl⟩
      · exact h.seg n
    · simp only
      split_ifs
      · exact h.reaper n r
      · exact h.reaper n r
  cases e with
  | send =>
    simp only [SharedMemory.buildStep]
    split_ifs
    · exact hphase _
    · exact hphase _
    · exact h
  | daemon =>
    simp only [SharedMemory.buildStep]
    split
    · split_ifs
      · exact hphase _
      · exact hphase _
      · exact h
    · exact h
  | finish =>
    simp only [SharedMemory.buildStep]
    split
    · exact hfinish
    · exact hfinish
    · exact h
  | abandon =>
    simp only [SharedMemory.buildStep]
    split
    · exact hphase _
    · exact hphase _
    · exact h

theorem Inv.step (h : s.Inv) (e : ShmEvent) : (s.step kinds minAge e).Inv := by
  cases e with
  | tick => exact ⟨h.seg, h.reaper⟩
  | own n e => exact h.ownStep n e
  | build b e => exact h.buildStep b e
  | look r n =>
    simp only [SharedMemory.step, lookStep]
    split_ifs with hlook
    · refine h.setReaper fun m => ?_
      rw [hlook.1]
      exact iff_of_false (·.elim nofun nofun) (·.elim nofun nofun)
    · exact h
  | reap r => exact h.reapStep r
  | reaperDies r => exact h.reaperDies r

end Inv

section Clear

variable {kinds : ℕ → BuildKind} {minAge : ℕ} {s s' : SharedMemory} {n : SegmentId} {r b : ℕ}
  {e : OwnerEvent}

theorem Clear.frame (h : s.Clear) (howner : ∀ n, (s'.segs n).owner = (s.segs n).owner)
    (hphase : ∀ b, s.phase b = .over → s'.phase b = .over)
    (hlinked : ∀ n, s'.phase n.build ≠ .over → (s.segs n).owner.Active →
      (s.segs n).linked = true → (s'.segs n).linked = true)
    (hreapers : ∀ r n, (s'.reapers r).Has n → (s.reapers r).Has n) : s'.Clear where
  created r n hr := by
    rw [howner]
    exact h.created r n (hreapers r n hr)
  window r n hr hwindow := by
    refine h.window r n (hreapers r n hr) ⟨fun hover => hwindow.1 (hphase _ hover), ?_⟩
    rw [← howner]
    exact hwindow.2
  linked n hover hactive := by
    rw [howner] at hactive
    exact hlinked n hover hactive (h.linked n (fun hx => hover (hphase _ hx)) hactive)

theorem Clear.setPhase (h : s.Clear) {b : ℕ} {p : BuildPhase} (hp : s.phase b ≠ .over ∨ p = .over) :
    (s.setPhase b p).Clear := by
  refine h.frame (fun _ => rfl) (fun b' hover => ?_) (fun _ _ _ hl => hl) fun _ _ hr => hr
  by_cases hb : b' = b
  · rw [hb] at hover
    rcases hp with hne | rfl
    · exact absurd hover hne
    · rw [hb, SharedMemory.setPhase]
      exact update_self ..
  · simpa [SharedMemory.setPhase, hb] using hover

theorem Clear.setReaper (h : s.Clear) {x : Reaper}
    (hx : ∀ n, x.Has n → (s.reapers r).Has n) : (s.setReaper r x).Clear := by
  refine h.frame (fun _ => rfl) (fun _ hover => hover) (fun _ _ _ hl => hl) fun q n hq => ?_
  simp only [SharedMemory.setReaper] at hq
  by_cases hqr : q = r
  · rw [hqr, update_self] at hq
    exact hqr ▸ hx n hq
  · rwa [update_of_ne hqr] at hq

theorem spent_of_locked (hinv : s.Inv) (h : s.Clear) (hr : s.reapers r = .locked n) :
    s.phase n.build = .over ∨ ¬ (s.segs n).owner.Active := by
  by_contra hlive
  obtain ⟨hover, hactive⟩ := not_or.mp hlive
  rcases not_not.mp hactive with hcreated | ⟨locked, hscan⟩ | hdetached
  · exact h.window r n (.inr (.inr (.inl hr))) ⟨hover, .inl hcreated⟩
  · cases locked with
    | false => exact h.window r n (.inr (.inr (.inl hr))) ⟨hover, .inr (.inl hscan)⟩
    | true =>
      cases ((hinv.reaper n r).mpr (.inl hr)).symm.trans ((hinv.seg n).owner.mpr hscan)
  · exact h.window r n (.inr (.inr (.inl hr))) ⟨hover, .inr (.inr hdetached)⟩

theorem Clear.unlinksSpent (hinv : s.Inv) (h : s.Clear) (e : ShmEvent) : s.UnlinksSpent e := by
  cases e with
  | reap r =>
    intro n hr hlinked
    rcases spent_of_locked hinv h hr with hover | hactive
    · exact .inr hover
    · left
      cases howner : (s.segs n).owner with
      | died => rfl
      | idle =>
        cases hlinked.symm.trans ((hinv.seg n).unlinked (.inl howner))
      | closed ok =>
        cases hlinked.symm.trans ((hinv.seg n).unlinked (.inr ⟨ok, howner⟩))
      | created => exact absurd (.inl howner) hactive
      | scanning locked => exact absurd (.inr (.inl ⟨locked, howner⟩)) hactive
      | detached => exact absurd (.inr (.inr howner)) hactive
  | _ => trivial

theorem Clear.setSegment (h : s.Clear) {x : Reaper} {seg : ShmSegment}
    (howner : seg.owner = (s.segs n).owner)
    (hlinked : s.phase n.build ≠ .over → (s.segs n).owner.Active →
      (s.segs n).linked = true → seg.linked = true)
    (hx : ∀ m, x.Has m → (s.reapers r).Has m) :
    ((s.setSegment n seg).setReaper r x).Clear := by
  have hseg : (s.setSegment n seg).Clear := by
    refine h.frame (fun m => ?_) (fun _ hover => hover) (fun m => ?_) fun _ _ hr => hr
    · by_cases hm : m = n
      · subst hm
        simpa [SharedMemory.setSegment] using howner
      · simp [SharedMemory.setSegment, hm]
    · by_cases hm : m = n
      · subst hm
        simpa [SharedMemory.setSegment] using hlinked
      · simp [SharedMemory.setSegment, hm]
  exact hseg.setReaper hx

theorem Clear.reapStep (hinv : s.Inv) (h : s.Clear) (r : ℕ) : (s.reapStep r).Clear := by
  have hidle : ∀ m, Reaper.idle.Has m → (s.reapers r).Has m := fun m hm =>
    absurd hm (Reaper.not_has_idle m)
  unfold SharedMemory.reapStep
  split
  · exact h
  · rename_i n hr
    refine h.setReaper fun m hm => ?_
    split_ifs at hm
    · rcases hm with hm | hm | hm | hm <;> cases hm
      exact .inl hr
    · exact hidle m hm
  · rename_i n hr
    split_ifs
    · refine h.setSegment rfl (fun _ _ hl => hl) fun m hm => ?_
      rcases hm with hm | hm | hm | hm <;> cases hm
      exact .inr (.inl hr)
    · exact h.setReaper hidle
  · rename_i n hr
    refine h.setSegment rfl (fun hover hactive _ => ?_) fun m hm => ?_
    · rcases spent_of_locked hinv h hr with hx | hx
      · exact absurd hx hover
      · exact absurd hactive hx
    · rcases hm with hm | hm | hm | hm <;> cases hm
      exact .inr (.inr (.inl hr))
  · rename_i n hr
    exact h.setSegment (ShmSegment.release_owner ..)
      (fun _ _ hl => (ShmSegment.release_linked ..).trans hl) hidle

theorem Clear.reaperDies (h : s.Clear) (r : ℕ) : (s.reaperDies r).Clear := by
  have hidle : ∀ m, Reaper.idle.Has m → (s.reapers r).Has m := fun m hm =>
    absurd hm (Reaper.not_has_idle m)
  unfold SharedMemory.reaperDies
  split
  · exact h.setSegment (ShmSegment.release_owner ..)
      (fun _ _ hl => (ShmSegment.release_linked ..).trans hl) hidle
  · exact h.setSegment (ShmSegment.release_owner ..)
      (fun _ _ hl => (ShmSegment.release_linked ..).trans hl) hidle
  · exact h.setReaper hidle

theorem Clear.look (hinv : s.Inv) (h : s.Clear) (hprompt : s.Prompt kinds minAge (.look r n)) :
    (s.lookStep minAge r n).Clear := by
  unfold lookStep
  split_ifs with hlook
  · obtain ⟨hidle, hlinked, hold⟩ := hlook
    have hnew : (s.segs n).owner ≠ .idle ∧ ¬ s.InWindow n := by
      refine ⟨fun hx => ?_, fun hx => ?_⟩
      · cases hlinked.symm.trans ((hinv.seg n).unlinked (.inl hx))
      · exact absurd (hprompt hidle hx) (Nat.not_lt.mpr hold)
    have hhas : ∀ q m, ((s.setReaper r (.aged n)).reapers q).Has m →
        (s.reapers q).Has m ∨ m = n := by
      intro q m hq
      simp only [SharedMemory.setReaper] at hq
      by_cases hqr : q = r
      · rw [hqr, update_self] at hq
        rcases hq with hq | hq | hq | hq <;> cases hq
        exact .inr rfl
      · rw [update_of_ne hqr] at hq
        exact .inl hq
    refine ⟨fun q m hq => ?_, fun q m hq => ?_, h.linked⟩
    · rcases hhas q m hq with hq | rfl
      · exact h.created q m hq
      · exact hnew.1
    · rcases hhas q m hq with hq | rfl
      · exact h.window q m hq
      · exact hnew.2
  · exact h

theorem ownStep_phase (hover : (s.ownStep kinds n e).phase b ≠ .over) : s.phase b ≠ .over := by
  unfold SharedMemory.ownStep at hover
  intro hold
  apply hover
  split_ifs
  · by_cases hb : b = n.build
    · simp [hb]
    · simpa [hb] using hold
  · exact hold
  · exact hold

theorem Clear.ownMove (hinv : s.Inv) (h : s.Clear) {e : OwnerEvent} {seg : ShmSegment}
    (hmove : (s.segs n).OwnMove s.now e seg) (howns : owns kinds n e)
    (hprompt : s.Prompt kinds minAge (.own n e)) :
    (∀ r, (s.reapers r).Has n → seg.owner ≠ .idle ∧
      (s.phase n.build ≠ .over →
        seg.owner ≠ .created ∧ seg.owner ≠ .scanning false ∧ seg.owner ≠ .detached)) ∧
    (s.phase n.build ≠ .over → seg.owner.Active → seg.linked = true) := by
  have hclear : ∀ r, (s.reapers r).Has n → s.phase n.build ≠ .over →
      (s.segs n).owner ≠ .created ∧ (s.segs n).owner ≠ .scanning false ∧
        (s.segs n).owner ≠ .detached := by
    intro r hr hover
    have hout := h.window r n hr
    exact ⟨fun hx => hout ⟨hover, .inl hx⟩, fun hx => hout ⟨hover, .inr (.inl hx)⟩,
      fun hx => hout ⟨hover, .inr (.inr hx)⟩⟩
  cases hmove with
  | stay => exact ⟨fun r hr => ⟨h.created r n hr, hclear r hr⟩, h.linked n⟩
  | create hidle => exact ⟨fun r hr => absurd hidle (h.created r n hr), fun _ _ => rfl⟩
  | lock hcreated =>
    exact ⟨fun _ _ => ⟨nofun, fun _ => ⟨nofun, nofun, nofun⟩⟩,
      fun hover _ => h.linked n hover (.inl hcreated)⟩
  | unlocked hcreated =>
    exact ⟨fun r hr => ⟨nofun, fun hover => absurd hcreated (hclear r hr hover).1⟩,
      fun hover _ => h.linked n hover (.inl hcreated)⟩
  | resize hscan =>
    exact ⟨fun r hr => ⟨h.created r n hr, hclear r hr⟩,
      fun hover _ => h.linked n hover (.inr (.inl hscan))⟩
  | detach hscan =>
    refine ⟨fun r hr => ⟨nofun, fun hover => ?_⟩, fun hover _ => ?_⟩
    · -- the lock is free only now, and no reaper has the segment
      obtain ⟨locked, hscan⟩ := hscan
      cases locked with
      | false => exact absurd hscan (hclear r hr hover).2.1
      | true =>
        have hnone := hprompt howns hover hscan r
        rcases hr with hr | hr | hr
        · exact absurd hr hnone.1
        · exact absurd hr hnone.2
        · cases ((hinv.reaper n r).mpr hr).symm.trans ((hinv.seg n).owner.mpr hscan)
    · rw [ShmSegment.release_linked]
      exact h.linked n hover (.inr (.inl hscan))
  | close => exact ⟨fun _ _ => ⟨nofun, fun _ => ⟨nofun, nofun, nofun⟩⟩, fun _ hx =>
      hx.elim nofun (·.elim (fun ⟨_, hx⟩ => nomatch hx) nofun)⟩
  | die => exact ⟨fun _ _ => ⟨nofun, fun _ => ⟨nofun, nofun, nofun⟩⟩, fun _ hx =>
      hx.elim nofun (·.elim (fun ⟨_, hx⟩ => nomatch hx) nofun)⟩

theorem Clear.ownStep (hinv : s.Inv) (h : s.Clear) {e : OwnerEvent}
    (hprompt : s.Prompt kinds minAge (.own n e)) : (s.ownStep kinds n e).Clear := by
  have hphase : ∀ b, (s.ownStep kinds n e).phase b ≠ .over → s.phase b ≠ .over := fun b =>
    ownStep_phase
  by_cases howns : owns kinds n e
  · have hmove : (s.segs n).OwnMove s.now e ((s.segs n).own s.now e) := ShmSegment.own_move e
    obtain ⟨hhas, hlinked⟩ := h.ownMove hinv hmove howns hprompt
    have hsegs : (s.ownStep kinds n e).segs = update s.segs n ((s.segs n).own s.now e) := by
      rw [SharedMemory.ownStep, if_pos howns]
    have hreapers : (s.ownStep kinds n e).reapers = s.reapers := by
      rw [SharedMemory.ownStep, if_pos howns]
    refine ⟨fun r m hr => ?_, fun r m hr hwindow => ?_, fun m hover hactive => ?_⟩
    · rw [hreapers] at hr
      rw [hsegs]
      by_cases hm : m = n
      · subst hm
        rw [update_self]
        exact (hhas r hr).1
      · rw [update_of_ne hm]
        exact h.created r m hr
    · rw [hreapers] at hr
      obtain ⟨hover, hwindow⟩ := hwindow
      rw [hsegs] at hwindow
      by_cases hm : m = n
      · subst hm
        rw [update_self] at hwindow
        obtain ⟨hcreated, hscan, hdetached⟩ := (hhas r hr).2 (hphase _ hover)
        exact hwindow.elim hcreated (·.elim hscan hdetached)
      · rw [update_of_ne hm] at hwindow
        exact h.window r m hr ⟨hphase _ hover, hwindow⟩
    · rw [hsegs] at hactive ⊢
      by_cases hm : m = n
      · subst hm
        rw [update_self] at hactive ⊢
        exact hlinked (hphase _ hover) hactive
      · rw [update_of_ne hm] at hactive ⊢
        exact h.linked m (hphase _ hover) hactive
  · rw [SharedMemory.ownStep, if_neg howns]
    exact h

theorem Clear.buildStep (h : s.Clear) (b : ℕ) (e : BuildEvent) : (s.buildStep kinds b e).Clear := by
  have hfinish : s.phase b ≠ .over → Clear { s.setPhase b .over with
      segs := fun n => if n.build = b then { s.segs n with linked := false } else s.segs n } := by
    intro hover
    refine (h.setPhase (b := b) (p := .over) (.inr rfl)).frame (fun n => ?_) (fun _ hx => hx)
      (fun n hx _ hl => ?_) fun _ _ hr => hr
    · simp only
      split_ifs <;> rfl
    · by_cases hb : n.build = b
      · refine absurd ?_ hx
        simp [SharedMemory.setPhase, hb]
      · simp only
        rw [if_neg hb]
        exact hl
  cases e with
  | send =>
    simp only [SharedMemory.buildStep]
    split_ifs with hsend
    · exact h.setPhase (.inl (hsend.2.1 ▸ nofun))
    · exact h.setPhase (.inr rfl)
    · exact h
  | daemon =>
    simp only [SharedMemory.buildStep]
    split
    · rename_i k hk
      split_ifs
      · exact h.setPhase (.inl (hk ▸ nofun))
      · exact h.setPhase (.inl (hk ▸ nofun))
      · exact h
    · exact h
  | finish =>
    simp only [SharedMemory.buildStep]
    split
    · rename_i k hk
      exact hfinish (hk ▸ nofun)
    · rename_i hk
      exact hfinish (hk ▸ nofun)
    · exact h
  | abandon =>
    simp only [SharedMemory.buildStep]
    split
    · exact h.setPhase (.inr rfl)
    · exact h.setPhase (.inr rfl)
    · exact h

theorem Clear.step (hinv : s.Inv) (h : s.Clear) {e : ShmEvent}
    (hprompt : s.Prompt kinds minAge e) : (s.step kinds minAge e).Clear := by
  cases e with
  | tick => exact h.frame (fun _ => rfl) (fun _ hx => hx) (fun _ _ _ hl => hl) fun _ _ hr => hr
  | own n e => exact h.ownStep hinv hprompt
  | build b e => exact h.buildStep b e
  | look r n => exact h.look hinv hprompt
  | reap r => exact h.reapStep hinv r
  | reaperDies r => exact h.reaperDies r

end Clear

section Run

variable {kinds : ℕ → BuildKind} {minAge : ℕ} {s : SharedMemory} {n : SegmentId} {r : ℕ}

theorem unlocked_of_inWindow (hinv : s.Inv) (h : s.Clear) (hwindow : s.InWindow n) :
    (s.segs n).linked = true ∧ (s.segs n).holder = none := by
  obtain ⟨hover, howner⟩ := hwindow
  refine ⟨h.linked n hover ?_, ?_⟩
  · rcases howner with hx | hx | hx
    · exact .inl hx
    · exact .inr (.inl ⟨false, hx⟩)
    · exact .inr (.inr hx)
  · cases hholder : (s.segs n).holder with
    | none => rfl
    | some x =>
      cases x with
      | owner =>
        have hscan := (hinv.seg n).owner.mp hholder
        rw [hscan] at howner
        rcases howner with hx | hx | hx <;> cases hx
      | reaper q => exact absurd ⟨hover, howner⟩ (h.window q n (.inr (.inr ((hinv.reaper n q).mp hholder))))

/-- A reaper that has a segment in a window and goes on at once removes it. -/
theorem removes_opened (hr : s.reapers r = .opened n) (hfree : (s.segs n).holder = none)
    (hlinked : (s.segs n).linked = true) (hwindow : s.InWindow n) :
    ¬ Along (step kinds minAge) UnlinksSpent s [.reap r, .reap r] := by
  rintro ⟨-, hsafe, -⟩
  have hstep : s.step kinds minAge (.reap r) =
      (s.setSegment n { s.segs n with holder := some (.reaper r) }).setReaper r (.locked n) := by
    simp only [step, SharedMemory.reapStep, hr, if_pos hfree]
  rw [hstep] at hsafe
  have hspent := hsafe n (by simp [SharedMemory.setReaper])
    (by simpa [SharedMemory.setReaper, SharedMemory.setSegment] using hlinked)
  obtain ⟨hover, howner⟩ := hwindow
  rcases hspent with hdied | hx
  · have hdied' : (s.segs n).owner = .died := by
      simpa [SharedMemory.setReaper, SharedMemory.setSegment] using hdied
    rw [hdied'] at howner
    rcases howner with hx | hx | hx <;> cases hx
  · exact hover hx

theorem removes_aged (hr : s.reapers r = .aged n) (hfree : (s.segs n).holder = none)
    (hlinked : (s.segs n).linked = true) (hwindow : s.InWindow n) :
    ¬ Along (step kinds minAge) UnlinksSpent s [.reap r, .reap r, .reap r] := by
  rintro ⟨-, hsafe⟩
  have hstep : s.step kinds minAge (.reap r) = s.setReaper r (.opened n) := by
    simp only [step, SharedMemory.reapStep, hr, if_pos hlinked]
  rw [hstep] at hsafe
  refine removes_opened (n := n) ?_ ?_ ?_ ?_ hsafe
  · simp [SharedMemory.setReaper]
  · exact hfree
  · exact hlinked
  · exact hwindow

theorem removes_of_not_prompt (hinv : s.Inv) (h : s.Clear) {e : ShmEvent}
    (hlate : ¬ s.Prompt kinds minAge e) :
    ∃ r, ¬ Along (step kinds minAge) UnlinksSpent (s.step kinds minAge e)
      [.reap r, .reap r, .reap r] := by
  cases e with
  | look r n =>
    obtain ⟨hidle, hlate⟩ := Classical.not_imp.mp hlate
    obtain ⟨hwindow, hold⟩ := Classical.not_imp.mp hlate
    obtain ⟨hlinked, hfree⟩ := unlocked_of_inWindow hinv h hwindow
    have hstep : s.step kinds minAge (.look r n) = s.setReaper r (.aged n) := by
      simp only [step, lookStep, if_pos (And.intro hidle (And.intro hlinked (Nat.not_lt.mp hold)))]
    rw [hstep]
    exact ⟨r, removes_aged (n := n) (by simp [SharedMemory.setReaper]) hfree hlinked hwindow⟩
  | own n e =>
    cases e with
    | detach =>
      obtain ⟨howns, hlate⟩ := Classical.not_imp.mp hlate
      obtain ⟨hover, hlate⟩ := Classical.not_imp.mp hlate
      obtain ⟨hscan, hlate⟩ := Classical.not_imp.mp hlate
      obtain ⟨r, hr⟩ := not_forall.mp hlate
      have hr' : s.reapers r = .aged n ∨ s.reapers r = .opened n := by
        by_contra hneither
        exact hr (not_or.mp hneither)
      have hsegs : (s.step kinds minAge (.own n .detach)).segs n
          = { (s.segs n).release .owner with owner := .detached } := by
        simp only [step, SharedMemory.ownStep, if_pos howns, update_self, ShmSegment.own, hscan]
      have hphase : (s.step kinds minAge (.own n .detach)).phase = s.phase := by
        simp [step, SharedMemory.ownStep, howns, endsBuild]
      have hreapers : (s.step kinds minAge (.own n .detach)).reapers = s.reapers := by
        simp only [step, SharedMemory.ownStep, if_pos howns]
      have hlinked : ((s.step kinds minAge (.own n .detach)).segs n).linked = true := by
        rw [hsegs, ShmSegment.release_linked]
        exact h.linked n hover (.inr (.inl ⟨true, hscan⟩))
      have hfree : ((s.step kinds minAge (.own n .detach)).segs n).holder = none := by
        rw [hsegs, ShmSegment.release, if_pos ((hinv.seg n).owner.mpr hscan)]
      have hwindow : (s.step kinds minAge (.own n .detach)).InWindow n := by
        rw [InWindow, hphase, hsegs]
        exact ⟨hover, .inr (.inr rfl)⟩
      refine ⟨r, ?_⟩
      -- the reaper is past the age test, and the lock it would have met is gone
      rcases hr' with hr | hr
      · exact removes_aged (hreapers ▸ hr) hfree hlinked hwindow
      · rintro ⟨hlock, hunlink, -⟩
        exact removes_opened (hreapers ▸ hr) hfree hlinked hwindow ⟨hlock, hunlink, trivial⟩
    | _ => exact absurd trivial hlate
  | _ => exact absurd trivial hlate

/-- While the looks are prompt the reaper unlinks only what is spent; and only then, if every reaper
may go on at any moment. -/
theorem reaper_safe_iff (kinds : ℕ → BuildKind) (minAge : ℕ) (events : List ShmEvent) :
    (Along (step kinds minAge) (Prompt kinds minAge) start events →
      Along (step kinds minAge) UnlinksSpent start events) ∧
    ((∀ pre, pre <+: events → ∀ r,
        Along (step kinds minAge) UnlinksSpent start (pre ++ [.reap r, .reap r, .reap r])) ↔
      Along (step kinds minAge) (Prompt kinds minAge) start events) := by
  have hstep : ∀ (s : SharedMemory) e, s.Inv ∧ s.Clear → s.Prompt kinds minAge e →
      (s.step kinds minAge e).Inv ∧ (s.step kinds minAge e).Clear := fun s e hs hprompt =>
    ⟨hs.1.step e, hs.2.step hs.1 hprompt⟩
  have hsafe : ∀ es, Along (step kinds minAge) (Prompt kinds minAge) start es →
      Along (step kinds minAge) UnlinksSpent start es := fun es =>
    along_invariant (fun s => s.Inv ∧ s.Clear) hstep (fun s e hs _ => hs.2.unlinksSpent hs.1 e)
      ⟨inv_start, clear_start⟩
  refine ⟨hsafe events, fun h => ?_, fun hprompt pre hpre r => ?_⟩
  · by_contra hlate
    obtain ⟨pre, e, post, rfl, hpre, he⟩ := exists_first_not_along hlate
    obtain ⟨hinv, hclear⟩ :=
      run_invariant (fun s => s.Inv ∧ s.Clear) hstep ⟨inv_start, clear_start⟩ hpre
    obtain ⟨r, hr⟩ := removes_of_not_prompt hinv hclear he
    have hrun := (along_append.mp (h (pre ++ [e]) (by simp) r)).2
    rw [run_append] at hrun
    exact hr hrun
  · obtain ⟨post, rfl⟩ := hpre
    refine hsafe _ (along_append.mpr ⟨(along_append.mp hprompt).1, ?_⟩)
    exact ⟨trivial, trivial, trivial, trivial⟩

def slowLeader : List ShmEvent :=
  [.own ⟨0, 0⟩ .create, .own ⟨0, 0⟩ (.lock true), .own ⟨0, 0⟩ .resize, .own ⟨0, 0⟩ .detach,
    .own ⟨0, 1⟩ .create, .own ⟨0, 1⟩ (.lock true)] ++
  List.replicate 10 .tick ++ [.look 0 ⟨0, 0⟩, .reap 0, .reap 0]

/-- The leader scans for ten seconds more than its worker; a backend starts, and the daemon
does not find the worker's segment. -/
theorem reaper_unlinks_live :
    ¬ Along (step (fun _ => .parallel 2) 10) UnlinksSpent start (slowLeader ++ [.reap 0]) ∧
      (run (step (fun _ => .parallel 2) 10) start (slowLeader ++ [.reap 0, .own ⟨0, 1⟩ .detach,
        .build 0 .send, .build 0 .daemon])).phase 0 = .refused := by
  refine ⟨fun h => ?_, by decide +kernel⟩
  have hspent := along_last h ⟨0, 0⟩ (by decide +kernel) (by decide +kernel)
  have hlive : ((run (step (fun _ => .parallel 2) 10) start slowLeader).segs ⟨0, 0⟩).owner ≠ .died ∧
      (run (step (fun _ => .parallel 2) 10) start slowLeader).phase 0 ≠ .over := by
    decide +kernel
  exact hspent.elim hlive.1 hlive.2

end Run

end SharedMemory

end PgCuvs
