/-
  ZOrder.Proofs.Engine.Demotion

  Where the families go that have lost the focus. They go back one after the other, and
  each place is counted in a list that the family before has just been put into. The
  place is always directly below the family that holds the focus, or on top where that
  family is not in the band; so the families that go back to a band end up side by side,
  in the order in which they went.

  Which families go back is settled before the first one does. None of them holds the
  focus, so the family that does stays where it is, and what stays in the temporary bands
  is at most that family.
-/

import ZOrder.Proofs.Engine.Attached
import ZOrder.Proofs.Engine.Homes

namespace ZOrder

/-! ## Putting a block below a member -/

section

variable {α : Type} [DecidableEq α] {a : α} {below : List α}

/-- A list with a block put in directly below one of its members, or on top if that is none of
them. -/
def putBelow (a : α) (block l : List α) : List α :=
  l.take (l.idxOf a) ++ block ++ l.drop (l.idxOf a)

theorem putBelow_split (ha : a ∉ below) (block above : List α) :
    putBelow a block (below ++ a :: above) = below ++ block ++ a :: above := by
  rw [putBelow, List.idxOf_append_of_notMem ha, List.idxOf_cons_self, Nat.add_zero,
    List.take_left, List.drop_left]

theorem putBelow_of_notMem {l : List α} (ha : a ∉ l) (block : List α) :
    putBelow a block l = l ++ block := by
  rw [putBelow, List.idxOf_of_notMem ha, List.take_length, List.drop_length, List.append_nil]

theorem putBelow_nil (a : α) (l : List α) : putBelow a [] l = l := by
  rw [putBelow, List.append_nil, List.take_append_drop]

/-- Blocks that are put in one after the other end up side by side. -/
theorem putBelow_putBelow {xs : List α} (ha : a ∉ xs) (ys l : List α) :
    putBelow a ys (putBelow a xs l) = putBelow a (xs ++ ys) l := by
  by_cases hl : a ∈ l
  · obtain ⟨below, above, rfl, hbelow⟩ := List.eq_append_cons_of_mem hl
    rw [putBelow_split hbelow, putBelow_split (by simp [hbelow, ha]), putBelow_split hbelow,
      List.append_assoc below]
  · rw [putBelow_of_notMem hl, putBelow_of_notMem (by simp [hl, ha]), putBelow_of_notMem hl,
      List.append_assoc]

/-- Where a block is put in, the list is cut below the member, or on top. -/
theorem exists_putBelow (a : α) (block l : List α) :
    ∃ below above, l = below ++ above ∧ putBelow a block l = below ++ block ++ above ∧
      (a ∈ l → above.head? = some a) ∧ (a ∉ l → above = []) := by
  by_cases hl : a ∈ l
  · obtain ⟨below, above, rfl, hbelow⟩ := List.eq_append_cons_of_mem hl
    exact ⟨below, a :: above, rfl, putBelow_split hbelow block above, fun _ => rfl, absurd hl⟩
  · exact ⟨l, [], (List.append_nil l).symm, by rw [putBelow_of_notMem hl, List.append_nil],
      fun hmem => absurd hmem hl, fun _ => rfl⟩

end

/-! ## The place of a family -/

namespace Tree

variable {H : Type} [DecidableEq H] {t t' : Tree H} {loose loose' : Option NodeId}
  {focused head id : NodeId}

/-- A family that goes back to a band goes directly below the family of the focused node. -/
theorem Sound.returnSlot_eq (h : t.Sound loose) (htop : t.topLevel focused = some head)
    (home : Layer) :
    Engine.returnSlot t home focused = some ((t.children (root home)).idxOf head) := by
  obtain ⟨hbelow, l, hpar⟩ := h.topLevel_eq_some_iff.mp htop
  have hlayer : t.layerOf head = some l :=
    h.layerOf_eq_some_iff.mpr (.of_parent hpar (.refl t _))
  have hmem : head ∈ t.children (root l) := (h.parent_iff head (root l)).mp hpar
  simp only [Engine.returnSlot, htop, hlayer, Option.some.injEq]
  split
  · next heq =>
    obtain ⟨below, above, hcs, hnot⟩ := List.eq_append_cons_of_mem (heq ▸ hmem)
    rw [position, hpar, Option.bind_some, heq, hcs, idxOf?_append_cons hnot,
      List.idxOf_append_of_notMem hnot, List.idxOf_cons_self, Nat.add_zero]
  · next hne =>
    -- The family of the focused node hangs from one band only.
    have hnot : head ∉ t.children (root home) := by
      rw [← h.parent_iff, hpar]
      exact fun heq => hne (root_injective (Option.some.inj heq))
    rw [List.idxOf_of_notMem hnot]

/-- Moving another family leaves the head of a family where it is. -/
theorem Sound.topLevel_of_others (h : t.Sound loose) (h' : t'.Sound loose')
    (hpar : ∀ x, x ≠ id → t'.parent x = t.parent x) (htop : t.topLevel focused = some head)
    (hid : ¬ t.Below id focused) : t'.topLevel focused = some head := by
  obtain ⟨hbelow, l, hl⟩ := h.topLevel_eq_some_iff.mp htop
  have hne : head ≠ id := fun he => hid (he ▸ hbelow)
  exact h'.topLevel_eq_some_iff.mpr ⟨hbelow.of_not_below hpar hid, l, (hpar head hne).trans hl⟩

end Tree

/-! ## Families that go back -/

namespace Engine

open ZOrder.Tree (Relocates SameShape root)

variable {H : Type} [DecidableEq H] {e e' e'' : Engine H} {focused head : NodeId} {F g : H}
  {families : List H}

/-- From `e` to `e'`, some families have gone back from the temporary bands to their permanent
bands, in turn, below the family that `g` heads or on top. -/
structure Returned (e e' : Engine H) (g : H) (families : List H) : Prop where
  permanent : ∀ l : Layer, l.isTemporary = false → e'.attached (.band l) =
    putBelow g (families.filter (e.homeOf · = some l)) (e.attached (.band l))
  temporary : ∀ l : Layer, l.isTemporary = true →
    e'.attached (.band l) = (e.attached (.band l)).filter (· ∉ families)
  nested : ∀ o, e'.attached (.window o) = e.attached (.window o)
  homeOf : ∀ v, e'.homeOf v = e.homeOf v

theorem Returned.refl (e : Engine H) (g : H) : Returned e e g [] where
  permanent l _ := (putBelow_nil g _).symm
  temporary l _ := by simp
  nested _ := rfl
  homeOf _ := rfl

/-- One family goes back first, and then the others do. -/
theorem Returned.cons (h : Returned e e' g [F]) (hrest : Returned e' e'' g families) (hne : F ≠ g) :
    Returned e e'' g (F :: families) where
  permanent l hl := by
    have hhome : families.filter (e'.homeOf · = some l) = families.filter (e.homeOf · = some l) :=
      List.filter_congr fun v _ => by rw [h.homeOf]
    have hnot : g ∉ [F].filter (e.homeOf · = some l) := fun hm =>
      hne (List.mem_singleton.mp (List.mem_of_mem_filter hm)).symm
    rw [hrest.permanent l hl, h.permanent l hl, hhome, putBelow_putBelow hnot,
      ← List.filter_append, List.singleton_append]
  temporary l hl := by
    rw [hrest.temporary l hl, h.temporary l hl, List.filter_filter]
    exact List.filter_congr fun v _ => by simp [Bool.and_comm]
  nested o := (hrest.nested o).trans (h.nested o)
  homeOf v := (hrest.homeOf v).trans (h.homeOf v)

/-- An engine in which the family that `g` heads holds the focus. -/
structure Focusing (e : Engine H) (focused head : NodeId) (g : H) : Prop where
  sound : e.tree.Sound none
  housed : e.Housed
  topLevel : e.tree.topLevel focused = some head
  handle : e.tree.handle head = some g

/-- Another family does not hold the focus. -/
theorem Focusing.not_below (h : Focusing e focused head g) {family : NodeId} {l : Layer}
    (hpar : e.tree.parent family = some (root l)) (hne : family ≠ head) :
    ¬ e.tree.Below family focused := by
  intro hb
  have htop := h.sound.topLevel_eq_some_iff.mpr ⟨hb, l, hpar⟩
  exact hne (Option.some.inj (htop.symm.trans h.topLevel))

/-- A family that goes back goes directly below the one that holds the focus, or on top. The
place is counted once the family is out, but that makes no difference in another band. -/
theorem Focusing.demote_eq (h : Focusing e focused head g) {family : NodeId} {l home : Layer}
    (hpar : e.tree.parent family = some (root l)) (hne : family ≠ head)
    (hhome : e.tree.home family = some home) (hband : home ≠ l) :
    ∃ t', Relocates e.tree t' (root l) (root home) family
        ((e.tree.children (root home)).idxOf head) ∧ t'.Sound none ∧
      e.demote focused family = { e with tree := t' }.sync [family] := by
  have hs := h.sound
  have hdefault : (e.tree.home family).getD e.defaultLayer = home := by
    rw [hhome, Option.getD_some]
  obtain ⟨t₀, below, above, slot, t', hfrom, hslot, hto, ht', heq⟩ :=
    exists_demote hs hpar focused hdefault
  have ht₀ := hfrom.sound_of_taken hs
  have hothers : ∀ x, x ≠ family → t₀.parent x = e.tree.parent x := fun x hx => by
    rw [hfrom.parent, if_neg hx]
  -- The family was not in the list that it is put into.
  have hnot : family ∉ e.tree.children (root home) := by
    rw [← hs.parent_iff, hpar]
    exact fun heq => hband (Tree.root_injective (Option.some.inj heq)).symm
  have hcs : t₀.children (root home) = e.tree.children (root home) := by
    rw [hfrom.children_eq_erase ht₀.toLinked, List.erase_of_not_mem hnot]
  have htop := hs.topLevel_of_others ht₀ hothers h.topLevel (h.not_below hpar hne)
  rw [ht₀.returnSlot_eq htop, Option.some.injEq] at hslot
  rw [← hslot, Nat.min_eq_left List.idxOf_le_length] at hto
  exact ⟨t', ⟨t₀, below, above, hfrom, hcs ▸ hto⟩, ht', heq⟩

/-- What a family that goes back does to the lists. -/
theorem returned_of_relocates (h : e.tree.Sound none) {t' : Tree H} {family : NodeId}
    {l home : Layer} (hmove : Relocates e.tree t' (root l) (root home) family
      ((e.tree.children (root home)).idxOf head))
    (hshape : SameShape t' e'.tree) (hnodes : Tree.SameNodes e.tree e'.tree)
    (hF : e.tree.handle family = some F) (hg : e.tree.handle head = some g)
    (hhome : e.homeOf F = some home) (hpermanent : home.isTemporary = false)
    (hl : l.isTemporary = true) : Returned e e' g [F] := by
  have hold : F ∈ e.attached (.band l) :=
    (mem_attached_iff h).mpr ⟨root l, family, rfl, (h.get_iff F family).mpr hF, hmove.parent_eq.1⟩
  have hother : ∀ r : Holder H, r ≠ .band home → e'.attached r = (e.attached r).erase F :=
    fun r hr => attached_other h hmove hshape hF rfl hr
  have hbands : ∀ a b : Layer, a.isTemporary ≠ b.isTemporary →
      Holder.band a ≠ (.band b : Holder H) := fun a b hab he =>
    hab (congrArg Layer.isTemporary (Holder.band.inj he))
  refine ⟨fun k hk => ?_, fun k hk => ?_, fun o => ?_, homeOf_of_sameNodes hnodes⟩
  · have hkl := hbands k l (by simp [hk, hl])
    by_cases hkh : k = home
    · have hplace : (e.attached (.band home)).idxOf g =
          (e.tree.children (root home)).idxOf head := by
        rw [attached_band, h.idxOf_handles (fun x hx => h.handle_of_mem_children hx) hg]
      have hown : [F].filter (fun v => decide (e.homeOf v = some home)) = [F] := by simp [hhome]
      rw [hkh] at hkl ⊢
      rw [attached_target h hmove hshape hF rfl, erase_attached h hold hkl, hown,
        putBelow, hplace, List.append_assoc, List.singleton_append]
    · have hnone : [F].filter (fun v => decide (e.homeOf v = some k)) = [] := by
        simp [hhome, Ne.symm hkh]
      rw [hother _ fun he => hkh (Holder.band.inj he), erase_attached h hold hkl, hnone,
        putBelow_nil]
  · rw [hother _ (hbands k home (by simp [hk, hpermanent])), (nodup_attached h _).erase_eq_filter]
    exact List.filter_congr fun v _ => by simp [bne, beq_eq_decide]
  · rw [hother (.window o) (by simp), erase_attached h hold (by simp)]

/-- A family that goes back leaves the one that holds the focus where it is. -/
theorem Focusing.demote (h : Focusing e focused head g) {family : NodeId} {l : Layer}
    (hl : l.isTemporary = true) (hpar : e.tree.parent family = some (root l)) (hne : family ≠ head)
    (hF : e.tree.handle family = some F) :
    Focusing (e.demote focused family) focused head g ∧
      Returned e (e.demote focused family) g [F] ∧
      Tree.SameNodes e.tree (e.demote focused family).tree ∧
      (∀ x, x ≠ family → (e.demote focused family).tree.parent x = e.tree.parent x) ∧
      (e.demote focused family).demoteOnFocus = e.demoteOnFocus := by
  have hs := h.sound
  obtain ⟨home, hhome⟩ := Tree.exists_home_iff.mpr ⟨F, hF⟩
  have hpermanent := h.housed.tree.permanent family home hhome
  have hband : home ≠ l := by
    rintro rfl
    rw [hl] at hpermanent
    cases hpermanent
  obtain ⟨t', hmove, ht', heq⟩ := h.demote_eq hpar hne hhome hband
  have hothers : ∀ x, x ≠ family → t'.parent x = e.tree.parent x := fun x hx =>
    (hmove.parent x).trans (if_neg hx)
  have hhomeF := (homeOf_of_get ((hs.get_iff F family).mpr hF)).trans hhome
  rw [heq]
  refine ⟨⟨ht', ⟨?_, h.housed.defaultLayer⟩, ?_, ?_⟩, ?_, hmove.sameNodes, hothers, rfl⟩
  · exact hmove.housed h.housed.tree fun k hk => hs.suits_root fun _ =>
      Option.some.inj (hk.symm.trans hhome)
  · exact hs.topLevel_of_others ht' hothers h.topLevel (h.not_below hpar hne)
  · exact (hmove.sameNodes.handle head).trans h.handle
  · exact returned_of_relocates hs hmove (.refl t') hmove.sameNodes hF h.handle hhomeF hpermanent hl

/-- The same for families that go back in turn. -/
theorem Focusing.foldl_demote (h : Focusing e focused head g) {families : List NodeId}
    (hnodup : families.Nodup) (hfamilies : ∀ x ∈ families, x ≠ head ∧
      ∃ l : Layer, l.isTemporary = true ∧ e.tree.parent x = some (root l)) :
    Focusing (families.foldl (fun e family => e.demote focused family) e) focused head g ∧
      Returned e (families.foldl (fun e family => e.demote focused family) e) g
        (e.tree.handles families) ∧
      Tree.SameNodes e.tree (families.foldl (fun e family => e.demote focused family) e).tree ∧
      (families.foldl (fun e family => e.demote focused family) e).demoteOnFocus =
        e.demoteOnFocus := by
  induction families generalizing e with
  | nil => exact ⟨h, .refl e g, ⟨fun _ => rfl, rfl, rfl, rfl⟩, rfl⟩
  | cons family rest ih =>
    obtain ⟨hfamily, hrest⟩ := List.nodup_cons.mp hnodup
    obtain ⟨hne, l, hl, hpar⟩ := hfamilies family List.mem_cons_self
    obtain ⟨F, hF⟩ := h.sound.exists_handle hpar
    obtain ⟨hfocus, hreturned, hnodes, hothers, hon⟩ := h.demote hl hpar hne hF
    -- The families that follow have not moved yet.
    have hlater : ∀ x ∈ rest, x ≠ head ∧ ∃ l : Layer, l.isTemporary = true ∧
        (e.demote focused family).tree.parent x = some (root l) := by
      intro x hx
      obtain ⟨hxhead, k, hk, hxk⟩ := hfamilies x (List.mem_cons_of_mem family hx)
      exact ⟨hxhead, k, hk, (hothers x (ne_of_mem_of_not_mem hx hfamily)).trans hxk⟩
    obtain ⟨hfocus', hreturned', hnodes', hon'⟩ := ih hfocus hrest hlater
    have hhandles : (e.demote focused family).tree.handles rest = e.tree.handles rest :=
      Tree.handles_congr hnodes.handle rest
    have hFg : F ≠ g := fun he => hne (h.sound.handle_inj hF (he ▸ h.handle))
    rw [hhandles] at hreturned'
    rw [List.foldl_cons, Tree.handles_cons hF]
    exact ⟨hfocus', hreturned.cons hreturned' hFg, hnodes.trans hnodes', hon'.trans hon⟩

/-! ## The families that go back -/

/-- The families in the temporary bands, those of the fullscreen band first. -/
def elevated (e : Engine H) : List H :=
  e.attached (.band .fullscreen) ++ e.attached (.band .bringToFront)

theorem nodup_elevated (h : e.tree.Sound none) : e.elevated.Nodup := by
  refine List.nodup_append'.mpr ⟨nodup_attached h _, nodup_attached h _, fun w hw hw' => ?_⟩
  cases holder_unique h hw hw'

/-- A family goes back if it is not the one that holds the focus. -/
theorem Focusing.mem_demoted (h : Focusing e focused head g) {x : NodeId}
    (hx : x ∈ demoted e.tree focused) : x ≠ head ∧
      ∃ l : Layer, l.isTemporary = true ∧ e.tree.parent x = some (root l) := by
  obtain ⟨hband, hnot⟩ := (mem_demoted_iff h.sound).mp hx
  refine ⟨?_, hband⟩
  rintro rfl
  exact hnot (h.sound.topLevel_eq_some_iff.mp h.topLevel).1

theorem Focusing.handles_demoted (h : Focusing e focused head g) :
    e.tree.handles (demoted e.tree focused) = e.elevated.filter (· ≠ g) := by
  have hothers : demoted e.tree focused =
      (e.tree.children (root .fullscreen) ++ e.tree.children (root .bringToFront)).filter
        (· ∉ [head]) := by
    refine List.filter_congr fun x hx => ?_
    obtain ⟨l, hpar⟩ : ∃ l, e.tree.parent x = some (root l) := by
      rcases List.mem_append.mp hx with hx | hx
      · exact ⟨_, (h.sound.parent_iff x _).mpr hx⟩
      · exact ⟨_, (h.sound.parent_iff x _).mpr hx⟩
    rw [Bool.eq_iff_iff, Bool.not_eq_true', h.sound.isInSubtree_eq_false_iff, decide_eq_true_iff,
      List.mem_singleton]
    refine ⟨?_, h.not_below hpar⟩
    rintro hnot rfl
    exact hnot (h.sound.topLevel_eq_some_iff.mp h.topLevel).1
  rw [hothers, h.sound.handles_filter, Tree.handles_append, Tree.handles_cons h.handle]
  exact List.filter_congr fun v _ => by simp [Tree.handles]

/-- Some family goes back if there is another one than that which holds the focus. -/
theorem Focusing.demoted_eq_nil_iff (h : Focusing e focused head g) :
    demoted e.tree focused = [] ↔ e.elevated.filter (· ≠ g) = [] := by
  have hwindows : ∀ x ∈ demoted e.tree focused, ∃ v, e.tree.handle x = some v := fun x hx => by
    obtain ⟨-, l, -, hpar⟩ := h.mem_demoted hx
    exact h.sound.exists_handle hpar
  rw [← h.handles_demoted, ← List.length_eq_zero_iff, ← List.length_eq_zero_iff,
    Tree.length_handles hwindows]

/-- The window that heads the family of a tracked window. -/
theorem exists_focusing (h : e.tree.Sound none) (he : e.Housed) {f : H}
    (hget : e.tree.get f = some focused) : ∃ head g, Focusing e focused head g ∧
      ∀ o, (e.Heads o ∧ (f = o ∨ e.Nests o f)) ↔ o = g := by
  obtain ⟨head, htop⟩ := h.exists_topLevel ((h.get_iff f focused).mp hget)
  obtain ⟨hbelow, l, hpar⟩ := h.topLevel_eq_some_iff.mp htop
  obtain ⟨g, hg⟩ := h.exists_handle hpar
  have hgetg := (h.get_iff g head).mpr hg
  refine ⟨head, g, ⟨h, he, htop, hg⟩, fun o => ⟨?_, ?_⟩⟩
  · rintro ⟨hheads, hholds⟩
    obtain ⟨y, hy⟩ := isStacked_iff_get.mp hheads.1
    have htop' := h.topLevel_eq_some_iff.mpr
      ⟨(below_iff_nests h hy hget).mpr hholds, (heads_iff h hy).mp hheads⟩
    obtain rfl := Option.some.inj (htop'.symm.trans htop)
    exact Option.some.inj (((h.get_iff o y).mp hy).symm.trans hg)
  · rintro rfl
    exact ⟨(heads_iff h hgetg).mpr ⟨l, hpar⟩, (below_iff_nests h hgetg hget).mp hbelow⟩

/-! ## The focus moves -/

/-- From `e` to `e'`, the focus has moved to a window of the family that `g` heads, and the other
families have left the temporary bands. -/
structure Refocused (e e' : Engine H) (g : H) : Prop where
  /-- The families that go back to a band fill one block, directly below `g` or on top. -/
  permanent : ∀ l : Layer, l.isTemporary = false → ∃ below above,
    e.attached (.band l) = below ++ above ∧
    e'.attached (.band l) =
      below ++ (e.elevated.filter (· ≠ g)).filter (e.homeOf · = some l) ++ above ∧
    (g ∈ e.attached (.band l) → above.head? = some g) ∧
    (g ∉ e.attached (.band l) → above = [])
  temporary : ∀ l : Layer, l.isTemporary = true →
    e'.attached (.band l) = (e.attached (.band l)).filter (· = g)
  elevated : e'.elevated = [] ∨ e'.elevated = [g]
  nested : ∀ o, e'.attached (.window o) = e.attached (.window o)
  homeOf : ∀ v, e'.homeOf v = e.homeOf v

theorem Returned.refocused (h : Returned e e' g (e.elevated.filter (· ≠ g)))
    (hs : e.tree.Sound none) : Refocused e e' g := by
  have htemporary : ∀ l : Layer, l.isTemporary = true →
      e'.attached (.band l) = (e.attached (.band l)).filter (· = g) := by
    intro l hl
    rw [h.temporary l hl]
    refine List.filter_congr fun v hv => ?_
    have helevated : v ∈ e.elevated := by
      rcases (Layer.isTemporary_iff l).mp hl with rfl | rfl
      · exact List.mem_append_left _ hv
      · exact List.mem_append_right _ hv
    simp [helevated]
  refine ⟨fun l hl => ?_, htemporary, ?_, h.nested, h.homeOf⟩
  · rw [h.permanent l hl]
    exact exists_putBelow g _ _
  · have hleft : e'.elevated = e.elevated.filter (· = g) := by
      rw [Engine.elevated, htemporary _ rfl, htemporary _ rfl, ← List.filter_append]
      rfl
    rw [hleft, List.filter_eq]
    have hcount := List.nodup_iff_count_le_one.mp (nodup_elevated hs) g
    rcases Nat.le_one_iff_eq_zero_or_eq_one.mp hcount with hzero | hone
    · exact .inl (by rw [hzero, List.replicate_zero])
    · exact .inr (by rw [hone, List.replicate_one])

/-- When a tracked window takes the focus, the other families leave the temporary bands. Those
that go back to a band fill one block of it, in the order they had, directly below the family of
the window or on top; nothing else changes. To focus the window again does nothing. -/
theorem focus_sends_families_back (h : Reachable e) (hon : e.demoteOnFocus = true) {f : H}
    (hf : e.isStacked f = true) (q q' : Query H) :
    ∃ g moved e', (∀ o, (e.Heads o ∧ (f = o ∨ e.Nests o f)) ↔ o = g) ∧
      e.perform q (.focus f) = (moved, e') ∧
      (moved = true ↔ e.elevated.filter (· ≠ g) ≠ []) ∧ Refocused e e' g ∧
      e'.perform q' (.focus f) = (false, e') := by
  obtain ⟨focused, hget⟩ := isStacked_iff_get.mp hf
  obtain ⟨head, g, hfocus, hheads⟩ := exists_focusing h.sound h.housed hget
  obtain ⟨hfocus', hreturned, hnodes, hon'⟩ :=
    hfocus.foldl_demote (nodup_demoted h.sound focused) fun x hx => hfocus.mem_demoted hx
  rw [hfocus.handles_demoted] at hreturned
  have hmoved : (!(demoted e.tree focused).isEmpty) = true ↔ e.elevated.filter (· ≠ g) ≠ [] := by
    rw [Bool.not_eq_true', List.isEmpty_eq_false_iff, ne_eq, hfocus.demoted_eq_nil_iff]
  have hrefocused := hreturned.refocused h.sound
  refine ⟨g, _, _, hheads, focus_eq_foldl hon hget, hmoved, hrefocused, ?_⟩
  -- What is left in the temporary bands holds the focus.
  have hnone := hfocus'.demoted_eq_nil_iff.mpr (by
    rcases hrefocused.elevated with hnil | hone
    · rw [hnil, List.filter_nil]
    · rw [hone]
      simp)
  refine (focus_eq_foldl (hon'.trans hon) ((hnodes.get f).trans hget)).trans ?_
  rw [hnone]
  rfl

/-- The dialog 5 of window 4 takes the focus. Windows 1 and 2 go back side by side, directly below
4, although 6 went back between them, to another band. -/
theorem focus_sends_families_back_of_dialog :
    ∃ e : Engine Nat, e.Reachable ∧ e.demoteOnFocus = true ∧ e.isStacked 5 = true ∧
      e.elevated = [1, 6, 2] ∧ e.attached (.band .layout) = [3, 4] ∧
      (e.perform .blank (.focus 5)).2.attached (.band .layout) = [3, 1, 2, 4] ∧
      (e.perform .blank (.focus 5)).2.attached (.band .top) = [6] ∧
      ∃ g moved e', (∀ o, (e.Heads o ∧ (5 = o ∨ e.Nests o 5)) ↔ o = g) ∧
        e.perform .blank (.focus 5) = (moved, e') ∧
        (moved = true ↔ e.elevated.filter (· ≠ g) ≠ []) ∧ Refocused e e' g ∧
        e'.perform .blank (.focus 5) = (false, e') := by
  have hreach : Reachable ((ofSettings {}).performAll [(.blank, .add 1), (.blank, .add 2),
      (.blank, .add 3), (.blank, .add 4), ({ Query.blank with owner := fun _ => some 4 }, .add 5),
      (.blank, .addAt 6 .top .top), (.blank, .fullscreen 1 true), (.blank, .toFront 6),
      (.blank, .toFront 2)]) :=
    .performAll (.start {}) _
  exact ⟨_, hreach, by decide, by decide, by decide, by decide, by decide, by decide,
    focus_sends_families_back hreach (by decide) (by decide) .blank .blank⟩

end Engine

end ZOrder
