/-
  ZOrder.Proofs.Engine.Bands

  Families that are sent to a band. Whichever of its windows is named, the family goes
  as a whole; its head is put into the list of the band, at a place that is counted in
  the list without the head. No other list changes but the one that the head leaves, so
  the windows nested in the family, and all other windows, stay where they hang.

  The bands of windows follow from where the windows hang. Permanent bands are noted in
  the windows themselves, which a permanent band does for the members of the family.
-/

import ZOrder.Proofs.Engine.Anchors
import ZOrder.Proofs.Engine.Attached
import ZOrder.Proofs.Engine.Homes

namespace ZOrder

/-! ## Places in a list -/

/-- The list `after` is `before` without `a`, with `a` put in at a place. The place is counted
in the list without `a`. -/
def Position.Puts {α : Type} [DecidableEq α] (pos : Position) (a : α) (before after : List α) :
    Prop :=
  ∃ below above, before.erase a = below ++ above ∧ after = below ++ a :: above ∧
    match pos with
    | .top => above = []
    | .bottom => below = []
    | .index n => below.length = min n.toNat (before.erase a).length

theorem Position.puts_slot {α : Type} [DecidableEq α] (pos : Position) (a : α) (l : List α) :
    pos.Puts a l ((l.erase a).take (pos.slot (l.erase a).length) ++
      a :: (l.erase a).drop (pos.slot (l.erase a).length)) := by
  refine ⟨_, _, (List.take_append_drop _ _).symm, rfl, ?_⟩
  cases pos with
  | top => exact List.drop_length
  | bottom => rfl
  | index n =>
    rw [List.length_take]
    exact Nat.min_eq_left (Nat.min_le_right _ _)

/-- Without what is put in, both lists are the same. -/
theorem Position.Puts.erase_eq {α : Type} [DecidableEq α] {pos : Position} {a : α}
    {before after : List α} (h : pos.Puts a before after) (hnodup : before.Nodup) :
    after.erase a = before.erase a := by
  obtain ⟨below, above, hbefore, rfl, -⟩ := h
  have ha : a ∉ below := fun hm =>
    (List.Nodup.not_mem_erase hnodup) (hbefore ▸ List.mem_append_left above hm)
  rw [List.erase_append_right _ ha, List.erase_cons_head, hbefore]

/-! ## Families that change their band -/

namespace Engine

open ZOrder.Tree (Relocates SameShape root)

variable {H : Type} [DecidableEq H] {e e' : Engine H} {F w : H} {k l : Layer} {pos : Position}

/-- From `e` to `e'`, the family that `F` heads has gone from band `k` to a place in band `l`,
and nothing else has moved. -/
structure Sent (e e' : Engine H) (F : H) (k l : Layer) (pos : Position) : Prop where
  target : pos.Puts F (e.attached (.band l)) (e'.attached (.band l))
  origin : k ≠ l → e'.attached (.band k) = (e.attached (.band k)).erase F
  others : ∀ r, r ≠ .band k → r ≠ .band l → e'.attached r = e.attached r
  /-- All other windows hang where they hung, in the same order. -/
  siblings : ∀ r, (e'.attached r).erase F = (e.attached r).erase F
  member : ∀ v, v = F ∨ e.Nests F v →
    e'.layerOf v = some l ∧ e'.homeOf v = if l.isTemporary then e.homeOf v else some l
  outsider : ∀ v, ¬ (v = F ∨ e.Nests F v) →
    e'.layerOf v = e.layerOf v ∧ e'.homeOf v = e.homeOf v

section

variable {t' : Tree H} {family : NodeId} {slot : Nat}

/-- The head of the family is put into the list of the band. -/
theorem puts_of_relocates (h : e.tree.Sound none)
    (hmove : Relocates e.tree t' (root k) (root l) family
      (pos.slot ((e.tree.children (root l)).erase family).length))
    (hshape : SameShape t' e'.tree) (hF : e.tree.handle family = some F) :
    pos.Puts F (e.attached (.band l)) (e'.attached (.band l)) := by
  have hlength : ((e.attached (.band l)).erase F).length =
      ((e.tree.children (root l)).erase family).length := by
    rw [attached_band, ← h.handles_erase hF, Tree.length_handles fun x hx =>
      h.handle_of_mem_children (List.mem_of_mem_erase hx)]
  rw [attached_target h hmove hshape hF rfl, ← hlength]
  exact pos.puts_slot F _

/-- The members of the family are drawn in the band, the other windows where they were. -/
theorem layerOf_of_relocates (h : e.tree.Sound none)
    (hmove : Relocates e.tree t' (root k) (root l) family slot) (ht' : t'.Sound none)
    (hshape : SameShape t' e'.tree) {v : H} {y : NodeId} (hget : e.tree.get v = some y) :
    (e.tree.Below family y → e'.layerOf v = some l) ∧
      (¬ e.tree.Below family y → e'.layerOf v = e.layerOf v) := by
  have hs' := hshape.sound ht'
  have hget' := (get_of_relocates hmove hshape v).trans hget
  constructor
  · intro hb
    refine layerOf_of_below hs' hget' (hshape.below_iff.mpr ?_)
    exact .trans (.of_parent hmove.parent_eq.2 (.refl t' _)) ((hmove.below_iff h ht').mpr hb)
  · intro hb
    obtain ⟨j, hj⟩ := h.exists_root (Tree.live_of_handle ((h.get_iff v y).mp hget))
    rw [layerOf_of_below h hget hj]
    exact layerOf_of_below hs' hget' (hshape.below_iff.mpr (hmove.below_of_not_below hb hj))

/-- The members of the family are at home in the band if it is a permanent one; else all
windows keep their permanent bands. -/
theorem homeOf_of_relocates (h : e.tree.Sound none)
    (hmove : Relocates e.tree t' (root k) (root l) family slot) (ht' : t'.Sound none)
    (htree : e'.tree = if l.isTemporary then t' else settle t' family l) {v : H} {y : NodeId}
    (hget : e.tree.get v = some y) :
    (e.tree.Below family y → e'.homeOf v = if l.isTemporary then e.homeOf v else some l) ∧
      (¬ e.tree.Below family y → e'.homeOf v = e.homeOf v) := by
  obtain ⟨o, ho⟩ := ht'.exists_handle hmove.parent_eq.2
  have hshape : SameShape t' e'.tree := htree ▸ Tree.sameShape_sent t' family l
  have hhome := ht'.home_sent ho l y
  rw [hmove.below_iff h ht', ← htree, hmove.sameNodes.home] at hhome
  rw [homeOf_of_get hget, homeOf_of_get ((get_of_relocates hmove hshape v).trans hget)]
  exact hhome

end

/-- A family that moves to a band is sent there. -/
theorem sent_of_relocates (h : e.tree.Sound none) {t' : Tree H} {family : NodeId}
    (hmove : Relocates e.tree t' (root k) (root l) family
      (pos.slot ((e.tree.children (root l)).erase family).length)) (ht' : t'.Sound none)
    (htree : e'.tree = if l.isTemporary then t' else settle t' family l)
    (hF : e.tree.get F = some family) : Sent e e' F k l pos := by
  have hhandle := (h.get_iff F family).mp hF
  have hshape : SameShape t' e'.tree := htree ▸ Tree.sameShape_sent t' family l
  have hputs := puts_of_relocates h hmove hshape hhandle
  have hother : ∀ r : Holder H, r ≠ .band l → e'.attached r = (e.attached r).erase F :=
    fun r hr => attached_other h hmove hshape hhandle rfl hr
  -- The head of the family hangs from its old band only.
  have hold : F ∈ e.attached (.band k) :=
    (mem_attached_iff h).mpr ⟨root k, family, rfl, hF, hmove.parent_eq.1⟩
  refine ⟨hputs, fun hne => hother _ fun he => hne (Holder.band.inj he), fun r hk hl => ?_,
    fun r => ?_, fun v hv => ?_, fun v hv => ?_⟩
  · rw [hother r hl, erase_attached h hold hk]
  · by_cases hr : r = .band l
    · rw [hr]
      exact hputs.erase_eq (nodup_attached h _)
    · rw [hother r hr, List.erase_of_not_mem (List.Nodup.not_mem_erase (nodup_attached h r))]
  · obtain ⟨y, hy⟩ : ∃ y, e.tree.get v = some y := by
      rcases hv with rfl | hnests
      · exact ⟨family, hF⟩
      · obtain ⟨-, y, -, hy, -⟩ := (nests_iff h).mp hnests
        exact ⟨y, hy⟩
    have hb := (below_iff_nests h hF hy).mpr hv
    exact ⟨(layerOf_of_relocates h hmove ht' hshape hy).1 hb,
      (homeOf_of_relocates h hmove ht' htree hy).1 hb⟩
  · cases hy : e.tree.get v with
    | none =>
      -- A window that is not tracked is in no band.
      have hy' := (get_of_relocates hmove hshape v).trans hy
      simp only [layerOf, homeOf, hy, hy', Option.bind_none, and_self]
    | some y =>
      have hb : ¬ e.tree.Below family y := fun hb => hv ((below_iff_nests h hF hy).mp hb)
      exact ⟨(layerOf_of_relocates h hmove ht' hshape hy).2 hb,
        (homeOf_of_relocates h hmove ht' htree hy).2 hb⟩

/-! ## The bands that are restacked -/

omit [DecidableEq H] in
/-- Bands are requested with all their windows. -/
theorem windows_requests (t : Tree H) (origin l : Layer) :
    ((if root origin = root l then [root origin] else [root origin, root l]).map t.request).map
      Request.windows = (if origin = l then [l] else [origin, l]).map
        fun b => t.handles (t.descendants (root b)) := by
  have hroots : root origin = root l ↔ origin = l := ⟨Tree.root_injective, congrArg root⟩
  simp only [hroots]
  split
  · next heq => simp [heq, Tree.request_windows, Tree.handles_descendants]
  · simp [Tree.request_windows, Tree.handles_descendants]

/-- A tracked window that is sent to a band takes its whole family along, from the window that
no other one nests. -/
theorem family_goes_to_band (h : Reachable e) (q : Query H) (hw : e.isStacked w = true)
    (l : Layer) (pos : Position) :
    ∃ F k e' rs, e.Heads F ∧ (w = F ∨ e.Nests F w) ∧ F ∈ e.attached (.band k) ∧
      e.perform q (.toLayer w l pos) = (true, e') ∧ Sent e e' F k l pos ∧
      e'.queue = e.queue ++ rs ∧
      rs.map Request.windows = (if k = l then [l] else [k, l]).map e'.windowsIn ∧
      ∀ r ∈ rs, ∃ i j, r.FitsAt e'.zOrder i j := by
  have hs := h.sound
  obtain ⟨x, hx⟩ := isStacked_iff_get.mp hw
  obtain ⟨family, k, hfamily, hbelow, hpar⟩ := exists_family hs hx
  obtain ⟨F, hF⟩ := hs.exists_handle hpar
  have hget := (hs.get_iff F family).mpr hF
  obtain ⟨t', hmove, ht', heq⟩ := moveFamily_eq hs hpar l pos
  have hperform : e.perform q (.toLayer w l pos) = e.moveFamily family l pos := by
    show e.moveToLayer w l pos = _
    simp only [moveToLayer, hfamily]
  refine ⟨F, k, _, _, (heads_iff hs hget).mpr ⟨k, hpar⟩, (below_iff_nests hs hget hx).mp hbelow,
    (mem_attached_iff hs).mpr ⟨root k, family, rfl, hget, hpar⟩, hperform.trans heq,
    sent_of_relocates hs hmove ht' rfl hget, rfl, windows_requests _ k l, fun r hr => ?_⟩
  obtain ⟨y, -, rfl⟩ := List.mem_map.mp hr
  exact ((Tree.sameShape_sent t' family l).sound ht').fitsAt_request y

/-- The dialog 2 is sent to a place in the band that its family is in already. The window 1, which
it is a dialog of, goes there instead, and the place is counted without it. -/
theorem family_goes_to_band_of_dialog :
    ∃ e : Engine Nat, e.Reachable ∧ e.isStacked 2 = true ∧ e.attached (.window 1) = [2] ∧
      e.attached (.band .layout) = [1, 3, 4] ∧
      (e.perform .blank (.toLayer 2 .layout (.index 1))).2.attached (.band .layout) = [3, 1, 4] ∧
      ∃ F k e' rs, e.Heads F ∧ (2 = F ∨ e.Nests F 2) ∧ F ∈ e.attached (.band k) ∧
        e.perform .blank (.toLayer 2 .layout (.index 1)) = (true, e') ∧
        Sent e e' F k .layout (.index 1) ∧ e'.queue = e.queue ++ rs ∧
        rs.map Request.windows =
          (if k = .layout then [.layout] else [k, .layout]).map e'.windowsIn ∧
        ∀ r ∈ rs, ∃ i j, r.FitsAt e'.zOrder i j := by
  have hreach : Reachable ((ofSettings {}).performAll [(.blank, .add 1),
      ({ Query.blank with owner := fun _ => some 1 }, .add 2), (.blank, .add 3),
      (.blank, .add 4)]) :=
    .performAll (.start {}) _
  exact ⟨_, hreach, by decide, by decide, by decide, by decide,
    family_goes_to_band hreach .blank (by decide) .layout (.index 1)⟩

end Engine

end ZOrder
