/-
  ZOrder.Proofs.Engine.Shape

  The shape of the order of the screen: each window once, band after band, owners
  before the windows nested below them, and each family in one block.

  The band of a window is found by walking up the forest and the order by walking
  down, so both sides are first read off the relation `Below`.
-/

import ZOrder.Proofs.Engine.Reachable
import ZOrder.Proofs.Tree.Order

namespace ZOrder

/-! ## Nodes in order -/

namespace Tree

variable {H : Type} {t : Tree H} {x y : NodeId}

theorem pair_sublist_append {α : Type} {a b : α} {xs ys : List α} (ha : a ∈ xs) (hb : b ∈ ys) :
    [a, b].Sublist (xs ++ ys) :=
  (List.singleton_sublist.mpr ha).append (List.singleton_sublist.mpr hb)

theorem mem_orderAbove {k l : Layer} (hkl : k.index < l.index) (hy : y ∈ t.run (root l)) :
    y ∈ t.orderAbove k := by
  refine List.mem_flatMap.mpr ⟨l, List.mem_of_getElem? (i := l.index - (k.index + 1)) ?_, hy⟩
  rw [List.getElem?_drop, Nat.add_sub_cancel' hkl]
  exact Layer.all_getElem?_index l

variable [DecidableEq H]

/-- Windows of a lower band come first. -/
theorem Sound.sublist_order_of_lower (h : t.Sound none) {v w : H} {k l : Layer}
    (hx : t.handle x = some v) (hy : t.handle y = some w) (hk : t.layerOf x = some k)
    (hl : t.layerOf y = some l) (hkl : k.index < l.index) : [x, y].Sublist t.order := by
  have hxrun : x ∈ t.run (root k) :=
    h.mem_run.mpr ⟨h.live_root k, h.layerOf_eq_some_iff.mp hk, v, hx⟩
  have hyrun : y ∈ t.run (root l) :=
    h.mem_run.mpr ⟨h.live_root l, h.layerOf_eq_some_iff.mp hl, w, hy⟩
  rw [t.order_eq_append k]
  exact pair_sublist_append (List.mem_append_right _ hxrun) (mem_orderAbove hkl hyrun)

/-- A window comes before the windows nested below it. -/
theorem Sound.sublist_order_of_below (h : t.Sound none) {v : H} (hx : t.handle x = some v)
    (hxy : t.Below x y) (hne : x ≠ y) : [x, y].Sublist t.order := by
  -- The run of `x` starts with `x` and is one block of the order.
  obtain ⟨l, hl⟩ := h.exists_root (live_of_handle hx)
  have hy : y ∈ t.run x := by
    rw [h.run_of_handle hx]
    exact h.mem_descendants.mpr ⟨live_of_handle hx, hxy⟩
  refine List.Sublist.trans ?_ (h.run_infix_order hl).sublist
  rw [h.head_run hx] at hy ⊢
  exact (List.singleton_sublist.mpr ((List.mem_cons.mp hy).resolve_left hne.symm)).cons_cons x

end Tree

/-! ## Windows in order -/

namespace Engine

variable {H : Type} [DecidableEq H] {e : Engine H}

/-- The window `o` is the one that `w` is attached to. -/
def Owns (e : Engine H) (o w : H) : Prop :=
  ∃ x y, e.tree.get o = some x ∧ e.tree.get w = some y ∧ e.tree.parent y = some x

/-- The window `w` is nested below `o`, at any depth. -/
def Nests (e : Engine H) (o w : H) : Prop := Relation.TransGen e.Owns o w

theorem nests_iff (h : e.tree.Sound none) {o w : H} :
    e.Nests o w ↔ ∃ x y, e.tree.get o = some x ∧ e.tree.get w = some y ∧ x ≠ y ∧
      e.tree.Below x y := by
  constructor
  · intro hnests
    -- Each owner on the way is one parent further down.
    induction hnests with
    | single howns =>
      obtain ⟨x, y, ho, hw, hp⟩ := howns
      exact ⟨x, y, ho, hw, h.parent_ne hp, .of_parent hp (Tree.Below.refl _ x)⟩
    | tail _ howns ih =>
      obtain ⟨x, y, ho, hv, -, hxy⟩ := ih
      obtain ⟨y', z, hv', hw, hp⟩ := howns
      obtain rfl := Option.some.inj (hv.symm.trans hv')
      refine ⟨x, z, ho, hw, ?_, .of_parent hp hxy⟩
      rintro rfl
      exact h.not_below_parent hp hxy
  · rintro ⟨x, y, ho, hw, hne, hxy⟩
    -- All nodes strictly between are windows, since roots lie below nothing.
    induction hxy using Relation.ReflTransGen.head_induction_on generalizing w with
    | refl => exact absurd rfl hne
    | @head y p hp hpx ih =>
      by_cases hpx' : p = x
      · exact .single ⟨x, y, ho, hw, hpx' ▸ hp⟩
      · obtain ⟨q, hq, -⟩ := (Tree.Below.cases_parent hpx).resolve_left hpx'
        obtain ⟨v, hv⟩ := h.exists_handle hq
        have hget := (h.get_iff v p).mpr hv
        exact .tail (ih hget (Ne.symm hpx')) ⟨p, y, hget, hw, hp⟩

/-- The nodes below that of a window are those of the window and of the windows nested under
it. -/
theorem below_iff_nests (h : e.tree.Sound none) {o w : H} {x y : NodeId}
    (hx : e.tree.get o = some x) (hy : e.tree.get w = some y) :
    e.tree.Below x y ↔ w = o ∨ e.Nests o w := by
  rw [nests_iff h]
  constructor
  · intro hxy
    by_cases hne : x = y
    · subst hne
      exact .inl (Option.some.inj (((h.get_iff w x).mp hy).symm.trans ((h.get_iff o x).mp hx)))
    · exact .inr ⟨x, y, hx, hy, hne, hxy⟩
  · rintro (rfl | ⟨x', y', hx', hy', -, hxy⟩)
    · rw [Option.some.inj (hx.symm.trans hy)]
    · rwa [Option.some.inj (hx.symm.trans hx'), Option.some.inj (hy.symm.trans hy')]

/-- The window is tracked and nested under no other: it heads its family. -/
def Heads (e : Engine H) (w : H) : Prop := e.isStacked w = true ∧ ∀ o, ¬ e.Nests o w

/-- A window heads its family if it hangs from the root of a band. -/
theorem heads_iff (h : e.tree.Sound none) {w : H} {x : NodeId} (hget : e.tree.get w = some x) :
    e.Heads w ↔ ∃ l, e.tree.parent x = some (Tree.root l) := by
  have hx := (h.get_iff w x).mp hget
  constructor
  · rintro ⟨-, hfree⟩
    obtain ⟨family, htop⟩ := h.exists_topLevel hx
    obtain ⟨hbelow, l, hpar⟩ := h.topLevel_eq_some_iff.mp htop
    by_cases hne : family = x
    · exact ⟨l, hne ▸ hpar⟩
    · -- Another head of the family would nest the window.
      obtain ⟨o, ho⟩ := h.exists_handle hpar
      exact absurd ((nests_iff h).mpr ⟨family, x, (h.get_iff o family).mpr ho, hget, hne, hbelow⟩)
        (hfree o)
  · rintro ⟨l, hpar⟩
    refine ⟨isStacked_iff_get.mpr ⟨x, hget⟩, fun o hnests => ?_⟩
    obtain ⟨a, y, ha, hy, hne, hbelow⟩ := (nests_iff h).mp hnests
    obtain rfl := Option.some.inj (hget.symm.trans hy)
    rcases hbelow.cases_parent with hxa | ⟨p, hp, hap⟩
    · exact hne hxa.symm
    · rw [hpar] at hp
      obtain rfl := Option.some.inj hp
      exact not_below_root h ((h.get_iff o a).mp ha) l hap

omit [DecidableEq H] in
theorem sublist_zOrder {v w : H} {x y : NodeId} (hx : e.tree.handle x = some v)
    (hy : e.tree.handle y = some w) (hxy : [x, y].Sublist e.tree.order) :
    [v, w].Sublist e.zOrder := by
  have hmap := hxy.filterMap e.tree.handle
  rwa [List.filterMap_cons_some hx, List.filterMap_cons_some hy] at hmap

theorem mem_zOrder_iff (h : e.tree.Sound none) {w : H} :
    w ∈ e.zOrder ↔ e.isStacked w = true := by
  rw [isStacked, Tree.contains, Option.isSome_iff_exists, zOrder, Tree.mem_handles]
  constructor
  · rintro ⟨x, -, hx⟩
    exact ⟨x, (h.get_iff w x).mpr hx⟩
  · rintro ⟨x, hx⟩
    have hw := (h.get_iff w x).mp hx
    exact ⟨x, h.mem_order_iff.mpr ⟨w, hw⟩, hw⟩

omit [DecidableEq H] in
/-- The order lists the windows of each band in turn. -/
theorem zOrder_eq_flatMap (e : Engine H) : e.zOrder = Layer.all.flatMap e.windowsIn := by
  rw [zOrder, Tree.order, Tree.handles, List.filterMap_flatMap]
  exact List.flatMap_congr fun l _ => (Tree.handles_descendants e.tree (Tree.root l)).symm

theorem layerOf_of_below (h : e.tree.Sound none) {w : H} {x : NodeId} {l : Layer}
    (hget : e.tree.get w = some x) (hx : e.tree.Below (Tree.root l) x) : e.layerOf w = some l := by
  rw [layerOf, hget, Option.bind_some, h.layerOf_eq_some_iff]
  exact hx

theorem layerOf_of_parent (h : e.tree.Sound none) {w : H} {x : NodeId} {l : Layer}
    (hget : e.tree.get w = some x) (hpar : e.tree.parent x = some (Tree.root l)) :
    e.layerOf w = some l :=
  layerOf_of_below h hget (.of_parent hpar (.refl _ _))

theorem exists_layerOf (h : e.tree.Sound none) {w : H} (hw : e.isStacked w = true) :
    ∃ l, e.layerOf w = some l := by
  obtain ⟨x, hx⟩ := Option.isSome_iff_exists.mp hw
  obtain ⟨l, hl⟩ := h.exists_root (Tree.live_of_handle ((h.get_iff w x).mp hx))
  exact ⟨l, layerOf_of_below h hx hl⟩

theorem sublist_zOrder_of_lower (h : e.tree.Sound none) {v w : H} {k l : Layer}
    (hk : e.layerOf v = some k) (hl : e.layerOf w = some l) (hkl : k.index < l.index) :
    [v, w].Sublist e.zOrder := by
  obtain ⟨x, hx, hk⟩ := Option.bind_eq_some_iff.mp hk
  obtain ⟨y, hy, hl⟩ := Option.bind_eq_some_iff.mp hl
  have hx := (h.get_iff v x).mp hx
  have hy := (h.get_iff w y).mp hy
  exact sublist_zOrder hx hy (h.sublist_order_of_lower hx hy hk hl hkl)

theorem sublist_zOrder_of_nests (h : e.tree.Sound none) {o w : H} (hnests : e.Nests o w) :
    [o, w].Sublist e.zOrder := by
  obtain ⟨x, y, hx, hy, hne, hxy⟩ := (nests_iff h).mp hnests
  have hx := (h.get_iff o x).mp hx
  exact sublist_zOrder hx ((h.get_iff w y).mp hy) (h.sublist_order_of_below hx hxy hne)

/-- A window and all windows nested below it fill one block. -/
theorem exists_block (h : e.tree.Sound none) {o : H} (ho : e.isStacked o = true) :
    ∃ block, block <:+: e.zOrder ∧ ∀ w, w ∈ block ↔ w = o ∨ e.Nests o w := by
  obtain ⟨x, hx⟩ := Option.isSome_iff_exists.mp ho
  have hxo := (h.get_iff o x).mp hx
  obtain ⟨l, hl⟩ := h.exists_root (Tree.live_of_handle hxo)
  -- The block lists the run of the window.
  refine ⟨e.tree.handles (e.tree.run x), (h.run_infix_order hl).filterMap _, fun w => ?_⟩
  rw [Tree.mem_handles]
  constructor
  · rintro ⟨y, hy, hyw⟩
    exact (below_iff_nests h hx ((h.get_iff w y).mpr hyw)).mp (h.mem_run.mp hy).2.1
  · intro hw
    obtain ⟨y, hy⟩ : ∃ y, e.tree.get w = some y := by
      rcases hw with rfl | hnests
      · exact ⟨x, hx⟩
      · obtain ⟨-, y, -, hy, -⟩ := (nests_iff h).mp hnests
        exact ⟨y, hy⟩
    have hyw := (h.get_iff w y).mp hy
    have hbelow := (below_iff_nests h hx hy).mpr hw
    exact ⟨y, h.mem_run.mpr ⟨Tree.live_of_handle hxo, hbelow, w, hyw⟩, hyw⟩

/-- What the order of the screen looks like in every engine that can be met. -/
theorem zOrder_shape (h : Reachable e) :
    (e.zOrder.Nodup ∧ ∀ w, w ∈ e.zOrder ↔ e.isStacked w = true) ∧
    e.zOrder = Layer.all.flatMap e.windowsIn ∧
    ((∀ w, e.isStacked w = true → ∃ l, e.layerOf w = some l) ∧
      ∀ v w k l, e.layerOf v = some k → e.layerOf w = some l → k.index < l.index →
        [v, w].Sublist e.zOrder) ∧
    (∀ o w, e.Nests o w → [o, w].Sublist e.zOrder) ∧
    ∀ o, e.isStacked o = true →
      ∃ block, block <:+: e.zOrder ∧ ∀ w, w ∈ block ↔ w = o ∨ e.Nests o w := by
  have he := h.sound
  refine ⟨⟨he.nodup_handles he.nodup_order, fun w => mem_zOrder_iff he⟩, zOrder_eq_flatMap e,
    ⟨fun w hw => exists_layerOf he hw, ?_⟩, ?_, ?_⟩
  · intro v w k l hk hl hkl
    exact sublist_zOrder_of_lower he hk hl hkl
  · intro o w hnests
    exact sublist_zOrder_of_nests he hnests
  · intro o ho
    exact exists_block he ho

/-- A window with a dialog, and a third window in a higher band. -/
theorem zOrder_shape_of_dialog :
    ∃ e : Engine Nat, e.Reachable ∧ e.zOrder = [1, 2, 3] ∧
      [2, 3].Sublist e.zOrder ∧ [1, 2].Sublist e.zOrder ∧
      ∃ block, block <:+: e.zOrder ∧ ∀ w, w ∈ block ↔ w = 1 ∨ e.Nests 1 w := by
  have hreach : Reachable ((ofSettings {}).performAll [(.blank, .add 1),
      ({ Query.blank with owner := fun _ => some 1 }, .add 2), (.blank, .addAt 3 .top .top)]) :=
    .performAll (.start {}) _
  have hshape := zOrder_shape hreach
  refine ⟨_, hreach, by decide, ?_, ?_, ?_⟩
  · exact hshape.2.2.1.2 2 3 .layout .top (by decide) (by decide) (by decide)
  · exact hshape.2.2.2.1 1 2 (.single ⟨11, 12, by decide, by decide, by decide⟩)
  · exact hshape.2.2.2.2 1 (by decide)

end Engine

end ZOrder
