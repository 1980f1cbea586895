/-
  ZOrder.Proofs.Engine.Blocks

  What a band or a window holds, as one block of the order of the screen. The block of a
  window is the window, and then the blocks of the windows attached to it, one after the
  other; the block of a band is made of the blocks of the windows that stand on their own
  in it. So wherever two siblings stand next to each other, their blocks do.
-/

import ZOrder.Proofs.Engine.Removal

namespace ZOrder

/-! ## Windows below a node -/

namespace Tree

variable {H : Type} {t : Tree H} {loose : Option NodeId} {x : NodeId}

/-- The windows below a node are its own and those below its children, in turn. -/
theorem Linked.handles_descendants_eq (h : t.Linked loose) (hx : t.Live x) :
    t.handles (t.descendants x) =
      (t.handle x).toList ++ (t.children x).flatMap fun c => t.handles (t.descendants c) := by
  have hbelow : t.handles ((t.children x).flatMap t.descendants) =
      (t.children x).flatMap fun c => t.handles (t.descendants c) := List.filterMap_flatMap
  rw [h.descendants_eq hx, ← hbelow]
  cases hw : t.handle x with
  | none => exact List.filterMap_cons_none hw
  | some w => exact handles_cons hw _

end Tree

/-- The window itself, where windows are attached to one. -/
def Holder.own {H : Type} : Holder H → List H
  | .band _ => []
  | .window o => [o]

namespace Engine

open ZOrder.Tree (root)

variable {H : Type} [DecidableEq H] {e : Engine H} {r : Holder H} {a b v : H} {x : NodeId}

/-- The windows that a band holds, or a window with all windows nested below it, bottom of the
screen first. -/
def block (e : Engine H) (r : Holder H) : List H :=
  match e.holderNode r with
  | none => []
  | some x => e.tree.handles (e.tree.run x)

theorem block_of_node (hr : e.holderNode r = some x) :
    e.block r = e.tree.handles (e.tree.run x) := by
  simp only [block, hr]

/-- The block of a band is what the band is listed as. -/
theorem block_band (e : Engine H) (l : Layer) : e.block (.band l) = e.windowsIn l :=
  (Tree.handles_descendants e.tree (root l)).symm

/-- The windows that a request for a window restacks are its block. -/
theorem request_windows_eq_block (hget : e.tree.get a = some x) :
    (e.tree.request x).windows = e.block (.window a) :=
  (block_of_node (r := .window a) hget).symm

theorem handle_toList_holderNode (h : e.tree.Sound none) (hr : e.holderNode r = some x) :
    (e.tree.handle x).toList = r.own := by
  cases r with
  | band l =>
    obtain rfl : root l = x := Option.some.inj hr
    rw [h.handle_root]
    rfl
  | window o =>
    rw [(h.get_iff o x).mp hr]
    rfl

theorem live_holderNode (h : e.tree.Sound none) (hr : e.holderNode r = some x) :
    e.tree.Live x := by
  cases r with
  | band l => exact Option.some.inj hr ▸ h.live_root l
  | window o => exact Tree.live_of_handle ((h.get_iff o x).mp hr)

/-- A block is made of the blocks of the windows that are attached there. -/
theorem block_eq (h : e.tree.Sound none) (hr : e.holderNode r = some x) :
    e.block r = r.own ++ (e.attached r).flatMap fun v => e.block (.window v) := by
  rw [block_of_node hr, ← Tree.handles_descendants,
    h.handles_descendants_eq (live_holderNode h hr), handle_toList_holderNode h hr,
    attached_of_node hr, Tree.handles, List.filterMap_eq_flatMap_toList, List.flatMap_assoc]
  refine congrArg (r.own ++ ·) (List.flatMap_congr fun c hc => ?_)
  -- A child is a window, and its node is the one that stands for it.
  obtain ⟨w, hw⟩ := h.handle_of_mem_children hc
  rw [hw, Option.toList_some, List.flatMap_singleton,
    block_of_node (r := .window w) ((h.get_iff w c).mpr hw), Tree.handles_descendants]

/-- The windows nested below a window, bottom of the screen first: the blocks of the windows
attached to it. -/
def nestedBlocks (e : Engine H) (a : H) : List H :=
  (e.attached (.window a)).flatMap fun v => e.block (.window v)

/-- A window comes first in its block, before the windows nested below it. -/
theorem block_window (h : e.tree.Sound none) (hget : e.tree.get a = some x) :
    e.block (.window a) = a :: e.nestedBlocks a :=
  block_eq (r := .window a) h hget

theorem mem_block_iff (h : e.tree.Sound none) (hr : e.holderNode r = some x) :
    v ∈ e.block r ↔ e.Holds r v := by
  rw [block_of_node hr, Tree.mem_handles]
  constructor
  · rintro ⟨y, hy, hv⟩
    exact (holds_iff h hr ((h.get_iff v y).mpr hv)).mpr (h.mem_run.mp hy).2.1
  · intro hheld
    obtain ⟨y, hy⟩ := hheld.exists_get h hr
    have hv := (h.get_iff v y).mp hy
    exact ⟨y, h.mem_run.mpr ⟨live_holderNode h hr, (holds_iff h hr hy).mp hheld, v, hv⟩, hv⟩

theorem block_infix_zOrder (h : e.tree.Sound none) (hr : e.holderNode r = some x) :
    e.block r <:+: e.zOrder := by
  obtain ⟨l, hl⟩ := h.exists_root (live_holderNode h hr)
  rw [block_of_node hr]
  exact (h.run_infix_order hl).filterMap _

theorem nodup_block (h : e.tree.Sound none) (hr : e.holderNode r = some x) :
    (e.block r).Nodup :=
  (h.nodup_handles h.nodup_order).sublist (block_infix_zOrder h hr).sublist

theorem mem_nestedBlocks_iff (h : e.tree.Sound none) (hget : e.tree.get a = some x) :
    v ∈ e.nestedBlocks a ↔ e.Nests a v := by
  have hmem := mem_block_iff (v := v) (r := .window a) h hget
  have hnodup := nodup_block (r := .window a) h hget
  rw [block_window h hget] at hmem hnodup
  rw [List.mem_cons] at hmem
  -- A window is not among the windows nested below it.
  by_cases hv : v = a
  · subst hv
    refine iff_of_false (List.nodup_cons.mp hnodup).1 fun hnests => ?_
    obtain ⟨y, z, hy, hz, hne, -⟩ := (nests_iff h).mp hnests
    exact hne (Option.some.inj (hy.symm.trans hz))
  · exact (or_iff_right hv).symm.trans (hmem.trans (or_iff_right hv))

/-- Among siblings, the block of one stands between those of its siblings. -/
theorem block_split (h : e.tree.Sound none) (hr : e.holderNode r = some x) {below above : List H}
    (hsplit : e.attached r = below ++ a :: above) :
    e.block r = (r.own ++ below.flatMap fun v => e.block (.window v)) ++ e.block (.window a) ++
      above.flatMap fun v => e.block (.window v) := by
  rw [block_eq h hr, hsplit, List.flatMap_append, List.flatMap_cons]
  simp only [List.append_assoc]

end Engine

end ZOrder
