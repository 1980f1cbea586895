/-
  ZOrder.Proofs.Engine.Requests

  What a request says. Its windows are one block of the order of the screen, and its
  anchor is where that block belongs; so a flat stack that agrees with the order about
  all other windows shows the whole order once the request is carried out.
-/

import ZOrder.Engine.Basic
import ZOrder.Proofs.FlatStack.Realizes
import ZOrder.Proofs.Tree.Order

namespace ZOrder.Tree

variable {H : Type} {t : Tree H}

/-- The anchor of a block of windows is read off the windows around it. -/
theorem anchorIn_append {below run above : List NodeId}
    (hnodup : (below ++ run ++ above).Nodup)
    (hwindows : ∀ x ∈ below ++ above, ∃ w, t.handle x = some w) (hrun : run ≠ []) :
    t.anchorIn (below ++ run ++ above) run =
      .between (t.handles below) (t.handles above) := by
  obtain ⟨id, rest, rfl⟩ := List.exists_cons_of_ne_nil hrun
  have hid : id ∉ below := by
    intro hmem
    rw [List.append_assoc, List.nodup_append] at hnodup
    exact hnodup.2.2 id hmem id (by simp) rfl
  -- The first window of the block stands right above the windows below the block.
  have hplace : (below ++ (id :: rest) ++ above).idxOf? id = some below.length := by
    rw [List.append_assoc, List.cons_append, idxOf?_append_cons hid]
  rw [anchorIn, List.head?_cons, Option.bind_some, hplace]
  rcases List.eq_nil_or_concat below with rfl | ⟨rest', x, rfl⟩
  · -- Nothing is below the block: the first window above it, if any, is the anchor.
    dsimp only [List.length_nil]
    rw [List.nil_append, List.getElem?_append_right (Nat.le_refl _), Nat.sub_self]
    cases above with
    | nil => rfl
    | cons y above =>
      obtain ⟨w, hw⟩ := hwindows y (by simp)
      simp [handles, hw, Anchor.between]
  · rw [List.concat_eq_append] at hwindows ⊢
    obtain ⟨w, hw⟩ := hwindows x (by simp)
    have hbelow : t.handles (rest' ++ [x]) = t.handles rest' ++ [w] := by
      simp [handles, hw]
    rw [hbelow, Anchor.between_concat, List.length_append, List.length_singleton]
    dsimp only
    simp [hw]

variable [DecidableEq H]

/-- A block of the order between two others. -/
theorem Sound.request_eq (h : t.Sound none) {x : NodeId} {below above : List NodeId}
    (horder : t.order = below ++ t.run x ++ above) (hrun : t.run x ≠ []) :
    t.request x = ⟨t.handles (t.run x), .between (t.handles below) (t.handles above)⟩ := by
  have hnodup := h.nodup_order
  have hwindows : ∀ y ∈ below ++ above, ∃ w, t.handle y = some w := by
    intro y hy
    refine h.mem_order_iff.mp ?_
    rw [horder]
    simp only [List.mem_append] at hy ⊢
    tauto
  -- Everything around the block is a window, so its neighbours have handles.
  rw [horder] at hnodup
  rw [request, requestIn, horder, anchorIn_append hnodup hwindows hrun]

omit [DecidableEq H] in
theorem request_windows (t : Tree H) (x : NodeId) :
    (t.request x).windows = t.handles (t.run x) := rfl

/-- A request for a window names that window first. -/
theorem Sound.head?_request (h : t.Sound none) {x : NodeId} {w : H} (hx : t.handle x = some w) :
    (t.request x).windows.head? = some w := by
  rw [request_windows, handles, h.head_run hx, List.filterMap_cons_some hx, List.head?_cons]

theorem Sound.nodup_zOrder (h : t.Sound none) : (t.handles t.order).Nodup :=
  h.nodup_handles h.nodup_order

theorem Sound.exists_around (h : t.Sound none) {x : NodeId} (hrun : t.run x ≠ []) :
    ∃ below above, t.order = below ++ t.run x ++ above := by
  have hx : t.Live x := by
    by_contra hx
    exact hrun (run_of_not_live hx)
  obtain ⟨l, hl⟩ := h.exists_root hx
  obtain ⟨below, above, heq⟩ := h.run_infix_order hl
  exact ⟨below, above, heq.symm⟩

omit [DecidableEq H] in
theorem request_of_run_nil {x : NodeId} (hrun : t.run x = []) :
    t.request x = ⟨[], .floor⟩ := by
  simp only [request, requestIn, anchorIn, hrun]
  rfl

/-- A request names windows of the forest only. -/
theorem Sound.mem_of_names (h : t.Sound none) {x : NodeId} {w : H} (hw : (t.request x).Names w) :
    w ∈ t.handles t.order := by
  by_cases hrun : t.run x = []
  · rw [request_of_run_nil hrun] at hw
    rcases hw with hmem | habove | hbelow
    · cases hmem
    · cases habove
    · cases hbelow
  · obtain ⟨below, above, horder⟩ := h.exists_around hrun
    rw [h.request_eq horder hrun] at hw
    rw [horder, handles_append, handles_append]
    rcases hw with hmem | hanchor
    · exact List.mem_append_left _ (List.mem_append_right _ hmem)
    · rcases Anchor.mem_of_between hanchor with hmem | hmem
      · exact List.mem_append_left _ (List.mem_append_left _ hmem)
      · exact List.mem_append_right _ hmem

/-- A request lists each of its windows once, and is anchored on another one. -/
theorem Sound.tidy_request (h : t.Sound none) (x : NodeId) : (t.request x).Tidy := by
  by_cases hrun : t.run x = []
  · rw [request_of_run_nil hrun]
    exact ⟨List.nodup_nil, fun v _ => List.not_mem_nil⟩
  · obtain ⟨below, above, horder⟩ := h.exists_around hrun
    have hnodup := h.nodup_zOrder
    rw [horder, handles_append, handles_append] at hnodup
    obtain ⟨hbelow, habove, -⟩ := disjoint_of_nodup_block hnodup
    rw [h.request_eq horder hrun]
    refine ⟨hnodup.of_append_left.of_append_right, fun v hv hmem => ?_⟩
    rcases Anchor.mem_of_between hv with hv | hv
    · exact hbelow hv hmem
    · exact habove hv hmem

/-- Carrying out the request for a node shows the order of the screen on every stack that
agrees with it about the windows outside the request. -/
theorem Sound.apply_request (h : t.Sound none) {x : NodeId} {M : List H}
    (hM : M.filter (· ∉ t.handles (t.run x)) =
      (t.handles t.order).filter (· ∉ t.handles (t.run x))) :
    FlatStack.apply ⟨M⟩ (t.request x) = ⟨t.handles t.order⟩ := by
  by_cases hrun : t.run x = []
  · -- A request without windows is carried out by leaving the stack alone.
    have hwindows : (t.request x).windows = [] := by rw [request_windows, hrun]; rfl
    rw [FlatStack.apply_of_nil M hwindows]
    simpa [hrun, handles] using hM
  · obtain ⟨below, above, horder⟩ := h.exists_around hrun
    have hz : t.handles t.order =
        t.handles below ++ t.handles (t.run x) ++ t.handles above := by
      rw [horder, handles_append, handles_append]
    have hnodup := h.nodup_zOrder
    rw [hz] at hnodup hM ⊢
    rw [h.request_eq horder hrun]
    exact FlatStack.apply_between hnodup (hM.trans (filter_notMem_block hnodup))

/-- The same for the request of a node further up. -/
theorem Sound.apply_request_of_below (h : t.Sound none) {a x : NodeId} {M : List H}
    (ha : t.Below a x)
    (hM : M.filter (· ∉ t.handles (t.run x)) =
      (t.handles t.order).filter (· ∉ t.handles (t.run x))) :
    FlatStack.apply ⟨M⟩ (t.request a) = ⟨t.handles t.order⟩ :=
  h.apply_request (filter_notMem_mono ((h.run_infix ha).filterMap t.handle).subset hM)

end ZOrder.Tree
