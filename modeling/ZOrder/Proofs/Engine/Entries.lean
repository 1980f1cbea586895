/-
  ZOrder.Proofs.Engine.Entries

  The stacking as a tree of entries. The entries are made from the slots: first those of
  the children of a node, each by the same recursion, and then the one of the node. Nothing
  in the slots says that this ends; it does since no node lies below itself, and `Entry`
  holds of just one entry for each node.

  The order of the screen comes from another walk, which keeps the nodes still to visit in
  a list. Both list a node before its children and the children bottom to top, so the
  windows of the entries in pre-order are those of the order.
-/

import ZOrder.Info
import ZOrder.Proofs.Engine.Blocks
import ZOrder.Proofs.Tree.Families
import ZOrder.Proofs.Tree.WellFormed

namespace ZOrder

/-! ## Entries of nodes -/

namespace Info

variable {H : Type}

/-- The entry for what a node stands for, with the entries below it. An empty slot would show
as a band without a name. -/
def ofKind (q : Query H) (kind : Option (NodeKind H)) (below : List (Info H)) : Info H :=
  match kind with
  | some (.window w _) =>
    { name := (q.name w).getD ""
      x := (q.position w).map Prod.fst
      y := (q.position w).map Prod.snd
      kind := .window
      window := some w
      children := below }
  | some (.layer l) =>
    { name := l.name, x := none, y := none, kind := .layer, window := none, children := below }
  | none => { name := "", x := none, y := none, kind := .layer, window := none, children := below }

/-- The entry `j` is `i`, or is somewhere below it. -/
def Contains (i j : Info H) : Prop := Relation.ReflTransGen (fun a b => b ∈ a.children) i j

theorem children_ofKind (q : Query H) (kind : Option (NodeKind H)) (below : List (Info H)) :
    (ofKind q kind below).children = below := by
  rcases kind with - | (l | ⟨w, home⟩) <;> rfl

theorem ofFamilies_eq_map (q : Query H) (fs : List (Family H)) :
    ofFamilies q fs = fs.map (ofFamily q) := by
  induction fs with
  | nil => rfl
  | cons f fs ih => rw [ofFamilies, List.map_cons, ih]

theorem windowsOf_eq_flatMap (is : List (Info H)) : windowsOf is = is.flatMap windows := by
  induction is with
  | nil => rfl
  | cons i is ih => rw [windowsOf, List.flatMap_cons, ih]

theorem windows_eq (i : Info H) :
    i.windows = (if i.kind = .window then i.window.toList else []) ++
      i.children.flatMap windows := by
  obtain ⟨name, x, y, kind, window, children⟩ := i
  rw [windows, windowsOf_eq_flatMap]

/-- Where every window entry has its window, the windows are counted by listing them. -/
theorem windowCount_eq_length {i : Info H} (hwindow : i.kind = .window → i.window.isSome = true)
    (hbelow : ∀ j ∈ i.children, j.windowCount = j.windows.length) :
    i.windowCount = i.windows.length := by
  obtain ⟨name, x, y, kind, window, children⟩ := i
  dsimp only at hwindow hbelow
  have hcounts : windowCounts children = (children.flatMap windows).length := by
    clear hwindow
    induction children with
    | nil => rfl
    | cons j js ih =>
      rw [windowCounts, List.flatMap_cons, List.length_append, hbelow j List.mem_cons_self,
        ih fun k hk => hbelow k (List.mem_cons_of_mem j hk)]
  rw [windowCount, windows_eq, List.length_append, hcounts]
  split
  · next hkind =>
    obtain ⟨w, hw⟩ := Option.isSome_iff_exists.mp (hwindow hkind)
    rw [hw]
    rfl
  · rfl

end Info

/-- If each member has just one image, lists are related if one is the image of the other. -/
theorem forall₂_iff_eq_map {α β : Type} {R : α → β → Prop} {f : α → β} {as : List α} {bs : List β}
    (h : ∀ a ∈ as, ∀ b, R a b ↔ b = f a) : List.Forall₂ R as bs ↔ bs = as.map f := by
  induction as generalizing bs with
  | nil => rw [List.forall₂_nil_left_iff, List.map_nil]
  | cons a as ih =>
    have hrest : ∀ cs, List.Forall₂ R as cs ↔ cs = as.map f := fun cs =>
      ih fun b hb => h b (List.mem_cons_of_mem a hb)
    rw [List.forall₂_cons_left_iff, List.map_cons]
    constructor
    · rintro ⟨b, cs, hb, hcs, rfl⟩
      rw [(h a List.mem_cons_self b).mp hb, (hrest cs).mp hcs]
    · rintro rfl
      exact ⟨f a, as.map f, (h a List.mem_cons_self _).mpr rfl, (hrest _).mpr rfl, rfl⟩

namespace Tree

variable {H : Type} {t : Tree H} {loose : Option NodeId} {q : Query H} {x : NodeId} {i : Info H}

/-- The recursion that makes the entry of a node comes to an end, with this entry. -/
inductive Entry (t : Tree H) (q : Query H) : NodeId → Info H → Prop where
  /-- The entries of the children are made first, bottom to top. -/
  | node {x : NodeId} {below : List (Info H)}
      (children : List.Forall₂ (Entry t q) (t.children x) below) :
      Entry t q x (.ofKind q (t.kind x) below)

/-- The entry of a node, with the families below it. -/
def entry (t : Tree H) (q : Query H) (x : NodeId) : Info H :=
  .ofKind q (t.kind x) (Info.ofFamilies q ((t.children x).filterMap t.family))

theorem children_entry_eq_ofFamilies (t : Tree H) (q : Query H) (x : NodeId) :
    (t.entry q x).children = Info.ofFamilies q ((t.children x).filterMap t.family) :=
  Info.children_ofKind q _ _

theorem window_entry (t : Tree H) (q : Query H) (x : NodeId) :
    (t.entry q x).window = t.handle x := by
  cases hnode : t.node x with
  | none => simp [entry, Info.ofKind, kind, handle, hnode]
  | some n =>
    obtain ⟨k, p, cs⟩ := n
    cases k <;> simp [entry, Info.ofKind, kind, handle, hnode, Node.handle]

theorem kind_entry_eq_window_iff (t : Tree H) (q : Query H) (x : NodeId) :
    (t.entry q x).kind = .window ↔ ∃ w, t.handle x = some w := by
  simp only [handle_eq_some_iff, entry]
  rcases t.kind x with - | (l | ⟨w, home⟩) <;> simp [Info.ofKind]

section

variable [DecidableEq H]

/-- The entries below a node are those of its children. -/
theorem Sound.children_entry (h : t.Sound loose) (q : Query H) (x : NodeId) :
    (t.entry q x).children = (t.children x).map (t.entry q) := by
  have hchild : ∀ c ∈ t.children x, (t.family c).map (Info.ofFamily q) = some (t.entry q c) := by
    intro c hc
    obtain ⟨w, l, hkind, hfamily⟩ := h.family_of_mem_children hc
    rw [hfamily, entry, hkind]
    rfl
  rw [children_entry_eq_ofFamilies, Info.ofFamilies_eq_map, List.map_filterMap,
    List.filterMap_congr hchild, List.filterMap_eq_map']

/-- The recursion ends for every node, with the entry of its families. -/
theorem Sound.entry_iff (h : t.Sound loose) : t.Entry q x i ↔ i = t.entry q x := by
  induction x using h.children_induction generalizing i with
  | step x ih =>
    have hbelow : ∀ is, List.Forall₂ (t.Entry q) (t.children x) is ↔
        is = (t.entry q x).children := fun is => by
      rw [h.children_entry, forall₂_iff_eq_map fun c hc j => ih c hc]
    constructor
    · rintro ⟨children⟩
      rw [(hbelow _).mp children, children_entry_eq_ofFamilies]
      rfl
    · rintro rfl
      exact .node (children_entry_eq_ofFamilies t q x ▸ (hbelow _).mpr rfl)

/-- The windows of an entry are those below its node, in the same order. -/
theorem Sound.windows_entry (h : t.Sound loose) (q : Query H) (x : NodeId) :
    (t.entry q x).windows = t.handles (t.descendants x) := by
  induction x using h.children_induction with
  | step x ih =>
    by_cases hx : t.Live x
    · have hown : (if (t.entry q x).kind = .window then (t.entry q x).window.toList else []) =
          (t.handle x).toList := by
        rw [window_entry]
        split
        · rfl
        · next hkind =>
          rw [kind_entry_eq_window_iff, ← Option.ne_none_iff_exists', not_not] at hkind
          rw [hkind, Option.toList_none]
      rw [Info.windows_eq, hown, h.handles_descendants_eq hx, h.children_entry, List.flatMap_map]
      exact congrArg (_ ++ ·) (List.flatMap_congr fun c hc => ih c hc)
    · -- An empty slot has no children and no window.
      rw [Info.windows_eq, h.children_entry, children_of_not_live hx, descendants_of_not_live hx,
        if_neg]
      · rfl
      · rw [kind_entry_eq_window_iff]
        rintro ⟨w, hw⟩
        exact hx (live_of_handle hw)

theorem Sound.windowCount_entry (h : t.Sound loose) (q : Query H) (x : NodeId) :
    (t.entry q x).windowCount = (t.entry q x).windows.length := by
  induction x using h.children_induction with
  | step x ih =>
    refine Info.windowCount_eq_length (fun hkind => ?_) fun j hj => ?_
    · rw [window_entry, Option.isSome_iff_exists]
      exact (kind_entry_eq_window_iff t q x).mp hkind
    · rw [h.children_entry] at hj
      obtain ⟨c, hc, rfl⟩ := List.mem_map.mp hj
      exact ih c hc

/-- As many windows are listed in the order as there are. -/
theorem Sound.length_order (h : t.Sound none) : t.order.length = t.size := by
  have hperm : t.order.Perm (t.index.entries.map Prod.snd) :=
    (List.perm_ext_iff_of_nodup h.nodup_order h.nodup_entries).mpr fun x => by
      rw [h.mem_order_iff, h.mem_entries]
  rw [hperm.length_eq, List.length_map]
  rfl

end

end Tree

/-! ## Entries of the screen -/

namespace Engine

open ZOrder.Tree (root)

variable {H : Type} [DecidableEq H] {e : Engine H} {q : Query H} {i j : Info H} {o w : H}

/-- The entries of the bands are those of their roots. -/
theorem children_info (h : e.tree.Sound none) (q : Query H) :
    (e.info q).children = (Layer.all.map root).map (e.tree.entry q) := by
  rw [List.map_map]
  refine List.map_congr_left fun l _ => ?_
  rw [Function.comp_apply, Tree.entry, h.kind_root]
  rfl

/-- All entries but that of the screen are entries of nodes. -/
theorem contains_info_iff (h : e.tree.Sound none) :
    (e.info q).Contains i ↔ i = e.info q ∨ ∃ x, e.tree.Live x ∧ i = e.tree.entry q x := by
  constructor
  · intro hi
    induction hi with
    | refl => exact .inl rfl
    | tail _ hmem ih =>
      rcases ih with rfl | ⟨x, -, rfl⟩
      · rw [children_info h, List.map_map] at hmem
        obtain ⟨l, -, rfl⟩ := List.mem_map.mp hmem
        exact .inr ⟨root l, h.live_root l, rfl⟩
      · rw [h.children_entry] at hmem
        obtain ⟨c, hc, rfl⟩ := List.mem_map.mp hmem
        exact .inr ⟨c, h.live_child hc, rfl⟩
  · rintro (rfl | ⟨x, hx, rfl⟩)
    · exact .refl
    · obtain ⟨l, hl⟩ := h.exists_root hx
      clear hx
      -- From the root of its band each node is reached through its parent.
      induction hl using Relation.ReflTransGen.head_induction_on with
      | refl =>
        refine .single ?_
        rw [children_info h]
        exact List.mem_map_of_mem (List.mem_map_of_mem (Layer.mem_all l))
      | @head x p hp _ ih =>
        refine .tail ih ?_
        rw [h.children_entry]
        exact List.mem_map_of_mem ((h.parent_iff x p).mp hp)

/-- Each window has one entry, that of its node. -/
theorem contains_window_iff (h : e.tree.Sound none) :
    (e.info q).Contains i ∧ i.window = some w ↔
      ∃ x, e.tree.get w = some x ∧ i = e.tree.entry q x := by
  rw [contains_info_iff h]
  constructor
  · rintro ⟨rfl | ⟨x, -, rfl⟩, hw⟩
    · cases hw
    · rw [Tree.window_entry] at hw
      exact ⟨x, (h.get_iff w x).mpr hw, rfl⟩
  · rintro ⟨x, hget, rfl⟩
    have hw := (h.get_iff w x).mp hget
    exact ⟨.inr ⟨x, Tree.live_of_handle hw, rfl⟩, (Tree.window_entry ..).trans hw⟩

/-- An entry is directly below another one if its window is attached to the other. -/
theorem nested_entry_iff (h : e.tree.Sound none) :
    (∃ i j, (e.info q).Contains i ∧ i.window = some o ∧ j ∈ i.children ∧ j.window = some w) ↔
      e.Owns o w := by
  constructor
  · rintro ⟨i, j, hi, ho, hj, hw⟩
    obtain ⟨x, hx, rfl⟩ := (contains_window_iff h).mp ⟨hi, ho⟩
    rw [h.children_entry] at hj
    obtain ⟨y, hy, rfl⟩ := List.mem_map.mp hj
    rw [Tree.window_entry] at hw
    exact ⟨x, y, hx, (h.get_iff w y).mpr hw, (h.parent_iff y x).mpr hy⟩
  · rintro ⟨x, y, hx, hy, hp⟩
    obtain ⟨hi, ho⟩ := (contains_window_iff (q := q) h).mpr ⟨x, hx, rfl⟩
    obtain ⟨-, hw⟩ := (contains_window_iff (q := q) h).mpr ⟨y, hy, rfl⟩
    refine ⟨_, _, hi, ho, ?_, hw⟩
    rw [h.children_entry]
    exact List.mem_map_of_mem ((h.parent_iff y x).mp hp)

theorem windows_entry_root (h : e.tree.Sound none) (q : Query H) (l : Layer) :
    (e.tree.entry q (root l)).windows = e.windowsIn l :=
  h.windows_entry q (root l)

theorem windows_info (h : e.tree.Sound none) (q : Query H) : (e.info q).windows = e.zOrder := by
  rw [Info.windows_eq, children_info h, zOrder_eq_flatMap, List.map_map, List.flatMap_map]
  exact List.flatMap_congr fun l _ => windows_entry_root h q l

theorem windowCount_info (h : e.tree.Sound none) (q : Query H) :
    (e.info q).windowCount = e.tree.size := by
  have hcount : (e.info q).windowCount = (e.info q).windows.length := by
    refine Info.windowCount_eq_length (fun hkind => by cases hkind) fun j hj => ?_
    rw [children_info h] at hj
    obtain ⟨x, -, rfl⟩ := List.mem_map.mp hj
    exact h.windowCount_entry q x
  rw [hcount, windows_info h, zOrder, ← h.length_order]
  exact Tree.length_handles fun x hx => (h.mem_order_iff).mp hx

/-- What a window's entry lists is what a request for the window restacks. -/
theorem windows_entry_eq_request (h : e.tree.Sound none) (q : Query H) (x : NodeId) :
    (e.tree.entry q x).windows = (e.tree.request x).windows := by
  rw [h.windows_entry, Tree.handles_descendants]
  rfl

/-- The tree of entries shows the stacking. Its recursion ends, for each band with the one
entry below the top. In pre-order the entries list the order of the screen, those of a band
what the band holds. They nest as the windows are attached, and they are as many as the
windows; those of a window are as many as its requests restack. -/
theorem info_shows_stacking (h : Reachable e) (q : Query H) :
    (e.info q).kind = .root ∧
    (∀ is, List.Forall₂ (e.tree.Entry q) (Layer.all.map root) is ↔ is = (e.info q).children) ∧
    (e.info q).children.map (fun b => (b.kind, b.name, b.windows)) =
      Layer.all.map (fun l => (.layer, l.name, e.windowsIn l)) ∧
    (e.info q).windows = e.zOrder ∧
    (∀ o w, (∃ i j, (e.info q).Contains i ∧ i.window = some o ∧ j ∈ i.children ∧
      j.window = some w) ↔ e.Owns o w) ∧
    (e.info q).windowCount = e.tree.size ∧
    ∀ i w, (e.info q).Contains i → i.window = some w → ∃ x, e.tree.get w = some x ∧
      i.windows = (e.tree.request x).windows ∧
      i.windowCount = (e.tree.request x).windows.length := by
  have hs := h.sound
  refine ⟨rfl, fun is => ?_, ?_, windows_info hs q, fun o w => nested_entry_iff hs,
    windowCount_info hs q, fun i w hi hw => ?_⟩
  · rw [children_info hs]
    exact forall₂_iff_eq_map fun x _ i => hs.entry_iff
  · rw [children_info hs, List.map_map, List.map_map]
    refine List.map_congr_left fun l _ => ?_
    simp only [Function.comp_apply, windows_entry_root hs]
    rw [Tree.entry, hs.kind_root]
    rfl
  · obtain ⟨x, hget, rfl⟩ := (contains_window_iff hs).mp ⟨hi, hw⟩
    have hwindows := windows_entry_eq_request hs q x
    exact ⟨x, hget, hwindows, (hs.windowCount_entry q x).trans (congrArg List.length hwindows)⟩

/-- The window 2 and its dialog 3 nest below 1, so the entry of 2 is below that of 1 and lists
what a request for 2 restacks; 4 is in another band. -/
theorem info_shows_stacking_of_dialogs :
    ∃ e : Engine Nat, e.Reachable ∧ (e.info .blank).windows = [1, 2, 3, 4] ∧
      (e.info .blank).windowCount = 4 ∧
      (∃ i j, (e.info .blank).Contains i ∧ i.window = some 1 ∧ j ∈ i.children ∧
        j.window = some 2 ∧ j.windows = [2, 3] ∧ j.windowCount = 2) := by
  let dialogOf (o : Nat) : Query Nat := { Query.blank with owner := fun _ => some o }
  have hreach : Reachable ((ofSettings {}).performAll [(.blank, .add 1), (dialogOf 1, .add 2),
      (dialogOf 2, .add 3), (.blank, .addAt 4 .top .top)]) := .performAll (.start {}) _
  obtain ⟨-, -, -, hwindows, hnested, hcount, hentry⟩ := info_shows_stacking hreach .blank
  refine ⟨_, hreach, hwindows.trans (by decide), hcount.trans (by decide), ?_⟩
  obtain ⟨i, j, hi, h1, hj, h2⟩ :=
    (hnested 1 2).mpr ⟨11, 12, by decide, by decide, by decide⟩
  obtain ⟨x, hget, hrun, hlength⟩ := hentry j 2 (.tail hi hj) h2
  obtain rfl : 12 = x := Option.some.inj (Eq.trans (by decide) hget)
  exact ⟨i, j, hi, h1, hj, h2, hrun.trans (by decide), hlength.trans (by decide)⟩

end Engine

end ZOrder
