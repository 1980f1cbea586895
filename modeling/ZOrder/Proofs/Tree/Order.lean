/-
  ZOrder.Proofs.Tree.Order

  The order of the screen in a sound forest, and what each edit does to it.

  A family fills one block of the order, and so does a band. Taking a family out
  deletes its block and moves nothing else; attaching it is the same fact read
  backwards. When a window is destroyed, it alone disappears from the order, since
  its children are listed where it stood.
-/

import ZOrder.Proofs.Block
import ZOrder.Proofs.Tree.Walk

namespace ZOrder.Tree

variable {H : Type} {t t' : Tree H} {loose loose' : Option NodeId}

/-! ## Runs -/

theorem run_of_not_live {x : NodeId} (hx : ¬ t.Live x) : t.run x = [] := by
  rw [run, descendants_of_not_live hx, List.filter_nil]

theorem Linked.mem_run (h : t.Linked loose) {x y : NodeId} :
    y ∈ t.run x ↔ t.Live x ∧ t.Below x y ∧ ∃ w, t.handle y = some w := by
  rw [run, List.mem_filter, h.mem_descendants, Option.isSome_iff_exists, and_assoc]

theorem Linked.nodup_run (h : t.Linked loose) (x : NodeId) : (t.run x).Nodup :=
  (h.nodup_descendants x).filter _

/-- The family of a window consists of windows. -/
theorem Sound.run_of_handle [DecidableEq H] (h : t.Sound loose) {x : NodeId} {w : H}
    (hx : t.handle x = some w) : t.run x = t.descendants x := by
  refine List.filter_eq_self.mpr fun y hy => Option.isSome_iff_exists.mpr ?_
  rcases (h.mem_descendants.mp hy).2.cases_parent with rfl | ⟨p, hp, -⟩
  · exact ⟨w, hx⟩
  · exact h.exists_handle hp

/-- What lies below a node is one block of what lies below any node above it. -/
theorem Linked.descendants_infix (h : t.Linked loose) {a x : NodeId} (ha : t.Below a x) :
    t.descendants x <:+: t.descendants a := by
  induction ha with
  | refl => exact List.infix_rfl
  | @tail c p _ hp ih =>
    refine ih.trans ?_
    rw [h.descendants_eq (h.live_parent hp)]
    exact (infix_flatMap_of_mem _ ((h.parent_iff c p).mp hp)).trans (List.suffix_cons p _).isInfix

theorem Linked.run_infix (h : t.Linked loose) {a x : NodeId} (ha : t.Below a x) :
    t.run x <:+: t.run a :=
  (h.descendants_infix ha).filter _

/-- A window comes before the windows nested below it. -/
theorem Sound.head_run [DecidableEq H] (h : t.Sound loose) {x : NodeId} {w : H}
    (hx : t.handle x = some w) :
    t.run x = x :: (t.children x).flatMap t.descendants := by
  rw [h.run_of_handle hx, h.descendants_eq (live_of_handle hx)]

/-! ## The order -/

section Sound

variable [DecidableEq H]

theorem Sound.mem_order (h : t.Sound loose) {y : NodeId} :
    y ∈ t.order ↔ (∃ w, t.handle y = some w) ∧ ∃ l, t.Below (root l) y := by
  rw [order, List.mem_flatMap]
  constructor
  · rintro ⟨l, -, hy⟩
    obtain ⟨-, hb, hw⟩ := h.mem_run.mp hy
    exact ⟨hw, l, hb⟩
  · rintro ⟨hw, l, hb⟩
    exact ⟨l, Layer.mem_all l, h.mem_run.mpr ⟨h.live_root l, hb, hw⟩⟩

/-- The order lists the windows. -/
theorem Sound.mem_order_iff (h : t.Sound none) {y : NodeId} :
    y ∈ t.order ↔ ∃ w, t.handle y = some w := by
  rw [h.mem_order]
  refine and_iff_left_of_imp ?_
  rintro ⟨w, hw⟩
  exact h.exists_root (live_of_handle hw)

theorem Sound.disjoint_run_root (h : t.Sound loose) {l l' : Layer} (hne : l ≠ l') :
    List.Disjoint (t.run (root l)) (t.run (root l')) := by
  intro y hy hy'
  exact hne (h.root_eq_of_below (h.mem_run.mp hy).2.1 (h.mem_run.mp hy').2.1)

theorem Sound.nodup_order (h : t.Sound loose) : t.order.Nodup := by
  rw [order, List.nodup_flatMap]
  exact ⟨fun l _ => h.nodup_run (root l),
    Layer.nodup_all.imp fun hne => h.disjoint_run_root hne⟩

/-- A family is one block of the order. -/
theorem Sound.run_infix_order (h : t.Sound loose) {x : NodeId} {l : Layer}
    (hx : t.Below (root l) x) : t.run x <:+: t.order :=
  (h.run_infix hx).trans (infix_flatMap_of_mem (fun l => t.run (root l)) (Layer.mem_all l))

end Sound

/-- The windows of the bands below a band. -/
def orderBelow (t : Tree H) (l : Layer) : List NodeId :=
  (Layer.all.take l.index).flatMap fun l => t.run (root l)

/-- The windows of the bands above a band. -/
def orderAbove (t : Tree H) (l : Layer) : List NodeId :=
  (Layer.all.drop (l.index + 1)).flatMap fun l => t.run (root l)

/-- The order is made of three parts: the bands below a band, the band, those above. -/
theorem order_eq_append (t : Tree H) (l : Layer) :
    t.order = t.orderBelow l ++ t.run (root l) ++ t.orderAbove l := by
  have hall : Layer.all =
      Layer.all.take l.index ++ l :: Layer.all.drop (l.index + 1) := by
    cases l <;> rfl
  conv_lhs => rw [order, hall]
  simp [orderBelow, orderAbove]

/-! ## Forests that list the same children -/

theorem descendants_congr (h : t.Linked loose) (h' : t'.Linked loose') {x : NodeId}
    (hlive : ∀ y, t.Below x y → (t'.Live y ↔ t.Live y))
    (hsame : ∀ y, t.Below x y → t'.children y = t.children y) :
    t'.descendants x = t.descendants x := by
  induction x using h.children_induction with
  | step x ih =>
    have hx := hlive x (Below.refl t x)
    by_cases hlx : t.Live x
    · rw [h'.descendants_eq (hx.mpr hlx), h.descendants_eq hlx, hsame x (Below.refl t x)]
      refine congrArg (x :: ·) (List.flatMap_congr fun c hc => ?_)
      have hcx := (h.parent_iff c x).mpr hc
      exact ih c hc (fun y hy => hlive y (.trans (.of_parent hcx (Below.refl t x)) hy))
        fun y hy => hsame y (.trans (.of_parent hcx (Below.refl t x)) hy)
    · rw [descendants_of_not_live hlx, descendants_of_not_live (hx.not.mpr hlx)]

/-! ## Attaching and taking out -/

section Grafts

variable {p id : NodeId} {below above : List NodeId}

/-- The family that is attached or taken out stays as it is. -/
theorem Grafts.below_iff (h : Grafts t t' p id below above) (ht' : t'.Linked none) {y : NodeId} :
    t'.Below id y ↔ t.Below id y := by
  have hpar := h.parent_self
  constructor
  · intro hy
    -- The only new link leads out of the family, so no way up to `id` uses it.
    induction hy using Relation.ReflTransGen.head_induction_on with
    | refl => exact Below.refl t id
    | @head x q hq hqid ih =>
      have hx : x ≠ id := by
        rintro rfl
        obtain rfl := Option.some.inj (hpar.symm.trans hq)
        exact ht'.not_below_parent hpar hqid
      rw [h.parent, if_neg hx] at hq
      exact .of_parent hq ih
  · intro hy
    induction hy using Relation.ReflTransGen.head_induction_on with
    | refl => exact Below.refl t' id
    | @head x q hq _ ih =>
      have hx : x ≠ id := by
        rintro rfl
        rw [h.parentless] at hq
        cases hq
      exact .of_parent (by rw [h.parent, if_neg hx, hq]) ih

theorem Grafts.not_below (h : Grafts t t' p id below above) (ht' : t'.Linked none) :
    ¬ t.Below id p := by
  rw [← h.below_iff ht']
  exact ht'.not_below_parent h.parent_self

theorem Grafts.descendants_family (h : Grafts t t' p id below above) (ht : t.Linked (some id))
    (ht' : t'.Linked none) : t'.descendants id = t.descendants id := by
  refine descendants_congr ht ht' (fun y _ => h.live y) fun y hy => ?_
  rw [h.children, if_neg]
  rintro rfl
  exact h.not_below ht' hy

/-- The children of a node outside the family lie outside the family. -/
theorem Grafts.not_below_child (h : Grafts t t' p id below above) (ht : t.Linked (some id))
    {c x : NodeId} (hx : ¬ t.Below id x) (hc : c ∈ t.children x) : ¬ t.Below id c := by
  have hcx := (ht.parent_iff c x).mpr hc
  intro hb
  rcases hb.cases_parent with rfl | ⟨q, hq, hqid⟩
  · rw [h.parentless] at hcx
    cases hcx
  · obtain rfl := Option.some.inj (hcx.symm.trans hq)
    exact hx hqid

/-- Outside the family, the walk down meets what it met before, but for the family. -/
theorem Grafts.descendants_eq_filter (h : Grafts t t' p id below above)
    (ht : t.Linked (some id)) (ht' : t'.Linked none) {x : NodeId} (hx : ¬ t.Below id x) :
    t.descendants x = (t'.descendants x).filter (· ∉ t.descendants id) := by
  -- From the children up: only at `p` do the lists differ, and there by the family alone.
  induction x using ht'.children_induction with
  | step x ih =>
    by_cases hlx : t.Live x
    · have hxid : x ∉ t.descendants id := fun hmem => hx (ht.mem_descendants.mp hmem).2
      have hsub : ∀ cs : List NodeId, (∀ c ∈ cs, c ∈ t.children x) →
          (cs.flatMap t'.descendants).filter (· ∉ t.descendants id) =
            cs.flatMap t.descendants := by
        intro cs hcs
        rw [List.filter_flatMap]
        refine List.flatMap_congr fun c hc => ?_
        have hcx := hcs c hc
        exact (ih c (h.mem_children.mpr (.inr hcx)) (h.not_below_child ht hx hcx)).symm
      have hid : (t'.descendants id).filter (· ∉ t.descendants id) = [] := by
        rw [h.descendants_family ht ht', List.filter_eq_nil_iff]
        simp
      rw [ht.descendants_eq hlx, ht'.descendants_eq ((h.live x).mpr hlx),
        List.filter_cons_of_pos (by simpa using hxid)]
      refine congrArg (x :: ·) ?_
      rw [h.children]
      split
      · next hxp =>
        subst hxp
        rw [h.split] at hsub ⊢
        rw [List.flatMap_append, List.flatMap_append, List.flatMap_cons, List.filter_append,
          List.filter_append, hid, List.nil_append,
          hsub below fun c hc => List.mem_append_left above hc,
          hsub above fun c hc => List.mem_append_right below hc]
      · rw [hsub _ fun c hc => hc]
    · rw [descendants_of_not_live hlx, descendants_of_not_live ((h.live x).not.mpr hlx)]
      rfl

variable [DecidableEq H]

/-- A band without the family that was attached or taken out. -/
theorem Grafts.run_root_eq_filter (h : Grafts t t' p id below above) (ht : t.Sound (some id))
    (ht' : t'.Sound none) (l : Layer) :
    t.run (root l) = (t'.run (root l)).filter (· ∉ t.descendants id) := by
  have hroot : ¬ t.Below id (root l) := by
    intro hb
    have hid := hb.eq_of_parentless (ht.parent_root l)
    have hpar := ht'.parent_root l
    rw [hid, h.parent_self] at hpar
    cases hpar
  rw [run, run, h.descendants_eq_filter ht.toLinked ht'.toLinked hroot, List.filter_filter,
    List.filter_filter]
  refine List.filter_congr fun y _ => ?_
  rw [h.handle, Bool.and_comm]

/-- The order without the family that was attached or taken out. -/
theorem Grafts.order_eq_filter (h : Grafts t t' p id below above) (ht : t.Sound (some id))
    (ht' : t'.Sound none) :
    t.order = t'.order.filter (· ∉ t.descendants id) := by
  rw [order, order, List.filter_flatMap]
  exact List.flatMap_congr fun l _ => h.run_root_eq_filter ht ht' l

end Grafts

/-! ## Windows come and go -/

section Windows

variable [DecidableEq H] {w : H} {home : Layer} {p id : NodeId} {below above : List NodeId}

/-- A new window is not in the order until it is attached. -/
theorem Creates.order_eq (h : Creates t t' w home id) (ht : t.Sound none)
    (ht' : t'.Sound (some id)) : t'.order = t.order := by
  rw [order, order]
  refine List.flatMap_congr fun l _ => ?_
  have hne : ∀ y, t.Below (root l) y → y ≠ id := by
    rintro y hy rfl
    rcases hy.cases_parent with he | ⟨q, hq, -⟩
    · exact h.fresh (he ▸ ht.live_root l)
    · exact h.fresh (live_of_parent hq)
  rw [run, run, descendants_congr ht.toLinked ht'.toLinked (x := root l)]
  · refine List.filter_congr fun y hy => ?_
    rw [h.handle, if_neg (hne y (ht.mem_descendants.mp hy).2)]
  · intro y hy
    rw [h.live_iff]
    exact or_iff_right (hne y hy)
  · exact fun y _ => h.children y

/-- Nodes that the window was not below keep what lies below them. -/
theorem Destroys.descendants_eq (h : Destroys t t' w p id below above) (ht : t.Linked none)
    (ht' : t'.Linked none) (hpar : t.parent id = some p) {x : NodeId} (hx : ¬ t.Below x id) :
    t'.descendants x = t.descendants x := by
  have hid : ∀ y, t.Below x y → y ≠ id := fun y hy he => hx (he ▸ hy)
  have hp : ∀ y, t.Below x y → y ≠ p := fun y hy he => hx (.of_parent hpar (he ▸ hy))
  refine descendants_congr ht ht' (fun y hy => ?_) fun y hy => ?_
  · rw [h.live_iff]
    exact and_iff_right (hid y hy)
  · rw [h.children, if_neg (hid y hy), if_neg (hp y hy)]

/-- What was below the window, once it is gone, is what lies below its children. -/
theorem Destroys.descendants_filter_self (h : Destroys t t' w p id below above)
    (ht : t.Linked none) (ht' : t'.Linked none) (hpar : t.parent id = some p) :
    (t.descendants id).filter (· ≠ id) = (t.children id).flatMap t'.descendants := by
  rw [ht.descendants_eq (live_of_parent hpar), List.filter_cons_of_neg (by simp),
    List.filter_flatMap]
  refine List.flatMap_congr fun c hc => ?_
  have hcid : ¬ t.Below c id := ht.not_below_parent ((ht.parent_iff c id).mpr hc)
  rw [h.descendants_eq ht ht' hpar hcid, List.filter_eq_self]
  intro y hy
  have hyid : y ≠ id := fun he => hcid (he ▸ (ht.mem_descendants.mp hy).2)
  simpa using hyid

/-- The walk down, once a window is gone, meets the other nodes as before. -/
theorem Destroys.descendants_eq_filter (h : Destroys t t' w p id below above)
    (ht : t.Linked none) (ht' : t'.Linked none) (hpar : t.parent id = some p) {x : NodeId}
    (hx : x ≠ id) : t'.descendants x = (t.descendants x).filter (· ≠ id) := by
  have hp : p ≠ id := ht.parent_ne hpar
  -- From the children up, as for a family that is taken out.
  induction x using ht.children_induction with
  | step x ih =>
    by_cases hlx : t.Live x
    · have hsub : ∀ cs : List NodeId, (∀ c ∈ cs, c ∈ t.children x ∧ c ≠ id) →
          (cs.flatMap t.descendants).filter (· ≠ id) = cs.flatMap t'.descendants := by
        intro cs hcs
        rw [List.filter_flatMap]
        exact List.flatMap_congr fun c hc => (ih c (hcs c hc).1 (hcs c hc).2).symm
      rw [ht.descendants_eq hlx, ht'.descendants_eq ((h.live_iff x).mpr ⟨hx, hlx⟩),
        List.filter_cons_of_pos (by simpa using hx)]
      refine congrArg (x :: ·) ?_
      rw [h.children, if_neg hx]
      split
      · next hxp =>
        subst hxp
        have hid := (ht.nodup_split h.split).1
        rw [h.split] at hsub
        -- The children of the window are one level further down.
        have hown := h.descendants_filter_self ht ht' hpar
        rw [h.split, List.flatMap_append, List.flatMap_append, List.flatMap_append,
          List.flatMap_cons, List.filter_append, List.filter_append, hown,
          hsub below, hsub above, List.append_assoc]
        · intro c hc
          exact ⟨by simp [hc], fun he => hid (by simp [← he, hc])⟩
        · intro c hc
          exact ⟨by simp [hc], fun he => hid (by simp [← he, hc])⟩
      · next hxp =>
        refine (hsub _ fun c hc => ⟨hc, ?_⟩).symm
        rintro rfl
        exact hxp (Option.some.inj (((ht.parent_iff c x).mpr hc).symm.trans hpar))
    · rw [descendants_of_not_live hlx, descendants_of_not_live]
      · rfl
      · exact fun hlive => hlx ((h.live_iff x).mp hlive).2

/-- Removing a window deletes it from each band and moves nothing else. -/
theorem Destroys.run_root_eq_filter (h : Destroys t t' w p id below above) (ht : t.Sound none)
    (ht' : t'.Sound none) (hid : t.handle id = some w) (hpar : t.parent id = some p)
    (l : Layer) : t'.run (root l) = (t.run (root l)).filter (· ≠ id) := by
  rw [run, run, h.descendants_eq_filter ht.toLinked ht'.toLinked hpar (ht.ne_root hid l).symm,
    List.filter_filter, List.filter_filter]
  refine List.filter_congr fun y _ => ?_
  rw [h.handle]
  by_cases hy : y = id <;> simp [hy]

/-- Removing a window deletes it from the order and moves nothing else. -/
theorem Destroys.order_eq_filter (h : Destroys t t' w p id below above) (ht : t.Sound none)
    (ht' : t'.Sound none) (hid : t.handle id = some w) (hpar : t.parent id = some p) :
    t'.order = t.order.filter (· ≠ id) := by
  rw [order, order, List.filter_flatMap]
  exact List.flatMap_congr fun l _ => h.run_root_eq_filter ht ht' hid hpar l

end Windows

/-! ## Windows of a list of nodes -/

section Handles

theorem mem_handles {ids : List NodeId} {w : H} :
    w ∈ t.handles ids ↔ ∃ x ∈ ids, t.handle x = some w :=
  List.mem_filterMap

theorem handles_append (t : Tree H) (xs ys : List NodeId) :
    t.handles (xs ++ ys) = t.handles xs ++ t.handles ys :=
  List.filterMap_append

theorem handles_congr (h : ∀ x, t'.handle x = t.handle x) (ids : List NodeId) :
    t'.handles ids = t.handles ids :=
  List.filterMap_congr fun x _ => h x

/-- The root of a band adds no window to the run of the band. -/
theorem handles_descendants (t : Tree H) (x : NodeId) :
    t.handles (t.descendants x) = t.handles (t.run x) := by
  rw [handles, handles, run, List.filterMap_filter]
  refine List.filterMap_congr fun y _ => ?_
  cases t.handle y <;> rfl

variable [DecidableEq H]

theorem Slotted.nodup_handles (h : t.Slotted) {ids : List NodeId} (hids : ids.Nodup) :
    (t.handles ids).Nodup :=
  hids.filterMap fun _ _ _ hx hy => h.handle_inj hx hy

theorem Slotted.disjoint_handles (h : t.Slotted) {xs ys : List NodeId}
    (hdisj : List.Disjoint xs ys) : List.Disjoint (t.handles xs) (t.handles ys) := by
  intro w hx hy
  obtain ⟨x, hxs, hxw⟩ := mem_handles.mp hx
  obtain ⟨y, hys, hyw⟩ := mem_handles.mp hy
  exact hdisj hxs (h.handle_inj hyw hxw ▸ hys)

/-- Windows can be left out before or after the nodes are read off. -/
theorem Slotted.handles_filter (h : t.Slotted) {ids out : List NodeId} :
    t.handles (ids.filter (· ∉ out)) = (t.handles ids).filter (· ∉ t.handles out) := by
  show (ids.filter (· ∉ out)).filterMap t.handle =
    (ids.filterMap t.handle).filter (· ∉ t.handles out)
  rw [List.filterMap_filter, List.filter_filterMap]
  refine List.filterMap_congr fun x _ => ?_
  cases hx : t.handle x with
  | none => simp
  | some w =>
    have hiff : w ∈ t.handles out ↔ x ∈ out := by
      rw [mem_handles]
      constructor
      · rintro ⟨y, hy, hw⟩
        exact h.handle_inj hw hx ▸ hy
      · intro hmem
        exact ⟨x, hmem, hx⟩
    by_cases hmem : x ∈ out <;> simp [Option.filter, hiff, hmem]

/-- Removing a window deletes it from the windows in order. -/
theorem Destroys.windows_eq_filter {w : H} {p id : NodeId} {below above : List NodeId}
    (h : Destroys t t' w p id below above) (ht : t.Sound none) (ht' : t'.Sound none)
    (hid : t.handle id = some w) (hpar : t.parent id = some p) :
    t'.handles t'.order = (t.handles t.order).filter (· ≠ w) := by
  rw [handles, handles, h.order_eq_filter ht ht' hid hpar, List.filterMap_filter,
    List.filter_filterMap]
  refine List.filterMap_congr fun x _ => ?_
  rw [h.handle]
  by_cases hx : x = id
  · simp [hx, hid, Option.filter]
  · cases hv : t.handle x with
    | none => simp
    | some v =>
      have hvw : v ≠ w := fun he => hx (ht.handle_inj hv (he ▸ hid))
      simp [hx, hvw, Option.filter]

end Handles

end ZOrder.Tree
