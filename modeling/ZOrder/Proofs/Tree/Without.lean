/-
  ZOrder.Proofs.Tree.Without

  Forests without some of their windows. Where a window is left out, the families nested
  under it stand in its place. Destroying a window does the same to the slots, and creating
  one adds a leaf, so neither makes a difference to the forest without that window.
-/

import ZOrder.Proofs.Tree.Families

namespace ZOrder

namespace Family

variable {H : Type}

mutual

/-- What a family leaves without some windows: the families nested under a window that is
left out stand in its place. -/
def without (gone : H → Bool) : Family H → List (Family H)
  | mk w l fs => if gone w then allWithout gone fs else [mk w l (allWithout gone fs)]

/-- What some families leave, one family after the other. -/
def allWithout (gone : H → Bool) : List (Family H) → List (Family H)
  | [] => []
  | f :: fs => f.without gone ++ allWithout gone fs

end

theorem allWithout_eq_flatMap (gone : H → Bool) (fs : List (Family H)) :
    allWithout gone fs = fs.flatMap (without gone) := by
  induction fs with
  | nil => rfl
  | cons f fs ih => rw [allWithout, List.flatMap_cons, ih]

end Family

/-- The forest without some windows. -/
def Forest.without {H : Type} (f : Forest H) (gone : H → Bool) : Forest H := fun l =>
  Family.allWithout gone (f l)

namespace Tree

variable {H : Type} {t t' : Tree H} {loose : Option NodeId} {gone : H → Bool} {x : NodeId}

/-! ## Read off the slots -/

/-- What the family at a node leaves. -/
def kept (t : Tree H) (gone : H → Bool) (x : NodeId) : List (Family H) :=
  Family.allWithout gone (t.family x).toList

/-- What the families below a node leave. -/
def keptBelow (t : Tree H) (gone : H → Bool) (x : NodeId) : List (Family H) :=
  (t.children x).flatMap (t.kept gone)

theorem allWithout_filterMap_family (t : Tree H) (gone : H → Bool) (cs : List NodeId) :
    Family.allWithout gone (cs.filterMap t.family) = cs.flatMap (t.kept gone) := by
  rw [List.filterMap_eq_flatMap_toList, Family.allWithout_eq_flatMap, List.flatMap_assoc]
  refine List.flatMap_congr fun c _ => ?_
  rw [kept, Family.allWithout_eq_flatMap]

theorem forest_without (t : Tree H) (gone : H → Bool) (l : Layer) :
    t.forest.without gone l = t.keptBelow gone (root l) :=
  allWithout_filterMap_family t gone (t.children (root l))

/-- A window that is left out has the windows below it stand in its place. -/
theorem Linked.kept_eq (h : t.Linked loose) (gone : H → Bool) (x : NodeId) :
    t.kept gone x = match t.kind x with
      | some (.window w l) =>
        if gone w then t.keptBelow gone x else [.mk w l (t.keptBelow gone x)]
      | _ => [] := by
  rw [kept, h.family_eq]
  cases t.kind x with
  | none => rfl
  | some k =>
    cases k with
    | layer l => rfl
    | window w l =>
      dsimp only
      rw [Option.toList_some, Family.allWithout_eq_flatMap, List.flatMap_singleton,
        Family.without, allWithout_filterMap_family, keptBelow]

/-! ## Windows that come or go -/

/-- `t'` is `t` without the node `id`, whose children are listed in its place among the
children of `p`; what the slot `id` holds instead is left open. -/
structure Drops (t t' : Tree H) (p id : NodeId) (below above : List NodeId) : Prop where
  split : t.children p = below ++ id :: above
  kind : ∀ x, x ≠ id → t'.kind x = t.kind x
  children : ∀ x, x ≠ id →
    t'.children x = if x = p then below ++ t.children id ++ above else t.children x

section

variable {p id : NodeId} {below above : List NodeId}

theorem Destroys.drops [DecidableEq H] {w : H} (h : Destroys t t' w p id below above) :
    Drops t t' p id below above where
  split := h.split
  kind x hx := by rw [h.kind, if_neg hx]
  children x hx := by rw [h.children, if_neg hx]

/-- Read backwards, a window that is created and attached is a leaf that is dropped. -/
theorem Grafts.drops [DecidableEq H] {t₀ : Tree H} {w : H} {home : Layer}
    (h : Grafts t₀ t' p id below above) (hnew : Creates t t₀ w home id) (hp : p ≠ id) :
    Drops t' t p id below above where
  split := h.children_parent
  kind x hx := by rw [h.kind, hnew.kind, if_neg hx]
  children x hx := by
    have hleaf : t'.children id = [] := by
      rw [h.children, if_neg hp.symm, hnew.children, children_of_not_live hnew.fresh]
    rw [hleaf, List.append_nil, ← h.split, h.children, hnew.children, hnew.children]
    split
    · next hxp => rw [hxp]
    · rfl

/-- A node that is dropped leaves the same as before if its window is left out anyway. -/
theorem Drops.keptBelow_eq (h : Drops t t' p id below above) (ht : t.Linked none)
    (ht' : t'.Linked none) {w : H} (hw : t.handle id = some w) (hgone : gone w = true)
    (hx : x ≠ id) : t'.keptBelow gone x = t.keptBelow gone x := by
  have hpar : t.parent id = some p := (ht.parent_iff id p).mpr (by simp [h.split])
  have hother : ∀ y, y ≠ p → id ∉ t.children y := by
    intro y hy
    rw [← ht.parent_iff, hpar]
    exact fun he => hy (Option.some.inj he).symm
  have hown : t.kept gone id = t.keptBelow gone id := by
    obtain ⟨l, hkind⟩ := handle_eq_some_iff.mp hw
    rw [ht.kept_eq, hkind]
    exact if_pos hgone
  -- From the children up; of the dropped node we say what its children leave by now.
  have hall : ∀ y, (y ≠ id → t'.keptBelow gone y = t.keptBelow gone y) ∧
      (y = id → (t.children id).flatMap (t'.kept gone) = t.keptBelow gone id) := by
    intro y
    induction y using ht.children_induction with
    | step y ih =>
      have hlist : ∀ cs, cs ⊆ t.children y → id ∉ cs →
          cs.flatMap (t'.kept gone) = cs.flatMap (t.kept gone) := by
        intro cs hcs hid
        refine List.flatMap_congr fun c hc => ?_
        have hne : c ≠ id := ne_of_mem_of_not_mem hc hid
        rw [ht'.kept_eq, ht.kept_eq, h.kind c hne, (ih c (hcs hc)).1 hne]
      refine ⟨fun hne => ?_, ?_⟩
      · rw [keptBelow, keptBelow, h.children y hne]
        by_cases hy : y = p
        · subst hy
          have hmem : id ∈ t.children y := by simp [h.split]
          obtain ⟨hbelow, habove⟩ :=
            not_or.mp (List.mem_append.not.mp (ht.nodup_split h.split).1)
          rw [if_pos rfl, List.flatMap_append, List.flatMap_append, (ih id hmem).2 rfl,
            hlist below (by simp [h.split]) hbelow, hlist above (by simp [h.split]) habove,
            h.split, List.flatMap_append, List.flatMap_cons, hown, List.append_assoc]
        · rw [if_neg hy]
          exact hlist _ (List.Subset.refl _) (hother y hy)
      · rintro rfl
        exact hlist _ (List.Subset.refl _) (hother y (ht.parent_ne hpar).symm)
  exact (hall x).1 hx

theorem Drops.forest_without (h : Drops t t' p id below above) [DecidableEq H]
    (ht : t.Sound none) (ht' : t'.Sound none) {w : H} (hw : t.handle id = some w)
    (hgone : gone w = true) : t'.forest.without gone = t.forest.without gone := by
  funext l
  rw [Tree.forest_without, Tree.forest_without,
    h.keptBelow_eq ht.toLinked ht'.toLinked hw hgone (ht.ne_root hw l).symm]

end

/-- Windows that are in no slot are left out already. -/
theorem Sound.forest_without_of_untracked [DecidableEq H] (h : t.Sound none)
    (hgone : ∀ w, gone w = true → t.get w = none) : t.forest.without gone = t.forest := by
  have hall : ∀ x, t.keptBelow gone x = (t.children x).filterMap t.family := by
    intro x
    induction x using h.children_induction with
    | step x ih =>
      rw [List.filterMap_eq_flatMap_toList]
      refine List.flatMap_congr fun c hc => ?_
      obtain ⟨w, l, hkind, hfamily⟩ := h.family_of_mem_children hc
      have hstays : ¬ gone w = true := by
        intro hw
        have hget := (h.get_iff w c).mpr (handle_eq_some_iff.mpr ⟨l, hkind⟩)
        rw [hgone w hw] at hget
        cases hget
      rw [h.kept_eq, hkind, hfamily]
      exact (if_neg hstays).trans (by rw [ih c hc, Option.toList_some])
  funext l
  rw [Tree.forest_without, hall]
  rfl

end Tree

end ZOrder
