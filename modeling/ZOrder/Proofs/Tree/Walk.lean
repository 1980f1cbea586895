/-
  ZOrder.Proofs.Tree.Walk

  The walks of a sound forest end, and say what they should. Both kinds of walk are
  bounded by the number of slots: the nodes met on the way are distinct, so a walk
  never meets more of them than there are.

  Upwards, `path` is the node followed by the path of its parent, and band, family
  and ancestry are read off `Below`. Downwards, `descendants` is the node followed by
  the descendants of its children, which is all that later proofs use of it.
-/

import Mathlib.Data.Finset.Lattice.Fold
import Mathlib.Data.List.Flatten
import Mathlib.Data.List.Nodup
import ZOrder.Proofs.Tree.Sound

namespace ZOrder.Tree

variable {H : Type} {t : Tree H} {loose : Option NodeId}

/-- Distinct slots are no more than there are slots. -/
theorem length_le_size {xs : List NodeId} (hnodup : xs.Nodup) (hlive : ∀ x ∈ xs, t.Live x) :
    xs.length ≤ t.nodes.size := by
  have hsub : xs ⊆ List.range t.nodes.size := fun x hx =>
    List.mem_range.mpr (hlive x hx).lt_size
  simpa using (hnodup.subperm hsub).length_le

/-! ## Upwards -/

theorem climb_of_parentless {x : NodeId} (hx : t.parent x = none) (n : Nat) :
    t.climb n x = [x] := by
  cases n with
  | zero => rfl
  | succ n => simp [climb, hx]

theorem climb_succ {x p : NodeId} (hp : t.parent x = some p) (n : Nat) :
    t.climb (n + 1) x = x :: t.climb n p := by
  simp [climb, hp]

theorem below_of_mem_climb {n : Nat} {x y : NodeId} (hy : y ∈ t.climb n x) : t.Below y x := by
  induction n generalizing x with
  | zero =>
    rw [climb, List.mem_singleton] at hy
    exact hy ▸ Below.refl t x
  | succ n ih =>
    cases hp : t.parent x with
    | none =>
      rw [climb_of_parentless hp, List.mem_singleton] at hy
      exact hy ▸ Below.refl t x
    | some p =>
      rw [climb_succ hp, List.mem_cons] at hy
      rcases hy with rfl | hy
      · exact Below.refl t y
      · exact .of_parent hp (ih hy)

theorem Linked.nodup_climb (h : t.Linked loose) (n : Nat) (x : NodeId) :
    (t.climb n x).Nodup := by
  induction n generalizing x with
  | zero => exact List.nodup_singleton x
  | succ n ih =>
    cases hp : t.parent x with
    | none =>
      rw [climb_of_parentless hp]
      exact List.nodup_singleton x
    | some p =>
      rw [climb_succ hp, List.nodup_cons]
      exact ⟨fun hx => h.not_below_parent hp (below_of_mem_climb hx), ih p⟩

theorem Linked.live_of_below (h : t.Linked loose) {a x : NodeId} (hx : t.Live x)
    (hax : t.Below a x) : t.Live a := by
  induction hax with
  | refl => exact hx
  | tail _ hp _ => exact h.live_parent hp

/-- A walk that ended early does not go on with more steps. -/
theorem climb_stable {n : Nat} {x : NodeId} (hn : (t.climb n x).length ≤ n) :
    t.climb (n + 1) x = t.climb n x := by
  induction n generalizing x with
  | zero => simp [climb] at hn
  | succ n ih =>
    cases hp : t.parent x with
    | none => rw [climb_of_parentless hp, climb_of_parentless hp]
    | some p =>
      rw [climb_succ hp] at hn ⊢
      rw [climb_succ hp, ih (Nat.le_of_succ_le_succ hn)]

theorem Linked.length_climb_le (h : t.Linked loose) {x : NodeId} (hx : t.Live x) (n : Nat) :
    (t.climb n x).length ≤ t.nodes.size :=
  length_le_size (h.nodup_climb n x) fun _ hy => h.live_of_below hx (below_of_mem_climb hy)

theorem path_of_parentless {x : NodeId} (hx : t.parent x = none) : t.path x = [x] :=
  climb_of_parentless hx _

/-- The path of a node goes through its parent. -/
theorem Linked.path_of_parent (h : t.Linked loose) {x p : NodeId} (hp : t.parent x = some p) :
    t.path x = x :: t.path p := by
  have hx := live_of_parent hp
  obtain ⟨n, hn⟩ : ∃ n, t.nodes.size = n + 1 :=
    Nat.exists_eq_add_one.mpr (Nat.lt_of_le_of_lt (Nat.zero_le x) hx.lt_size)
  -- The path of `p` has one step fewer to go, and still ends before its steps do.
  have hlen := h.length_climb_le hx (n + 1)
  rw [climb_succ hp, List.length_cons, hn] at hlen
  rw [path, path, hn, climb_succ hp, climb_stable (Nat.le_of_succ_le_succ hlen)]

theorem Linked.mem_path_iff (h : t.Linked loose) {x y : NodeId} :
    y ∈ t.path x ↔ t.Below y x := by
  refine ⟨below_of_mem_climb, fun hy => ?_⟩
  -- Induction on the way up from `x`, each step of which is a step of the path.
  induction hy using Relation.ReflTransGen.head_induction_on with
  | refl =>
    cases hp : t.parent y with
    | none => simp [path_of_parentless hp]
    | some p => simp [h.path_of_parent hp]
  | head hp _ ih =>
    rw [h.path_of_parent hp]
    exact List.mem_cons_of_mem _ ih

theorem Linked.isInSubtree_iff (h : t.Linked loose) {a x : NodeId} :
    t.isInSubtree a x = true ↔ t.Below a x := by
  rw [isInSubtree, List.contains_iff_mem, h.mem_path_iff]

theorem Linked.isInSubtree_eq_false_iff (h : t.Linked loose) {a x : NodeId} :
    t.isInSubtree a x = false ↔ ¬ t.Below a x := by
  rw [← h.isInSubtree_iff, Bool.not_eq_true]

/-- Following parents ends at a node without a parent. -/
theorem Linked.exists_top (h : t.Linked loose) (x : NodeId) :
    ∃ top, t.Below top x ∧ t.parent top = none := by
  obtain ⟨rank, hrank⟩ := h.acyclic
  induction hn : rank x using Nat.strong_induction_on generalizing x with
  | _ n ih =>
    cases hp : t.parent x with
    | none => exact ⟨x, Below.refl t x, hp⟩
    | some p =>
      obtain ⟨top, htop, hnone⟩ := ih (rank p) (hn ▸ hrank x p hp) p rfl
      exact ⟨top, .of_parent hp htop, hnone⟩

theorem Linked.getLast?_path (h : t.Linked loose) {top x : NodeId} (htop : t.Below top x)
    (hnone : t.parent top = none) : (t.path x).getLast? = some top := by
  induction htop using Relation.ReflTransGen.head_induction_on with
  | refl => rw [path_of_parentless hnone, List.getLast?_singleton]
  | @head y p hp _ ih =>
    rw [h.path_of_parent hp]
    obtain ⟨c, cs, hcs⟩ : ∃ c cs, t.path p = c :: cs := by
      cases hpath : t.path p with
      | nil => rw [hpath] at ih; cases ih
      | cons c cs => exact ⟨c, cs, rfl⟩
    rw [hcs] at ih ⊢
    rw [List.getLast?_cons_cons, ih]

section Bands

variable [DecidableEq H]

/-- Two roots lie apart. -/
theorem Sound.root_eq_of_below (h : t.Sound loose) {l l' : Layer} {x : NodeId}
    (hl : t.Below (root l) x) (hl' : t.Below (root l') x) : l = l' := by
  have hroot : root l = root l' := by
    rcases hl.total hl' with hb | hb
    · exact hb.eq_of_parentless (h.parent_root l)
    · exact (hb.eq_of_parentless (h.parent_root l')).symm
  have := (h.kind_root l).symm.trans (hroot ▸ h.kind_root l')
  exact NodeKind.layer.inj (Option.some.inj this)

/-- Every node of a sound forest lies below the root of one band. -/
theorem Sound.exists_root (h : t.Sound none) {x : NodeId} (hx : t.Live x) :
    ∃ l, t.Below (root l) x := by
  obtain ⟨top, htop, hnone⟩ := h.exists_top x
  rcases h.orphan top (h.live_of_below hx htop) hnone with ⟨l, rfl⟩ | hl
  · exact ⟨l, htop⟩
  · cases hl

/-- The band a node is drawn in is the one whose root it lies below. -/
theorem Sound.layerOf_eq_some_iff (h : t.Sound loose) {x : NodeId} {l : Layer} :
    t.layerOf x = some l ↔ t.Below (root l) x := by
  constructor
  · intro hl
    obtain ⟨top, htop, hnone⟩ := h.exists_top x
    rw [layerOf, h.getLast?_path htop hnone, Option.bind_some, layerAt_eq_some_iff] at hl
    exact h.eq_root top l hl ▸ htop
  · intro hl
    rw [layerOf, h.getLast?_path hl (h.parent_root l), Option.bind_some, h.layerAt_root]

/-- The node attached to a root, above or at a node, heads its family. -/
theorem Sound.topLevel_eq_some_iff (h : t.Sound loose) {x y : NodeId} :
    t.topLevel x = some y ↔ t.Below y x ∧ ∃ l, t.parent y = some (root l) := by
  have hroot : ∀ n, ((t.parent n).bind t.layerAt).isSome = true ↔
      ∃ l, t.parent n = some (root l) := by
    intro n
    constructor
    · intro hn
      obtain ⟨l, hl⟩ := Option.isSome_iff_exists.mp hn
      obtain ⟨p, hp, hpl⟩ := Option.bind_eq_some_iff.mp hl
      exact ⟨l, h.eq_root p l (layerAt_eq_some_iff.mp hpl) ▸ hp⟩
    · rintro ⟨l, hl⟩
      rw [hl, Option.bind_some, h.layerAt_root]
      rfl
  constructor
  · intro hy
    refine ⟨h.mem_path_iff.mp (List.mem_of_find?_eq_some hy), (hroot y).mp ?_⟩
    exact List.find?_some (p := fun n => ((t.parent n).bind t.layerAt).isSome) hy
  · rintro ⟨hy, l, hl⟩
    rw [topLevel]
    -- No node strictly below `y` is attached to a root, so the search goes on up to `y`.
    induction hy using Relation.ReflTransGen.head_induction_on with
    | refl =>
      rw [h.path_of_parent hl]
      exact List.find?_cons_of_pos ((hroot y).mpr ⟨l, hl⟩)
    | @head z p hp hyp ih =>
      have hz : ¬ ∃ l', t.parent z = some (root l') := by
        rintro ⟨l', hl'⟩
        obtain rfl := Option.some.inj (hp.symm.trans hl')
        have hyroot : root l' = y := Below.eq_of_parentless hyp (h.parent_root l')
        rw [← hyroot, h.parent_root] at hl
        cases hl
      rw [h.path_of_parent hp]
      exact (List.find?_cons_of_neg (by rwa [hroot])).trans ih

/-- A window in a sound forest belongs to a family that stands on its own. -/
theorem Sound.exists_topLevel (h : t.Sound none) {x : NodeId} {w : H} (hx : t.handle x = some w) :
    ∃ y, t.topLevel x = some y := by
  obtain ⟨l, hl⟩ := h.exists_root (live_of_handle hx)
  -- The last step of the way up to the root leads from the head of the family.
  rcases Relation.ReflTransGen.cases_tail hl with he | ⟨y, hy, hyl⟩
  · exact absurd he.symm (h.ne_root hx l)
  · exact ⟨y, h.topLevel_eq_some_iff.mpr ⟨hy, l, hyl⟩⟩

end Bands

/-! ## Downwards -/

/-- There is no endless way down. -/
theorem Linked.wellFounded_child (h : t.Linked loose) :
    WellFounded fun c p => t.parent c = some p := by
  obtain ⟨rank, hrank⟩ := h.acyclic
  -- Ranks grow on the way down, and the slots in use bound them.
  let top := (Finset.range t.nodes.size).sup rank
  refine Subrelation.wf ?_ (measure fun x => top - rank x).wf
  intro c p hp
  have hlt := hrank c p hp
  have hle : rank c ≤ top :=
    Finset.le_sup (f := rank) (Finset.mem_range.mpr (live_of_parent hp).lt_size)
  show top - rank c < top - rank p
  omega

/-- Induction from the children to their parent. -/
theorem Linked.children_induction (h : t.Linked loose) {P : NodeId → Prop}
    (step : ∀ x, (∀ c ∈ t.children x, P c) → P x) (x : NodeId) : P x :=
  h.wellFounded_child.induction x fun x ih =>
    step x fun c hc => ih c ((h.parent_iff c x).mpr hc)

/-- The pre-order of a forest, by recursion from the children to their parent. -/
theorem Linked.exists_preorder (h : t.Linked loose) :
    ∃ pre : NodeId → List NodeId, ∀ x, pre x = x :: (t.children x).flatMap pre := by
  refine ⟨h.wellFounded_child.fix fun x rec =>
    x :: (t.children x).attach.flatMap fun c => rec c.1 ((h.parent_iff c.1 x).mpr c.2),
    fun x => ?_⟩
  rw [WellFounded.fix_eq]
  congr 1
  exact (List.flatMap_subtype (fun _ _ => rfl)).trans (by rw [List.unattach_attach])

/-- With enough steps, visiting the pending nodes lists the pre-order of each in turn. -/
theorem Linked.visit_eq_flatMap (h : t.Linked loose) {pre : NodeId → List NodeId}
    (hpre : ∀ x, pre x = x :: (t.children x).flatMap pre) {n : Nat} {pending : List NodeId}
    (hlive : ∀ x ∈ pending, t.Live x) (hn : (pending.flatMap pre).length ≤ n) :
    t.visit n pending = pending.flatMap pre := by
  induction n generalizing pending with
  | zero => exact (List.length_eq_zero_iff.mp (Nat.le_zero.mp hn)).symm
  | succ n ih =>
    cases pending with
    | nil => rfl
    | cons x rest =>
      -- The children of the first pending node go before the other pending nodes.
      obtain ⟨m, hm⟩ := live_iff_node.mp (hlive x List.mem_cons_self)
      have hcs : m.children = t.children x := by simp [children, hm]
      have heq : (x :: rest).flatMap pre = x :: (t.children x ++ rest).flatMap pre := by
        rw [List.flatMap_cons, hpre, List.flatMap_append, List.cons_append]
      rw [heq, List.length_cons] at hn
      rw [heq, visit, hm]
      refine congrArg (x :: ·) ?_
      rw [hcs]
      refine ih (fun y hy => ?_) (Nat.le_of_succ_le_succ hn)
      rcases List.mem_append.mp hy with hy | hy
      · exact h.live_child hy
      · exact hlive y (List.mem_cons_of_mem x hy)

section Preorder

variable {pre : NodeId → List NodeId} (hpre : ∀ x, pre x = x :: (t.children x).flatMap pre)
include hpre

theorem Linked.mem_preorder (h : t.Linked loose) {x y : NodeId} :
    y ∈ pre x ↔ t.Below x y := by
  constructor
  · induction x using h.children_induction with
    | step x ih =>
      intro hy
      rw [hpre, List.mem_cons, List.mem_flatMap] at hy
      rcases hy with rfl | ⟨c, hc, hy⟩
      · exact Below.refl t y
      · exact .trans (.of_parent ((h.parent_iff c x).mpr hc) (Below.refl t x)) (ih c hc hy)
  · intro hy
    induction hy with
    | refl => rw [hpre]; exact List.mem_cons_self
    | @tail c p _ hp ih =>
      rw [hpre]
      exact List.mem_cons_of_mem p
        (List.mem_flatMap.mpr ⟨c, (h.parent_iff c p).mp hp, ih⟩)

theorem Linked.nodup_preorder (h : t.Linked loose) (x : NodeId) : (pre x).Nodup := by
  induction x using h.children_induction with
  | step x ih =>
    rw [hpre, List.nodup_cons, List.nodup_flatMap]
    refine ⟨fun hx => ?_, ih, ?_⟩
    · obtain ⟨c, hc, hxc⟩ := List.mem_flatMap.mp hx
      exact h.not_below_parent ((h.parent_iff c x).mpr hc) ((h.mem_preorder hpre).mp hxc)
    · refine (h.children_nodup x).imp_of_mem ?_
      intro c d hc hd hne y hyc hyd
      rw [h.mem_preorder hpre] at hyc hyd
      have hcx := (h.parent_iff c x).mpr hc
      have hdx := (h.parent_iff d x).mpr hd
      -- Of two siblings neither lies below the other.
      have hapart : ∀ a b, t.parent a = some x → t.parent b = some x → a ≠ b →
          ¬ t.Below a b := by
        intro a b ha hb hab hbelow
        rcases hbelow.cases_parent with he | ⟨p, hp, hap⟩
        · exact hab he.symm
        · obtain rfl := Option.some.inj (hb.symm.trans hp)
          exact h.not_below_parent ha hap
      rcases hyc.total hyd with hdc | hcd
      · exact hapart d c hdx hcx (Ne.symm hne) hdc
      · exact hapart c d hcx hdx hne hcd

end Preorder

/-- The descendants of a node are its pre-order: the bound on the visits is never met. -/
theorem Linked.exists_preorder_eq (h : t.Linked loose) :
    ∃ pre : NodeId → List NodeId, (∀ x, pre x = x :: (t.children x).flatMap pre) ∧
      ∀ x, t.Live x → t.descendants x = pre x := by
  obtain ⟨pre, hpre⟩ := h.exists_preorder
  refine ⟨pre, hpre, fun x hx => ?_⟩
  -- The nodes met are distinct and in use, so one visit more than there are slots is enough.
  have hlen : (pre x).length ≤ t.nodes.size := by
    refine length_le_size (h.nodup_preorder hpre x) fun y hy => ?_
    rcases ((h.mem_preorder hpre).mp hy).cases_parent with rfl | ⟨p, hp, -⟩
    · exact hx
    · exact live_of_parent hp
  have hvisit : t.visit (t.nodes.size + 1) [x] = [x].flatMap pre :=
    h.visit_eq_flatMap hpre (by simpa using hx) (by simpa using Nat.le_succ_of_le hlen)
  simpa [descendants] using hvisit

/-- A node and all below it: the node first, then each child with all below that. -/
theorem Linked.descendants_eq (h : t.Linked loose) {x : NodeId} (hx : t.Live x) :
    t.descendants x = x :: (t.children x).flatMap t.descendants := by
  obtain ⟨pre, hpre, heq⟩ := h.exists_preorder_eq
  rw [heq x hx, hpre]
  exact congrArg (x :: ·) (List.flatMap_congr fun c hc => (heq c (h.live_child hc)).symm)

theorem descendants_of_not_live {x : NodeId} (hx : ¬ t.Live x) : t.descendants x = [] := by
  have hnone : t.node x = none := node_eq_none_iff.mpr (not_not.mp hx)
  cases hsize : t.nodes.size <;> simp [descendants, visit, hsize, hnone]

/-- The descendants of a node are the nodes that lie below it. -/
theorem Linked.mem_descendants (h : t.Linked loose) {x y : NodeId} :
    y ∈ t.descendants x ↔ t.Live x ∧ t.Below x y := by
  obtain ⟨pre, hpre, heq⟩ := h.exists_preorder_eq
  by_cases hx : t.Live x
  · rw [heq x hx, h.mem_preorder hpre]
    exact (and_iff_right hx).symm
  · simp [descendants_of_not_live hx, hx]

theorem Linked.nodup_descendants (h : t.Linked loose) (x : NodeId) :
    (t.descendants x).Nodup := by
  obtain ⟨pre, hpre, heq⟩ := h.exists_preorder_eq
  by_cases hx : t.Live x
  · rw [heq x hx]
    exact h.nodup_preorder hpre x
  · rw [descendants_of_not_live hx]
    exact List.nodup_nil

end ZOrder.Tree
