/-
  ZOrder.Proofs.Tree.Families

  The forest of families that the slots hold says all but where the slots are: two sound
  forests hold the same families if and only if one is the other with its slots renamed.

  Families are read level by level. A node has no more levels below it than there are
  slots, so reading as many levels as there are slots gives the whole family.
-/

import ZOrder.Forest
import ZOrder.Proofs.Tree.Renames

namespace ZOrder.Tree

variable {H : Type} {t t' : Tree H} {loose : Option NodeId} {σ : NodeId → NodeId}
  {x y : NodeId}

/-! ## Families in full -/

theorem familyAt_succ (t : Tree H) (n : Nat) (x : NodeId) :
    t.familyAt (n + 1) x = match t.kind x with
      | some (.window w l) => some (.mk w l ((t.children x).filterMap (t.familyAt n)))
      | _ => none := by
  rw [familyAt, kind, children]
  cases hnode : t.node x with
  | none => rfl
  | some n =>
    obtain ⟨k, p, cs⟩ := n
    cases k <;> rfl

/-- Deeper than all that lies below a node there is nothing to read. -/
theorem Linked.familyAt_stable (h : t.Linked loose) {n : Nat}
    (hn : (t.descendants x).length ≤ n) : t.familyAt (n + 1) x = t.familyAt n x := by
  induction n generalizing x with
  | zero =>
    have hdead : ¬ t.Live x := by
      intro hx
      rw [h.descendants_eq hx] at hn
      cases hn
    rw [familyAt_succ, not_not.mp hdead]
    rfl
  | succ n ih =>
    rw [familyAt_succ t (n + 1), familyAt_succ t n]
    -- Each child has at least one node fewer below it, its parent.
    have hcs : (t.children x).filterMap (t.familyAt (n + 1)) =
        (t.children x).filterMap (t.familyAt n) := by
      refine List.filterMap_congr fun c hc => ih ?_
      have hx := live_of_mem_children hc
      have hle := (infix_flatMap_of_mem t.descendants hc).length_le
      rw [h.descendants_eq hx, List.length_cons] at hn
      omega
    rw [hcs]

theorem Linked.familyAt_of_le (h : t.Linked loose) {n m : Nat}
    (hn : (t.descendants x).length ≤ n) (hnm : n ≤ m) : t.familyAt m x = t.familyAt n x := by
  induction m, hnm using Nat.le_induction with
  | base => rfl
  | succ m hm ih => rw [h.familyAt_stable (Nat.le_trans hn hm), ih]

theorem Linked.length_descendants_le (h : t.Linked loose) (x : NodeId) :
    (t.descendants x).length ≤ t.nodes.size :=
  length_le_size (h.nodup_descendants x) fun _ hy => h.live_of_mem_descendants hy

/-- The family at a node, in full. -/
def family (t : Tree H) : NodeId → Option (Family H) := t.familyAt t.nodes.size

theorem Linked.family_eq (h : t.Linked loose) (x : NodeId) :
    t.family x = match t.kind x with
      | some (.window w l) => some (.mk w l ((t.children x).filterMap t.family))
      | _ => none := by
  rw [family, ← h.familyAt_stable (h.length_descendants_le x), familyAt_succ]

/-- A window with nothing nested under it is a family of its own. -/
theorem Linked.family_of_leaf (h : t.Linked loose) {w : H} {l : Layer}
    (hkind : t.kind x = some (.window w l)) (hcs : t.children x = []) :
    t.family x = some (.mk w l []) := by
  rw [h.family_eq, hkind, hcs]
  rfl

/-- Every child heads a family. -/
theorem Sound.family_of_mem_children [DecidableEq H] (h : t.Sound loose) {c : NodeId}
    (hc : c ∈ t.children x) : ∃ w l, t.kind c = some (.window w l) ∧
      t.family c = some (.mk w l ((t.children c).filterMap t.family)) := by
  obtain ⟨w, hw⟩ := h.exists_handle ((h.parent_iff c x).mpr hc)
  obtain ⟨l, hkind⟩ := handle_eq_some_iff.mp hw
  exact ⟨w, l, hkind, by rw [h.family_eq, hkind]⟩

/-! ## Renamed slots hold the same families -/

theorem Renames.familyAt (h : Renames σ t t') (ht : t.Linked loose) (n : Nat) (hx : t.Live x) :
    t'.familyAt n (σ x) = t.familyAt n x := by
  induction n generalizing x with
  | zero => rfl
  | succ n ih =>
    have hcs : (t'.children (σ x)).filterMap (t'.familyAt n) =
        (t.children x).filterMap (t.familyAt n) := by
      rw [h.children x hx, List.filterMap_map]
      exact List.filterMap_congr fun c hc => ih (ht.live_child hc)
    rw [familyAt_succ, familyAt_succ, h.kind x hx, hcs]

theorem Renames.forest_eq [DecidableEq H] (h : Renames σ t t') (ht : t.Sound none)
    (ht' : t'.Sound none) : t'.forest = t.forest := by
  funext l
  rw [forest, forest, h.children_root ht.toSlotted, List.filterMap_map]
  refine List.filterMap_congr fun c hc => ?_
  have hlive := ht.live_child hc
  -- Both forests have enough slots to read the family in full.
  have hlen : (t.descendants c).length ≤ t'.nodes.size := by
    have hle := ht'.length_descendants_le (σ c)
    rwa [h.descendants ht.toLinked ht'.toLinked hlive, List.length_map] at hle
  rw [Function.comp_apply, h.familyAt ht.toLinked _ hlive]
  rcases Nat.le_total t'.nodes.size t.nodes.size with hle | hle
  · exact (ht.familyAt_of_le hlen hle).symm
  · exact ht.familyAt_of_le (ht.length_descendants_le c) hle

/-! ## The same families are in renamed slots -/

/-- If all have a value, the same values are those of one and the other in turn. -/
theorem forall₂_of_filterMap_eq {α β γ : Type} {f : α → Option γ} {g : β → Option γ}
    {xs : List α} {ys : List β} (hf : ∀ a ∈ xs, ∃ c, f a = some c)
    (hg : ∀ b ∈ ys, ∃ c, g b = some c) (h : xs.filterMap f = ys.filterMap g) :
    List.Forall₂ (fun a b => f a = g b) xs ys := by
  induction xs generalizing ys with
  | nil =>
    cases ys with
    | nil => exact .nil
    | cons b ys =>
      obtain ⟨c, hc⟩ := hg b List.mem_cons_self
      rw [List.filterMap_nil, List.filterMap_cons_some hc] at h
      cases h
  | cons a xs ih =>
    obtain ⟨c, hc⟩ := hf a List.mem_cons_self
    rw [List.filterMap_cons_some hc] at h
    cases ys with
    | nil => cases h
    | cons b ys =>
      obtain ⟨d, hd⟩ := hg b List.mem_cons_self
      rw [List.filterMap_cons_some hd] at h
      obtain ⟨rfl, hrest⟩ := List.cons.inj h
      exact .cons (hc.trans hd.symm) (ih (fun a ha => hf a (List.mem_cons_of_mem _ ha))
        (fun b hb => hg b (List.mem_cons_of_mem _ hb)) hrest)

section

variable [DecidableEq H]

/-- The slot of another forest that holds the window of a slot. -/
def slotIn (t t' : Tree H) (x : NodeId) : NodeId := ((t.handle x).bind t'.get).getD x

/-- Two nodes that stand for the same, with the same families below them. -/
structure Twins (t t' : Tree H) (x y : NodeId) : Prop where
  kind : t'.kind y = t.kind x
  below : (t'.children y).filterMap t'.family = (t.children x).filterMap t.family

theorem slotIn_root (ht : t.Slotted) (t' : Tree H) (l : Layer) : slotIn t t' (root l) = root l := by
  rw [slotIn, ht.handle_root]
  rfl

/-- The children of twins are twins, in the same order. -/
theorem Twins.children (h : Twins t t' x y) (ht : t.Sound none) (ht' : t'.Sound none) :
    t'.children y = (t.children x).map (slotIn t t') ∧
      ∀ c ∈ t.children x, Twins t t' c (slotIn t t' c) := by
  have hfamily : ∀ {s : Tree H} {z : NodeId}, s.Sound none → ∀ c ∈ s.children z,
      ∃ f, s.family c = some f := by
    intro s z hs c hc
    obtain ⟨w, l, -, hfamily⟩ := hs.family_of_mem_children hc
    exact ⟨_, hfamily⟩
  have hpairs := forall₂_of_filterMap_eq (hfamily ht) (hfamily ht') h.below.symm
  -- A family shows the window at its head, and with it the slot in the other forest.
  have htwins : ∀ c ∈ t.children x, ∀ d ∈ t'.children y, t.family c = t'.family d →
      slotIn t t' c = d ∧ Twins t t' c d := by
    intro c hc d hd hsame
    obtain ⟨w, l, hkind, hfamily⟩ := ht.family_of_mem_children hc
    obtain ⟨w', l', hkind', hfamily'⟩ := ht'.family_of_mem_children hd
    rw [hfamily, hfamily'] at hsame
    obtain ⟨rfl, rfl, hbelow⟩ := Family.mk.inj (Option.some.inj hsame)
    have hget : t'.get w = some d := (ht'.get_iff w d).mpr (handle_eq_some_iff.mpr ⟨l, hkind'⟩)
    have hhandle : t.handle c = some w := handle_eq_some_iff.mpr ⟨l, hkind⟩
    refine ⟨?_, hkind'.trans hkind.symm, hbelow.symm⟩
    rw [slotIn, hhandle, Option.bind_some, hget, Option.getD_some]
  generalize hcs : t.children x = cs at hpairs htwins
  generalize hds : t'.children y = ds at hpairs htwins
  clear hcs hds
  induction hpairs with
  | nil => exact ⟨rfl, fun c hc => by cases hc⟩
  | @cons c d cs ds hsame hrest ih =>
    obtain ⟨hslot, htwin⟩ := htwins c List.mem_cons_self d List.mem_cons_self hsame
    obtain ⟨hmap, hall⟩ := ih fun c hc d hd =>
      htwins c (List.mem_cons_of_mem _ hc) d (List.mem_cons_of_mem _ hd)
    refine ⟨by rw [List.map_cons, hslot, hmap], fun b hb => ?_⟩
    rcases List.mem_cons.mp hb with rfl | hb
    · rwa [hslot]
    · exact hall b hb

/-- From the roots down, every node has a twin in a forest of the same families. -/
theorem twins_of_forest_eq (ht : t.Sound none) (ht' : t'.Sound none)
    (heq : t'.forest = t.forest) (hx : t.Live x) : Twins t t' x (slotIn t t' x) := by
  obtain ⟨l, hl⟩ := ht.exists_root hx
  induction hl using Relation.ReflTransGen.head_induction_on with
  | refl =>
    rw [slotIn_root ht.toSlotted]
    exact ⟨(ht'.kind_root l).trans (ht.kind_root l).symm, congrFun heq l⟩
  | @head c p hp _ ih =>
    exact ((ih (ht.live_parent hp)).children ht ht').2 c ((ht.parent_iff c p).mp hp)

/-- Forests of the same families differ in their slots only. -/
theorem renames_of_forest_eq (ht : t.Sound none) (ht' : t'.Sound none)
    (heq : t'.forest = t.forest) : Renames (slotIn t t') t t' := by
  have htwins : ∀ {x}, t.Live x → Twins t t' x (slotIn t t' x) := fun hx =>
    twins_of_forest_eq ht ht' heq hx
  have hroot := slotIn_root ht.toSlotted t'
  refine ⟨hroot, fun x y hx hy he => ?_, fun y hy => ?_, fun x hx => (htwins hx).kind,
    fun x hx => ?_, fun x hx => ((htwins hx).children ht ht').1⟩
  · -- Two slots with one name hold the same window, or the root of the same band.
    have hkind : t.kind x = t.kind y := by rw [← (htwins hx).kind, he, (htwins hy).kind]
    rcases hx.layerAt_or_handle with ⟨l, hl⟩ | ⟨w, hw⟩
    · have hl := layerAt_eq_some_iff.mp hl
      rw [ht.eq_root x l hl, ht.eq_root y l (hkind ▸ hl)]
    · obtain ⟨l, hl⟩ := handle_eq_some_iff.mp hw
      exact ht.handle_inj hw (handle_eq_some_iff.mpr ⟨l, hkind ▸ hl⟩)
  · obtain ⟨l, hl⟩ := ht'.exists_root hy
    induction hl using Relation.ReflTransGen.head_induction_on with
    | refl => exact ⟨root l, ht.live_root l, hroot l⟩
    | @head c p hp _ ih =>
      obtain ⟨x, hx, rfl⟩ := ih (ht'.live_parent hp)
      have hc := (ht'.parent_iff c _).mp hp
      rw [((htwins hx).children ht ht').1] at hc
      obtain ⟨b, hb, hname⟩ := List.mem_map.mp hc
      exact ⟨b, ht.live_child hb, hname⟩
  · cases hp : t.parent x with
    | none =>
      rcases ht.orphan x hx hp with ⟨l, rfl⟩ | hl
      · rw [hroot, ht'.parent_root]
        rfl
      · cases hl
    | some p =>
      have hc := (ht.parent_iff x p).mp hp
      rw [Option.map_some, ht'.parent_iff, ((htwins (ht.live_parent hp)).children ht ht').1]
      exact List.mem_map_of_mem hc

/-- A sound forest is its families, up to the names of the slots. -/
theorem forest_eq_iff (ht : t.Sound none) (ht' : t'.Sound none) :
    t'.forest = t.forest ↔ ∃ σ, Renames σ t t' :=
  ⟨fun heq => ⟨_, renames_of_forest_eq ht ht' heq⟩, fun ⟨_, h⟩ => h.forest_eq ht ht'⟩

end

end ZOrder.Tree
