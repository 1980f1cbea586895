/-
  ZOrder.Proofs.Tree.Loops

  The walks as loops that go from slot to slot. `path` and `descendants` allow themselves
  as many steps as there are slots; a loop allows itself any number, and stops only where
  its own test says so. In a sound forest each of the four loops ends, with the answer of
  the walk: upwards it takes one turn for each node of the path, downwards one for each
  node that it lists, and both are no more than there are slots.
-/

import ZOrder.Proofs.Tree.Families

namespace ZOrder

/-! ## Loops -/

/-- What one turn of a loop leads to. -/
inductive Turn (σ ρ : Type) where
  /-- Another turn, in this state. -/
  | again (s : σ)
  /-- The end, with this answer. -/
  | done (r : ρ)

/-- A loop that is in a state ends with an answer, after no more than some number of turns. -/
inductive Ends {σ ρ : Type} (turn : σ → Turn σ ρ) : (turns : Nat) → σ → ρ → Prop where
  /-- This turn is the last one. -/
  | done {n : Nat} {s : σ} {r : ρ} (hturn : turn s = .done r) : Ends turn (n + 1) s r
  /-- The loop ends from the next state. -/
  | again {n : Nat} {s s' : σ} {r : ρ} (hturn : turn s = .again s') (hrest : Ends turn n s' r) :
      Ends turn (n + 1) s r

theorem Ends.mono {σ ρ : Type} {turn : σ → Turn σ ρ} {n m : Nat} {s : σ} {r : ρ}
    (h : Ends turn n s r) (hnm : n ≤ m) : Ends turn m s r := by
  induction h generalizing m with
  | done hturn =>
    obtain ⟨k, rfl⟩ := Nat.exists_eq_add_one.mpr (Nat.lt_of_lt_of_le (Nat.succ_pos _) hnm)
    exact .done hturn
  | again hturn _ ih =>
    obtain ⟨k, rfl⟩ := Nat.exists_eq_add_one.mpr (Nat.lt_of_lt_of_le (Nat.succ_pos _) hnm)
    exact .again hturn (ih (Nat.le_of_succ_le_succ hnm))

namespace Tree

variable {H : Type} {t : Tree H} {loose : Option NodeId} {a x p : NodeId}

/-- One turn up to the band of a node: on to the parent, and the band of the root where
there is no parent. -/
def layerOfTurn (t : Tree H) (x : NodeId) : Turn NodeId (Option Layer) :=
  match t.node x with
  | none => .done none
  | some n =>
    match n.parent with
    | some p => .again p
    | none => .done n.layer

/-- One turn up to the head of a family, which is where the parent is the root of a band. -/
def topLevelTurn (t : Tree H) (x : NodeId) : Turn NodeId (Option NodeId) :=
  match t.parent x with
  | none => .done none
  | some p =>
    match t.node p with
    | none => .done none
    | some n => if n.isLayer then .done (some x) else .again p

/-- One turn of the search for a node among those above another. -/
def isInSubtreeTurn (t : Tree H) (ancestor : NodeId) : Option NodeId → Turn (Option NodeId) Bool
  | none => .done false
  | some x => if x = ancestor then .done true else .again (t.parent x)

/-- One turn of the way down. The state is what was listed so far, and the nodes still to
visit; the children of a node are visited before the others. -/
def descendantsTurn (t : Tree H) :
    List NodeId × List NodeId → Turn (List NodeId × List NodeId) (List NodeId)
  | (ordered, []) => .done ordered
  | (ordered, x :: pending) =>
    match t.node x with
    | none => .again (ordered, pending)
    | some n => .again (ordered ++ [x], n.children ++ pending)

/-! ## Upwards -/

/-- Induction from the parent to its children. -/
theorem Linked.parent_induction (h : t.Linked loose) {P : NodeId → Prop}
    (step : ∀ x, (∀ p, t.parent x = some p → P p) → P x) (x : NodeId) : P x := by
  obtain ⟨rank, hrank⟩ := h.acyclic
  refine (measure rank).wf.induction x fun y ih => step y fun p hp => ih p (hrank y p hp)

theorem Linked.length_path_le (h : t.Linked loose) (hx : t.Live x) :
    (t.path x).length ≤ t.nodes.size :=
  h.length_climb_le hx _

theorem length_path_of_parentless (hx : t.parent x = none) : (t.path x).length = 0 + 1 := by
  rw [path_of_parentless hx]
  rfl

theorem Linked.length_path_of_parent (h : t.Linked loose) (hp : t.parent x = some p) :
    (t.path x).length = (t.path p).length + 1 := by
  rw [h.path_of_parent hp, List.length_cons]

theorem layerOfTurn_of_parentless (hx : t.parent x = none) :
    t.layerOfTurn x = .done (t.layerAt x) := by
  cases hnode : t.node x with
  | none => simp [layerOfTurn, layerAt, hnode]
  | some n =>
    have hn : n.parent = none := by simpa [parent, hnode] using hx
    simp [layerOfTurn, layerAt, hnode, hn]

theorem layerOfTurn_of_parent (hp : t.parent x = some p) : t.layerOfTurn x = .again p := by
  obtain ⟨n, hnode, hn⟩ := Option.bind_eq_some_iff.mp hp
  simp [layerOfTurn, hnode, hn]

theorem topLevelTurn_of_parentless (hx : t.parent x = none) :
    t.topLevelTurn x = .done none := by
  rw [topLevelTurn, hx]

theorem topLevelTurn_of_parent (hp : t.parent x = some p) (hlive : t.Live p) :
    t.topLevelTurn x = if (t.layerAt p).isSome then .done (some x) else .again p := by
  obtain ⟨n, hnode⟩ := live_iff_node.mp hlive
  simp only [topLevelTurn, hp, layerAt, hnode, Option.bind_some]
  rfl

theorem layerOf_of_parentless (hx : t.parent x = none) : t.layerOf x = t.layerAt x := by
  rw [layerOf, path_of_parentless hx, List.getLast?_singleton, Option.bind_some]

theorem topLevel_of_parentless (hx : t.parent x = none) : t.topLevel x = none := by
  rw [topLevel, path_of_parentless hx, List.find?_cons_of_neg (by simp [hx]), List.find?_nil]

theorem Linked.topLevel_of_parent (h : t.Linked loose) (hp : t.parent x = some p) :
    t.topLevel x = if (t.layerAt p).isSome then some x else t.topLevel p := by
  rw [topLevel, h.path_of_parent hp]
  split
  · next hl => exact List.find?_cons_of_pos (by simpa [hp] using hl)
  · next hl => exact List.find?_cons_of_neg (by simpa [hp] using hl)

theorem isInSubtree_of_parentless (hx : t.parent x = none) : t.isInSubtree a x = (a == x) := by
  rw [isInSubtree, path_of_parentless hx, List.contains_cons, List.contains_nil, Bool.or_false]

theorem Linked.isInSubtree_of_parent (h : t.Linked loose) (hp : t.parent x = some p) :
    t.isInSubtree a x = (a == x || t.isInSubtree a p) := by
  rw [isInSubtree, h.path_of_parent hp, List.contains_cons, isInSubtree]

/-- The way up to the head of a family ends. -/
theorem Linked.ends_topLevel (h : t.Linked loose) (x : NodeId) :
    Ends t.topLevelTurn (t.path x).length x (t.topLevel x) := by
  induction x using h.parent_induction with
  | step x ih =>
    cases hp : t.parent x with
    | none =>
      rw [length_path_of_parentless hp, topLevel_of_parentless hp]
      exact .done (topLevelTurn_of_parentless hp)
    | some p =>
      have hturn := topLevelTurn_of_parent hp (h.live_parent hp)
      rw [h.length_path_of_parent hp, h.topLevel_of_parent hp]
      split
      · next hl => exact .done (by rw [hturn, if_pos hl])
      · next hl => exact .again (by rw [hturn, if_neg hl]) (ih p hp)

/-- The search among the nodes above a node ends; where it fails, it takes one more turn to
see that there is no further parent. -/
theorem Linked.ends_isInSubtree (h : t.Linked loose) (a x : NodeId) :
    Ends (t.isInSubtreeTurn a) ((t.path x).length + 1) (some x) (t.isInSubtree a x) := by
  induction x using h.parent_induction with
  | step x ih =>
    by_cases hxa : x = a
    · have htrue : t.isInSubtree a x = true := h.isInSubtree_iff.mpr (hxa ▸ Below.refl t x)
      rw [htrue]
      exact .done (by rw [isInSubtreeTurn, if_pos hxa])
    · have hturn : t.isInSubtreeTurn a (some x) = .again (t.parent x) := by
        rw [isInSubtreeTurn, if_neg hxa]
      have hne : (a == x) = false := beq_false_of_ne (Ne.symm hxa)
      cases hp : t.parent x with
      | none =>
        rw [length_path_of_parentless hp, isInSubtree_of_parentless hp, hne]
        exact .again hturn (hp ▸ .done rfl)
      | some p =>
        rw [h.length_path_of_parent hp, h.isInSubtree_of_parent hp, hne, Bool.false_or]
        exact .again hturn (hp ▸ ih p hp)

section Bands

variable [DecidableEq H]

theorem Sound.layerOf_of_parent (h : t.Sound loose) (hp : t.parent x = some p) :
    t.layerOf x = t.layerOf p := by
  ext l
  rw [h.layerOf_eq_some_iff, h.layerOf_eq_some_iff]
  refine ⟨fun hl => ?_, .of_parent hp⟩
  rcases hl.cases_parent with rfl | ⟨q, hq, hlq⟩
  · rw [h.parent_root] at hp
    cases hp
  · exact Option.some.inj (hq.symm.trans hp) ▸ hlq

/-- The way up to the band of a node ends. -/
theorem Sound.ends_layerOf (h : t.Sound loose) (x : NodeId) :
    Ends t.layerOfTurn (t.path x).length x (t.layerOf x) := by
  induction x using h.parent_induction with
  | step x ih =>
    cases hp : t.parent x with
    | none =>
      rw [length_path_of_parentless hp, layerOf_of_parentless hp]
      exact .done (layerOfTurn_of_parentless hp)
    | some p =>
      rw [h.length_path_of_parent hp, h.layerOf_of_parent hp]
      exact .again (layerOfTurn_of_parent hp) (ih p hp)

end Bands

/-! ## Downwards -/

/-- The first node to visit is listed, and what it leads to is what its children and the other
nodes to visit lead to. -/
theorem Linked.flatMap_descendants_cons (h : t.Linked loose) (hx : t.Live x)
    (pending : List NodeId) :
    (x :: pending).flatMap t.descendants = x :: (t.children x ++ pending).flatMap t.descendants := by
  rw [List.flatMap_cons, h.descendants_eq hx, List.flatMap_append, List.cons_append]

/-- The way down from some nodes ends, with what was listed and the descendants of each. -/
theorem Linked.ends_descendants_of_pending (h : t.Linked loose) {pending : List NodeId}
    (hlive : ∀ x ∈ pending, t.Live x) (ordered : List NodeId) :
    Ends t.descendantsTurn ((pending.flatMap t.descendants).length + 1) (ordered, pending)
      (ordered ++ pending.flatMap t.descendants) := by
  -- By how many nodes are still to be listed: each turn but the last one lists one of them.
  induction hn : (pending.flatMap t.descendants).length generalizing pending ordered with
  | zero =>
    cases pending with
    | nil => exact .done (by rw [descendantsTurn, List.flatMap_nil, List.append_nil])
    | cons x rest =>
      rw [h.flatMap_descendants_cons (hlive x List.mem_cons_self)] at hn
      cases hn
  | succ n ih =>
    cases pending with
    | nil => cases hn
    | cons x rest =>
      have hx := hlive x List.mem_cons_self
      rw [h.flatMap_descendants_cons hx] at hn ⊢
      obtain ⟨m, hnode⟩ := live_iff_node.mp hx
      have hturn : t.descendantsTurn (ordered, x :: rest) =
          .again (ordered ++ [x], t.children x ++ rest) := by
        simp [descendantsTurn, children, hnode]
      refine .again hturn ?_
      rw [List.append_cons ordered x ((t.children x ++ rest).flatMap t.descendants)]
      refine ih (fun y hy => ?_) _ (Nat.succ.inj hn)
      rcases List.mem_append.mp hy with hy | hy
      · exact h.live_child hy
      · exact hlive y (List.mem_cons_of_mem x hy)

/-- The way down from a node ends. -/
theorem Linked.ends_descendants (h : t.Linked loose) (hx : t.Live x) :
    Ends t.descendantsTurn ((t.descendants x).length + 1) ([], [x]) (t.descendants x) := by
  have hlive : ∀ y ∈ [x], t.Live y := List.forall_mem_singleton.mpr hx
  have hends := h.ends_descendants_of_pending hlive []
  rwa [List.flatMap_singleton, List.nil_append] at hends

end Tree

end ZOrder
