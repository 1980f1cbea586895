/-
  ZOrder.Proofs.Engine.Walks

  The walks up and the walks down agree, at every moment of a run. Most moments are in the
  middle of an operation: a family has been taken out and is not attached again, and the
  operation looks for the place where it goes, or makes sure that it does not go below
  itself. Then no band holds the family, but the walks within it still end and agree.

  Both kinds of walk are read off the relation `Below`, which needs no band.
-/

import ZOrder.Proofs.Engine.Entries
import ZOrder.Proofs.Tree.Loops

namespace ZOrder

namespace Tree

variable {H : Type} {t : Tree H} {loose : Option NodeId} {id x y : NodeId}

/-- The pre-order of the nodes below a node: the node, then the pre-order below each child in
turn, bottom to top. The recursion comes to an end with this list. -/
inductive Preorder (t : Tree H) : NodeId → List NodeId → Prop where
  | node {x : NodeId} {parts : List (List NodeId)}
      (children : List.Forall₂ (Preorder t) (t.children x) parts) : Preorder t x (x :: parts.flatten)

theorem Linked.preorder_iff (h : t.Linked loose) (hx : t.Live x) {xs : List NodeId} :
    t.Preorder x xs ↔ xs = t.descendants x := by
  induction x using h.children_induction generalizing xs with
  | step x ih =>
    have hparts : ∀ parts, List.Forall₂ t.Preorder (t.children x) parts ↔
        parts = (t.children x).map t.descendants := fun parts =>
      forall₂_iff_eq_map fun c hc ys => ih c hc (h.live_child hc)
    rw [h.descendants_eq hx, List.flatMap_def]
    constructor
    · rintro ⟨children⟩
      rw [(hparts _).mp children]
    · rintro rfl
      exact .node ((hparts _).mpr rfl)

section Bands

variable [DecidableEq H]

/-- A node lies below the root of a band, unless it belongs to the family that is between two
places. -/
theorem Sound.exists_root_of_not_below (h : t.Sound loose) (hx : t.Live x)
    (hout : ∀ m, loose = some m → ¬ t.Below m x) : ∃ l, t.Below (root l) x := by
  obtain ⟨top, htop, hnone⟩ := h.exists_top x
  rcases h.orphan top (h.live_of_below hx htop) hnone with ⟨l, rfl⟩ | hloose
  · exact ⟨l, htop⟩
  · exact absurd htop (hout top hloose)

/-- Nothing in a family that is between two places lies below the root of a band. -/
theorem Sound.not_below_root_of_loose (h : t.Sound (some id)) {w : H} (hid : t.handle id = some w)
    (hx : t.Below id x) (l : Layer) : ¬ t.Below (root l) x := by
  intro hl
  have hroot : id = root l := by
    rcases hx.total hl with hb | hb
    · exact hb.eq_of_parentless (h.parent_loose id rfl)
    · exact (hb.eq_of_parentless (h.parent_root l)).symm
  exact h.ne_root hid l hroot

/-- The walks of a forest end and agree. While the family at `moving` is between two places,
no band holds its nodes. -/
structure WalksAgree (t : Tree H) (moving : Option NodeId) : Prop where
  /-- The loops end, with the answers of the walks. -/
  ends_layerOf : ∀ x, t.Live x → Ends t.layerOfTurn (t.nodes.size + 1) x (t.layerOf x)
  ends_topLevel : ∀ x, t.Live x → Ends t.topLevelTurn (t.nodes.size + 1) x (t.topLevel x)
  ends_isInSubtree : ∀ a x, t.Live a → t.Live x →
    Ends (t.isInSubtreeTurn a) (t.nodes.size + 1) (some x) (t.isInSubtree a x)
  ends_descendants : ∀ x, t.Live x →
    Ends t.descendantsTurn (t.nodes.size + 1) ([], [x]) (t.descendants x)
  /-- The way down lists the pre-order, each node once. -/
  preorder : ∀ x xs, t.Live x → (t.Preorder x xs ↔ xs = t.descendants x)
  nodup : ∀ x, t.Live x → (t.descendants x).Nodup
  /-- What is found on the way up is what is listed on the way down. -/
  isInSubtree_iff : ∀ a x, t.Live a → t.Live x →
    (t.isInSubtree a x = true ↔ x ∈ t.descendants a)
  layerOf_iff : ∀ x l, t.Live x → (t.layerOf x = some l ↔ x ∈ t.descendants (root l))
  topLevel_iff : ∀ x y, t.Live x →
    (t.topLevel x = some y ↔ (∃ l, y ∈ t.children (root l)) ∧ x ∈ t.descendants y)
  /-- One band holds a node that is not on the move. -/
  one_band : ∀ x, t.Live x → (∀ m, moving = some m → x ∉ t.descendants m) →
    ∃! l, x ∈ t.descendants (root l)
  /-- A node that is on the move has neither a band nor a family that stands on its own. -/
  no_band : ∀ m x, moving = some m → x ∈ t.descendants m →
    t.layerOf x = none ∧ t.topLevel x = none

/-- The walks agree in every sound forest; if a family is between two places, it is that of a
window. -/
theorem Sound.walksAgree (h : t.Sound loose)
    (hloose : ∀ m, loose = some m → ∃ w, t.handle m = some w) : t.WalksAgree loose := by
  have hpath : ∀ x, t.Live x → (t.path x).length ≤ t.nodes.size := fun x hx => h.length_path_le hx
  have hroot : ∀ l x, x ∈ t.descendants (root l) ↔ t.Below (root l) x := fun l x => by
    rw [h.mem_descendants, and_iff_right (h.live_root l)]
  have hnone : ∀ m x, loose = some m → x ∈ t.descendants m → ∀ l, ¬ t.Below (root l) x := by
    rintro m x rfl hx
    obtain ⟨w, hw⟩ := hloose m rfl
    exact h.not_below_root_of_loose hw (h.mem_descendants.mp hx).2
  refine ⟨fun x hx => ?_, fun x hx => ?_, fun a x _ hx => ?_, fun x hx => ?_,
    fun x xs hx => h.preorder_iff hx, fun x _ => h.nodup_descendants x, fun a x ha _ => ?_,
    fun x l _ => ?_, fun x y _ => ?_, fun x hx hout => ?_, fun m x hm hx => ⟨?_, ?_⟩⟩
  · exact (h.ends_layerOf x).mono (Nat.le_succ_of_le (hpath x hx))
  · exact (h.ends_topLevel x).mono (Nat.le_succ_of_le (hpath x hx))
  · exact (h.ends_isInSubtree a x).mono (Nat.succ_le_succ (hpath x hx))
  · exact (h.ends_descendants hx).mono (Nat.succ_le_succ (h.length_descendants_le x))
  · rw [h.isInSubtree_iff, h.mem_descendants, and_iff_right ha]
  · rw [h.layerOf_eq_some_iff, hroot]
  · simp only [h.topLevel_eq_some_iff, h.parent_iff, h.mem_descendants]
    constructor
    · rintro ⟨hyx, l, hl⟩
      exact ⟨⟨l, hl⟩, h.live_child hl, hyx⟩
    · rintro ⟨hl, -, hyx⟩
      exact ⟨hyx, hl⟩
  · have hbelow : ∀ m, loose = some m → ¬ t.Below m x := by
      intro m hm hmx
      exact hout m hm (h.mem_descendants.mpr ⟨h.live_of_below hx hmx, hmx⟩)
    obtain ⟨l, hl⟩ := h.exists_root_of_not_below hx hbelow
    exact ⟨l, (hroot l x).mpr hl, fun k hk => h.root_eq_of_below ((hroot k x).mp hk) hl⟩
  · rw [Option.eq_none_iff_forall_ne_some]
    intro l hl
    exact hnone m x hm hx l (h.layerOf_eq_some_iff.mp hl)
  · rw [Option.eq_none_iff_forall_ne_some]
    intro y hy
    obtain ⟨hyx, l, hl⟩ := h.topLevel_eq_some_iff.mp hy
    exact hnone m x hm hx l (.trans (.of_parent hl (Below.refl t _)) hyx)

end Bands

end Tree

/-! ## Moments of a run -/

namespace Engine

open ZOrder.Tree (root)

variable {H : Type} [DecidableEq H] {t : Tree H} {moving : Option NodeId}

/-- The forest at a moment of a run, between two operations or in the middle of one, with the
family that is between two places then. An operation gets from one forest to another by
these edits, and walks about the forests in between. -/
inductive Moment : Tree H → Option NodeId → Prop where
  /-- No operation is under way. -/
  | reached {e : Engine H} (h : Reachable e) : Moment e.tree none
  /-- A new window has a node, which is not attached yet. -/
  | created {t : Tree H} {w : H} (h : Moment t none) (hnew : t.get w = none) (home : Layer) :
      Moment (t.create w home).1 (some (t.create w home).2)
  /-- A family has been taken out. -/
  | takenOut {t t' : Tree H} {id p : NodeId} {slot : Nat} (h : Moment t none)
      (hdetach : t.detach id = some (t', p, slot)) : Moment t' (some id)
  /-- The family has been attached to a node. -/
  | attached {t t' : Tree H} {id p : NodeId} {k slot : Nat} (h : Moment t (some id))
      (hattach : t.attach p id k = some (t', slot)) : Moment t' none
  /-- A window has been given another permanent band. -/
  | settled {t : Tree H} (h : Moment t none) (id : NodeId) (home : Layer) :
      Moment (t.setHome id home) none

/-- At every moment the forest is sound, and what is between two places is a window. -/
theorem Moment.sound (h : Moment t moving) :
    t.Sound moving ∧ ∀ m, moving = some m → ∃ w, t.handle m = some w := by
  induction h with
  | reached h => exact ⟨h.sound, fun m hm => by cases hm⟩
  | @created t w _ hnew home ih =>
    have hcreates := Tree.creates_create w home fun x hx => (ih.1.mem_free x).mp hx
    refine ⟨hcreates.sound ih.1 hnew, ?_⟩
    rintro m ⟨⟩
    exact ⟨w, by rw [hcreates.handle, if_pos rfl]⟩
  | @takenOut t t' id p slot _ hdetach ih =>
    cases hpar : t.parent id with
    | none => simp [Tree.detach, hpar] at hdetach
    | some q =>
      obtain ⟨t₀, below, above, hdetach', hgraft, ht₀⟩ := ih.1.exists_detach hpar
      rw [hdetach', Option.some.injEq, Prod.mk.injEq] at hdetach
      obtain ⟨w, hw⟩ := ih.1.exists_handle hpar
      obtain ⟨rfl, -⟩ := hdetach
      refine ⟨ht₀, ?_⟩
      rintro m ⟨⟩
      exact ⟨w, by rw [← hgraft.handle, hw]⟩
  | @attached t t' id p k slot _ hattach ih =>
    obtain ⟨w, hw⟩ := ih.2 id rfl
    obtain ⟨-, hsub, -, hgraft⟩ := Tree.attach_cases hattach
    exact ⟨hgraft.sound ih.1 (ih.1.ne_root hw) (ih.1.isInSubtree_eq_false_iff.mp hsub),
      fun m hm => by cases hm⟩
  | @settled t _ id home ih =>
    exact ⟨(Tree.sameShape_setHome t id home).sound ih.1, fun m hm => by cases hm⟩

/-- The walks end and agree at every moment of a run, also while a family is between two
places. -/
theorem walks_agree (h : Moment t moving) : t.WalksAgree moving :=
  h.sound.1.walksAgree h.sound.2

/-- The window 1 is taken out together with its dialog 2, while 3 stays: the walks that start at
2 end without a band, those between 1 and 2 find each other, and 3 has its band. -/
theorem walks_agree_of_dialog :
    ∃ t : Tree Nat, Moment t (some 11) ∧ t.handle 12 = some 2 ∧ t.handle 13 = some 3 ∧
      Ends t.layerOfTurn 15 12 none ∧ Ends t.topLevelTurn 15 12 none ∧
      Ends (t.isInSubtreeTurn 11) 15 (some 12) true ∧
      Ends t.descendantsTurn 15 ([], [11]) [11, 12] ∧ t.Preorder 11 [11, 12] ∧
      ∃! l, 13 ∈ t.descendants (root l) := by
  let dialogOf (o : Nat) : Query Nat := { Query.blank with owner := fun _ => some o }
  let e : Engine Nat := (ofSettings {}).performAll [(.blank, .add 1), (dialogOf 1, .add 2),
    (.blank, .addAt 3 .top .top)]
  have hreach : Reachable e := .performAll (.start {}) _
  have hout : (e.tree.detach 11).map (fun out => (out.1.nodes.size, out.1.handle 11,
      out.1.handle 12, out.1.handle 13, out.1.descendants 11)) =
      some (14, some 1, some 2, some 3, [11, 12]) := by decide
  obtain ⟨⟨t, p, slot⟩, hdetach, hfields⟩ := Option.map_eq_some_iff.mp hout
  obtain ⟨hsize, h1, h2, h3, hdown⟩ : t.nodes.size = 14 ∧ t.handle 11 = some 1 ∧
      t.handle 12 = some 2 ∧ t.handle 13 = some 3 ∧ t.descendants 11 = [11, 12] := by
    simpa only [Prod.mk.injEq] using hfields
  have hmoment : Moment t (some 11) := .takenOut (.reached hreach) hdetach
  have hwalks := walks_agree hmoment
  have hlive : t.Live 11 ∧ t.Live 12 ∧ t.Live 13 :=
    ⟨Tree.live_of_handle h1, Tree.live_of_handle h2, Tree.live_of_handle h3⟩
  obtain ⟨hband, hfamily⟩ := hwalks.no_band 11 12 rfl (by rw [hdown]; decide)
  have hfound := (hwalks.isInSubtree_iff 11 12 hlive.1 hlive.2.1).mpr (by rw [hdown]; decide)
  refine ⟨t, hmoment, h2, h3, ?_, ?_, ?_, ?_, ?_, ?_⟩
  · simpa only [hsize, hband] using hwalks.ends_layerOf 12 hlive.2.1
  · simpa only [hsize, hfamily] using hwalks.ends_topLevel 12 hlive.2.1
  · simpa only [hsize, hfound] using hwalks.ends_isInSubtree 11 12 hlive.1 hlive.2.1
  · simpa only [hsize, hdown] using hwalks.ends_descendants 11 hlive.1
  · exact (hwalks.preorder 11 _ hlive.1).mpr hdown.symm
  · refine hwalks.one_band 13 hlive.2.2 ?_
    rintro m ⟨⟩
    rw [hdown]
    decide

end Engine

end ZOrder
