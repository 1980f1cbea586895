/-
  ZOrder.Proofs.Tree.Fields

  A forest seen through three functions of a slot: what its node stands for, its
  parent and its children. For each edit, what the edit does to the three; proofs
  about a forest use these lemmas and never open an edit again.

  Attaching a node and taking it out are one relation read in two directions:
  `Grafts t t' p id below above` says that `t'` is `t` with the parentless node `id`
  put between the children `below` and `above` of `p`.
-/

import ZOrder.Proofs.Block
import ZOrder.Tree.Edit

namespace ZOrder.Tree

variable {H : Type}

/-! ## The three functions -/

/-- What the node in a slot stands for; none for an empty slot. -/
def kind (t : Tree H) (x : NodeId) : Option (NodeKind H) := (t.node x).map Node.kind

/-- Whether a slot holds a node. -/
def Live (t : Tree H) (x : NodeId) : Prop := t.kind x ≠ none

theorem node_eq_none_iff {t : Tree H} {x : NodeId} : t.node x = none ↔ t.kind x = none := by
  simp [kind]

theorem live_iff_node {t : Tree H} {x : NodeId} : t.Live x ↔ ∃ n, t.node x = some n := by
  rw [Live, Ne, ← node_eq_none_iff, ← Ne, Option.ne_none_iff_exists']

theorem handle_eq_some_iff {t : Tree H} {x : NodeId} {w : H} :
    t.handle x = some w ↔ ∃ home, t.kind x = some (.window w home) := by
  cases hn : t.node x with
  | none => simp [handle, kind, hn]
  | some n =>
    obtain ⟨k, p, cs⟩ := n
    cases k <;> simp [handle, kind, hn, Node.handle]

theorem layerAt_eq_some_iff {t : Tree H} {x : NodeId} {l : Layer} :
    t.layerAt x = some l ↔ t.kind x = some (.layer l) := by
  cases hn : t.node x with
  | none => simp [layerAt, kind, hn]
  | some n =>
    obtain ⟨k, p, cs⟩ := n
    cases k <;> simp [layerAt, kind, hn, Node.layer]

theorem home_eq_some_iff {t : Tree H} {x : NodeId} {l : Layer} :
    t.home x = some l ↔ ∃ w, t.kind x = some (.window w l) := by
  cases hn : t.node x with
  | none => simp [home, kind, hn]
  | some n =>
    obtain ⟨k, p, cs⟩ := n
    cases k <;> simp [home, kind, hn, Node.home]

/-- A node has a permanent band if it is a window. -/
theorem exists_home_iff {t : Tree H} {x : NodeId} :
    (∃ l, t.home x = some l) ↔ ∃ w, t.handle x = some w := by
  simp only [home_eq_some_iff, handle_eq_some_iff]
  exact exists_comm

/-- A node is the root of a band or a window. -/
theorem Live.layerAt_or_handle {t : Tree H} {x : NodeId} (h : t.Live x) :
    (∃ l, t.layerAt x = some l) ∨ ∃ w, t.handle x = some w := by
  obtain ⟨k, hk⟩ := Option.ne_none_iff_exists'.mp h
  cases k with
  | layer l => exact .inl ⟨l, layerAt_eq_some_iff.mpr hk⟩
  | window w home => exact .inr ⟨w, handle_eq_some_iff.mpr ⟨home, hk⟩⟩

theorem live_of_handle {t : Tree H} {x : NodeId} {w : H} (h : t.handle x = some w) :
    t.Live x := by
  obtain ⟨home, hk⟩ := handle_eq_some_iff.mp h
  simp [Live, hk]

theorem live_of_layerAt {t : Tree H} {x : NodeId} {l : Layer} (h : t.layerAt x = some l) :
    t.Live x := by
  simp [Live, layerAt_eq_some_iff.mp h]

theorem live_of_parent {t : Tree H} {x p : NodeId} (h : t.parent x = some p) : t.Live x := by
  obtain ⟨n, hn, -⟩ := Option.bind_eq_some_iff.mp h
  exact live_iff_node.mpr ⟨n, hn⟩

theorem live_of_mem_children {t : Tree H} {c p : NodeId} (h : c ∈ t.children p) : t.Live p := by
  cases hn : t.node p with
  | none => simp [children, hn] at h
  | some n => exact live_iff_node.mpr ⟨n, hn⟩

theorem Live.lt_size {t : Tree H} {x : NodeId} (h : t.Live x) : x < t.nodes.size := by
  obtain ⟨n, hn⟩ := live_iff_node.mp h
  rw [node, Option.join_eq_some_iff] at hn
  exact (Array.getElem?_eq_some_iff.mp hn).1

theorem parent_of_not_live {t : Tree H} {x : NodeId} (h : ¬ t.Live x) : t.parent x = none := by
  by_contra hp
  obtain ⟨p, hp⟩ := Option.ne_none_iff_exists'.mp hp
  exact h (live_of_parent hp)

theorem layerAt_eq_none_of_handle {t : Tree H} {x : NodeId} {w : H} (h : t.handle x = some w) :
    t.layerAt x = none := by
  obtain ⟨home, hk⟩ := handle_eq_some_iff.mp h
  rw [Option.eq_none_iff_forall_ne_some]
  intro l hl
  rw [layerAt_eq_some_iff, hk] at hl
  cases hl

/-! ## Changes of one node -/

/-- What a change of nodes leaves alone in each node, it leaves alone in every slot. -/
theorem node_update_congr {γ : Type} (t : Tree H) (id : NodeId) (f : Node H → Node H)
    (view : Option (Node H) → γ) (hview : ∀ n, view (some (f n)) = view (some n)) (x : NodeId) :
    view ((t.update id f).node x) = view (t.node x) := by
  rw [node_update]
  split
  · next h =>
    subst h
    cases t.node x with
    | none => rfl
    | some n => exact hview n
  · rfl

/-- The forest with another parent noted in a node. -/
def setParent (t : Tree H) (id : NodeId) (o : Option NodeId) : Tree H :=
  t.update id fun n => { n with parent := o }

/-- The forest with the children of a node changed. -/
def setChildren (t : Tree H) (id : NodeId) (f : List NodeId → List NodeId) : Tree H :=
  t.update id fun n => { n with children := f n.children }

section

variable {t : Tree H} {id : NodeId}

@[simp] theorem kind_setParent (o : Option NodeId) (x : NodeId) :
    (t.setParent id o).kind x = t.kind x :=
  t.node_update_congr id (fun n => { n with parent := o }) (Option.map Node.kind) (fun _ => rfl) x

@[simp] theorem kind_setChildren (f : List NodeId → List NodeId) (x : NodeId) :
    (t.setChildren id f).kind x = t.kind x :=
  t.node_update_congr id (fun n => { n with children := f n.children }) (Option.map Node.kind)
    (fun _ => rfl) x

theorem parent_setParent (hid : t.Live id) (o : Option NodeId) (x : NodeId) :
    (t.setParent id o).parent x = if x = id then o else t.parent x := by
  obtain ⟨n, hn⟩ := live_iff_node.mp hid
  rw [parent, parent, setParent, node_update, hn]
  split <;> rfl

@[simp] theorem parent_setChildren (f : List NodeId → List NodeId) (x : NodeId) :
    (t.setChildren id f).parent x = t.parent x :=
  t.node_update_congr id (fun n => { n with children := f n.children }) (·.bind Node.parent)
    (fun _ => rfl) x

@[simp] theorem children_setParent (o : Option NodeId) (x : NodeId) :
    (t.setParent id o).children x = t.children x :=
  t.node_update_congr id (fun n => { n with parent := o })
    (fun n => (n.map Node.children).getD []) (fun _ => rfl) x

theorem children_setChildren (hid : t.Live id) (f : List NodeId → List NodeId) (x : NodeId) :
    (t.setChildren id f).children x = if x = id then f (t.children id) else t.children x := by
  obtain ⟨n, hn⟩ := live_iff_node.mp hid
  simp only [children, setChildren, node_update, hn]
  split <;> rfl

end

/-! ## Forests over the same nodes -/

/-- Two forests with the same slots and windows; only the links may differ. -/
structure SameNodes (t t' : Tree H) : Prop where
  kind : ∀ x, t'.kind x = t.kind x
  size : t'.nodes.size = t.nodes.size
  free : t'.free = t.free
  index : t'.index = t.index

namespace SameNodes

variable {t t' t'' : Tree H}

theorem symm (h : SameNodes t t') : SameNodes t' t :=
  ⟨fun x => (h.kind x).symm, h.size.symm, h.free.symm, h.index.symm⟩

theorem trans (h : SameNodes t t') (h' : SameNodes t' t'') : SameNodes t t'' :=
  ⟨fun x => (h'.kind x).trans (h.kind x), h'.size.trans h.size, h'.free.trans h.free,
    h'.index.trans h.index⟩

theorem live (h : SameNodes t t') (x : NodeId) : t'.Live x ↔ t.Live x := by
  rw [Live, Live, h.kind]

theorem handle (h : SameNodes t t') (x : NodeId) : t'.handle x = t.handle x := by
  ext w
  rw [handle_eq_some_iff, handle_eq_some_iff, h.kind]

theorem layerAt (h : SameNodes t t') (x : NodeId) : t'.layerAt x = t.layerAt x := by
  ext l
  rw [layerAt_eq_some_iff, layerAt_eq_some_iff, h.kind]

theorem home (h : SameNodes t t') (x : NodeId) : t'.home x = t.home x := by
  ext l
  rw [home_eq_some_iff, home_eq_some_iff, h.kind]

theorem get [DecidableEq H] (h : SameNodes t t') (w : H) : t'.get w = t.get w := by
  rw [Tree.get, Tree.get, h.index]

end SameNodes

theorem sameNodes_setParent (t : Tree H) (id : NodeId) (o : Option NodeId) :
    SameNodes t (t.setParent id o) :=
  ⟨kind_setParent o, by simp [setParent, update], rfl, rfl⟩

theorem sameNodes_setChildren (t : Tree H) (id : NodeId) (f : List NodeId → List NodeId) :
    SameNodes t (t.setChildren id f) :=
  ⟨kind_setChildren f, by simp [setChildren, update], rfl, rfl⟩

/-- `t'` is `t` with the parentless node `id` put among the children of `p`, above the
nodes `below` and below the nodes `above`. -/
structure Grafts (t t' : Tree H) (p id : NodeId) (below above : List NodeId) : Prop
    extends SameNodes t t' where
  parentless : t.parent id = none
  parent : ∀ x, t'.parent x = if x = id then some p else t.parent x
  split : t.children p = below ++ above
  children : ∀ x, t'.children x = if x = p then below ++ id :: above else t.children x

/-! ## Attaching -/

/-- What an attached node and its new parent were like, and what came of it. -/
theorem attach_cases {t t' : Tree H} {p id : NodeId} {k s : Nat}
    (h : t.attach p id k = some (t', s)) :
    t.Live p ∧ t.isInSubtree id p = false ∧ s = min k (t.children p).length ∧
      Grafts t t' p id ((t.children p).take s) ((t.children p).drop s) := by
  simp only [attach] at h
  split at h
  · next n m hn hm =>
    -- Both slots are in use; the node must be a window without parent, not above `p`.
    split at h
    · cases h
    · next hfree =>
      simp only [Bool.or_eq_true, not_or, Bool.not_eq_true, Option.isSome_eq_false_iff,
        Option.isNone_iff_eq_none] at hfree
      obtain ⟨⟨-, hpar⟩, hsub⟩ := hfree
      simp only [Option.some.injEq, Prod.mk.injEq] at h
      obtain ⟨rfl, rfl⟩ := h
      have hp : t.Live p := live_iff_node.mpr ⟨m, hm⟩
      have hid : t.Live id := live_iff_node.mpr ⟨n, hn⟩
      have hcs : t.children p = m.children := by simp [children, hm]
      -- The list of `p` is changed first, then the parent of `id`.
      have hmid := sameNodes_setChildren t p (·.insertIdx (min k m.children.length) id)
      rw [hcs]
      refine ⟨hp, hsub, rfl, hmid.trans (sameNodes_setParent _ id (some p)), ?_, ?_, ?_, ?_⟩
      · simp [parent, hn, hpar]
      · intro x
        exact (parent_setParent ((hmid.live id).mpr hid) (some p) x).trans
          (by rw [parent_setChildren])
      · rw [hcs, List.take_append_drop]
      · intro x
        refine (children_setParent (some p) x).trans ((children_setChildren hp
          (·.insertIdx (min k m.children.length) id) x).trans ?_)
        rw [hcs, insertIdx_eq_take_append id (Nat.min_le_right _ _)]
  · cases h

/-- A window without a parent can be attached to any node outside its family. -/
theorem exists_attach {t : Tree H} {p id : NodeId} {w : H} (k : Nat) (hid : t.handle id = some w)
    (hpar : t.parent id = none) (hp : t.Live p) (hsub : t.isInSubtree id p = false) :
    ∃ t', t.attach p id k = some (t', min k (t.children p).length) := by
  obtain ⟨n, hn⟩ := live_iff_node.mp (live_of_handle hid)
  obtain ⟨m, hm⟩ := live_iff_node.mp hp
  have hlayer : n.isLayer = false := by
    have := layerAt_eq_none_of_handle hid
    simpa [layerAt, hn, Node.isLayer] using this
  have hnone : n.parent = none := by simpa [parent, hn] using hpar
  have hcs : t.children p = m.children := by simp [children, hm]
  simp only [attach, hn, hm, hlayer, hnone, hsub, hcs]
  exact ⟨_, rfl⟩

/-! ## Taking out -/

/-- Where a listed child stands among its siblings. -/
theorem position_eq_of_split {t : Tree H} {id p : NodeId} {below above : List NodeId}
    (hpar : t.parent id = some p) (hcs : t.children p = below ++ id :: above)
    (hbelow : id ∉ below) : t.position id = some below.length := by
  rw [position, hpar, Option.bind_some, hcs, idxOf?_append_cons hbelow]

/-- Taking a listed child out leaves its siblings as they are. -/
theorem exists_detach {t : Tree H} {id p : NodeId} {below above : List NodeId}
    (hpar : t.parent id = some p) (hcs : t.children p = below ++ id :: above)
    (hbelow : id ∉ below) :
    ∃ t', t.detach id = some (t', p, below.length) ∧ Grafts t' t p id below above := by
  have hid : t.Live id := live_of_parent hpar
  have hp : t.Live p := live_of_mem_children (c := id) (by simp [hcs])
  -- As in `attach`, the list first and then the parent.
  have hmid := sameNodes_setChildren t p (·.eraseIdx below.length)
  have hmid' := (hmid.live id).mpr hid
  refine ⟨(t.setChildren p (·.eraseIdx below.length)).setParent id none, ?_, ?_⟩
  · rw [detach, hpar, position_eq_of_split hpar hcs hbelow]
    rfl
  · refine ⟨(hmid.trans (sameNodes_setParent _ id none)).symm, ?_, ?_, ?_, ?_⟩
    · rw [parent_setParent hmid', if_pos rfl]
    · intro x
      rw [parent_setParent hmid', parent_setChildren]
      split
      · next h => rw [h, hpar]
      · rfl
    · rw [children_setParent, children_setChildren hp, if_pos rfl, hcs]
      simp [List.eraseIdx_append_of_length_le]
    · intro x
      rw [children_setParent, children_setChildren hp]
      split
      · next h => rw [h, hcs]
      · rfl

/-! ## Splicing children into the place of their parent -/

theorem sameNodes_adopt (t : Tree H) (p : NodeId) (ids : List NodeId) :
    SameNodes t (t.adopt p ids) := by
  induction ids generalizing t with
  | nil => exact ⟨fun _ => rfl, rfl, rfl, rfl⟩
  | cons c cs ih => exact (sameNodes_setParent t c (some p)).trans (ih (t.setParent c (some p)))

@[simp] theorem children_adopt (t : Tree H) (p : NodeId) (ids : List NodeId) (x : NodeId) :
    (t.adopt p ids).children x = t.children x := by
  induction ids generalizing t with
  | nil => rfl
  | cons c cs ih => exact (ih (t.setParent c (some p))).trans (children_setParent (some p) x)

theorem parent_adopt {t : Tree H} {p : NodeId} {ids : List NodeId} (hids : ∀ c ∈ ids, t.Live c)
    (x : NodeId) : (t.adopt p ids).parent x = if x ∈ ids then some p else t.parent x := by
  induction ids generalizing t with
  | nil => rfl
  | cons c cs ih =>
    have hsame := sameNodes_setParent t c (some p)
    refine (ih (t := t.setParent c (some p)) fun d hd =>
      (hsame.live d).mpr (hids d (List.mem_cons_of_mem c hd))).trans ?_
    rw [parent_setParent (hids c List.mem_cons_self)]
    by_cases hc : x = c
    · simp [hc]
    · simp [hc]

/-- Unlinking a node: its children, in order, are listed in its place. -/
theorem exists_unlink {t : Tree H} {id p : NodeId} {below above : List NodeId}
    (hpar : t.parent id = some p) (hne : p ≠ id) (hcs : t.children p = below ++ id :: above)
    (hbelow : id ∉ below) (hlive : ∀ c ∈ t.children id, t.Live c) :
    ∃ t', t.unlink id = some (t', p, below.length) ∧ SameNodes t t' ∧
      (∀ x, t'.parent x =
        if x = id then none else if x ∈ t.children id then some p else t.parent x) ∧
      ∀ x, t'.children x =
        if x = id then [] else if x = p then below ++ t.children id ++ above
        else t.children x := by
  have hid : t.Live id := live_of_parent hpar
  have hp : t.Live p := live_of_mem_children (c := id) (by simp [hcs])
  let promoted := t.children id
  let splice := fun cs : List NodeId =>
    cs.take below.length ++ promoted ++ cs.drop (below.length + 1)
  -- Four edits in turn: the node gives up its list, its children get the new parent, the
  -- parent lists them, and the node gives up its own parent.
  have h₁ : SameNodes t (t.setChildren id fun _ => []) := sameNodes_setChildren t id _
  have h₂ := h₁.trans (sameNodes_adopt (t.setChildren id fun _ => []) p promoted)
  have h₃ := h₂.trans (sameNodes_setChildren _ p splice)
  refine ⟨((((t.setChildren id fun _ => []).adopt p promoted).setChildren p splice).setParent
    id none), ?_, h₃.trans (sameNodes_setParent _ id none), ?_, ?_⟩
  · rw [unlink, hpar, position_eq_of_split hpar hcs hbelow]
    rfl
  · intro x
    rw [parent_setParent ((h₃.live id).mpr hid), parent_setChildren,
      parent_adopt fun c hc => (h₁.live c).mpr (hlive c hc), parent_setChildren]
  · intro x
    rw [children_setParent, children_setChildren ((h₂.live p).mpr hp), children_adopt,
      children_adopt, children_setChildren hid, children_setChildren hid]
    by_cases hx : x = p
    · simp [hx, hne, splice, promoted, hcs]
    · simp [hx]

/-! ## Windows come and go -/

/-- `t'` is `t` with a bare node for the window `w` in the empty slot `id`. -/
structure Creates [DecidableEq H] (t t' : Tree H) (w : H) (home : Layer) (id : NodeId) :
    Prop where
  fresh : ¬ t.Live id
  kind : ∀ x, t'.kind x = if x = id then some (.window w home) else t.kind x
  parent : ∀ x, t'.parent x = t.parent x
  children : ∀ x, t'.children x = t.children x
  index : t'.index = t.index.insert w id
  slots : (t.free = id :: t'.free ∧ t'.nodes.size = t.nodes.size) ∨
    (t.free = [] ∧ t'.free = [] ∧ id = t.nodes.size ∧ t'.nodes.size = t.nodes.size + 1)

/-- Filling one slot with a bare node changes what that slot stands for, and no links. -/
private theorem fields_of_node {t t' : Tree H} {id : NodeId} {k : NodeKind H} (hid : ¬ t.Live id)
    (h : ∀ x, t'.node x = if x = id then some (Node.bare k) else t.node x) :
    (∀ x, t'.kind x = if x = id then some k else t.kind x) ∧
      (∀ x, t'.parent x = t.parent x) ∧ ∀ x, t'.children x = t.children x := by
  have hnone : t.node id = none := node_eq_none_iff.mpr (not_not.mp hid)
  refine ⟨fun x => ?_, fun x => ?_, fun x => ?_⟩ <;> by_cases hx : x = id
  · simp [Tree.kind, h, hx, Node.bare]
  · simp [Tree.kind, h, hx]
  · subst hx; simp [Tree.parent, h, hnone, Node.bare]
  · simp [Tree.parent, h, hx]
  · subst hx; simp [Tree.children, h, hnone, Node.bare]
  · simp [Tree.children, h, hx]

/-- A window is created in an empty slot if the free list names empty slots only. -/
theorem creates_create [DecidableEq H] {t : Tree H} (w : H) (home : Layer)
    (hfree : ∀ x ∈ t.free, x < t.nodes.size ∧ ¬ t.Live x) :
    Creates t (t.create w home).1 w home (t.create w home).2 := by
  cases hf : t.free with
  | cons id free =>
    -- The slot freed last is empty because the free list says so.
    obtain ⟨hlt, hdead⟩ := hfree id (by simp [hf])
    have hnode : ∀ x, (t.create w home).1.node x =
        if x = id then some (Node.bare (.window w home)) else t.node x := by
      intro x
      simp only [create, hf, node, Array.getElem?_setIfInBounds]
      by_cases hx : id = x
      · simp [← hx, hlt]
      · simp [hx, Ne.symm hx]
    obtain ⟨hk, hp, hc⟩ := fields_of_node hdead hnode
    have hid : (t.create w home).2 = id := by simp [create, hf]
    rw [hid]
    exact ⟨hdead, hk, hp, hc, by simp [create, hf], .inl (by simp [create, hf])⟩
  | nil =>
    -- The new slot is past the end.
    have hdead : ¬ t.Live t.nodes.size := by
      intro h
      exact Nat.lt_irrefl _ h.lt_size
    have hnode : ∀ x, (t.create w home).1.node x =
        if x = t.nodes.size then some (Node.bare (.window w home)) else t.node x := by
      intro x
      simp only [create, hf, node, Array.getElem?_push]
      split <;> rfl
    obtain ⟨hk, hp, hc⟩ := fields_of_node hdead hnode
    have hid : (t.create w home).2 = t.nodes.size := by simp [create, hf]
    rw [hid]
    exact ⟨hdead, hk, hp, hc, by simp [create, hf], .inr (by simp [create, hf])⟩

/-- `t'` is `t` without the node `id` of the window `w`, whose children are listed in its
place among the children of `p`. -/
structure Destroys [DecidableEq H] (t t' : Tree H) (w : H) (p id : NodeId)
    (below above : List NodeId) : Prop where
  split : t.children p = below ++ id :: above
  kind : ∀ x, t'.kind x = if x = id then none else t.kind x
  parent : ∀ x, t'.parent x =
    if x = id then none else if x ∈ t.children id then some p else t.parent x
  children : ∀ x, t'.children x =
    if x = id then [] else if x = p then below ++ t.children id ++ above else t.children x
  index : t'.index = t.index.erase w
  free : t'.free = id :: t.free
  size : t'.nodes.size = t.nodes.size

/-- Emptying a slot whose node has no links leaves all links alone. -/
private theorem fields_of_emptied {t t' : Tree H} {id : NodeId} (hpar : t.parent id = none)
    (hcs : t.children id = []) (h : ∀ x, t'.node x = if x = id then none else t.node x) :
    (∀ x, t'.kind x = if x = id then none else t.kind x) ∧
      (∀ x, t'.parent x = t.parent x) ∧ ∀ x, t'.children x = t.children x := by
  refine ⟨fun x => ?_, fun x => ?_, fun x => ?_⟩ <;> by_cases hx : x = id
  · simp [Tree.kind, h, hx]
  · simp [Tree.kind, h, hx]
  · subst hx; rw [hpar]; simp [Tree.parent, h]
  · simp [Tree.parent, h, hx]
  · subst hx; rw [hcs]; simp [Tree.children, h]
  · simp [Tree.children, h, hx]

/-- An attached window is destroyed, and its children take its place. -/
theorem exists_destroy [DecidableEq H] {t : Tree H} {w : H} {id p : NodeId}
    {below above : List NodeId} (hget : t.get w = some id) (hpar : t.parent id = some p)
    (hne : p ≠ id) (hcs : t.children p = below ++ id :: above) (hbelow : id ∉ below)
    (hlive : ∀ c ∈ t.children id, t.Live c) :
    ∃ t', t.destroy w = some (t', some (p, below.length)) ∧
      Destroys t t' w p id below above := by
  -- The handle is dropped from the index first, which no link depends on.
  let t₀ : Tree H := { t with index := t.index.erase w }
  obtain ⟨t₁, hunlink, hsame, hparent, hchildren⟩ :=
    exists_unlink (t := t₀) hpar hne hcs hbelow hlive
  -- Once the window is unlinked its slot can be emptied.
  let t₂ : Tree H :=
    { t₁ with nodes := t₁.nodes.setIfInBounds id none, free := id :: t₁.free }
  have hnode : ∀ x, t₂.node x = if x = id then none else t₁.node x := by
    intro x
    simp only [t₂, node, Array.getElem?_setIfInBounds]
    by_cases hx : id = x
    · by_cases hlt : id < t₁.nodes.size <;> simp [hx, hx ▸ hlt]
    · simp [hx, Ne.symm hx]
  obtain ⟨hk, hp, hc⟩ :=
    fields_of_emptied (by rw [hparent, if_pos rfl]) (by rw [hchildren, if_pos rfl]) hnode
  refine ⟨t₂, ?_, hcs, ?_, ?_, ?_, ?_, ?_, ?_⟩
  · rw [destroy, hget]
    simp only [hunlink, t₀, t₂]
  · intro x
    rw [hk, hsame.kind]
    rfl
  · intro x
    rw [hp, hparent]
    rfl
  · intro x
    rw [hc, hchildren]
    rfl
  · exact hsame.index
  · exact congrArg (id :: ·) hsame.free
  · exact (Array.size_setIfInBounds ..).trans hsame.size

end ZOrder.Tree
