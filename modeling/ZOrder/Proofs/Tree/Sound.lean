/-
  ZOrder.Proofs.Tree.Sound

  When the slots of a forest make sense together, and why every edit keeps it so.

  Four views of the windows are kept apart in the slots: the parents, the lists of
  children, the index and the list of empty slots. `Slotted` ties the index and the
  empty slots to what the nodes stand for, `Linked` ties parents and children
  together. `Sound t loose` asks for both; `loose` is the head of the family that is
  between two places in the middle of a move, the only window without a parent.

  Acyclicity is a rank that falls from every node to its parent.
-/

import Mathlib.Data.List.Perm.Basic
import Mathlib.Logic.Relation
import ZOrder.Proofs.Tree.Fields

namespace ZOrder.Tree

variable {H : Type}

/-! ## Lying below a node -/

/-- Node `x` is `a`, or lies somewhere below it: following parents leads from `x` to `a`. -/
def Below (t : Tree H) (a x : NodeId) : Prop :=
  Relation.ReflTransGen (fun c p => t.parent c = some p) x a

namespace Below

variable {t t' : Tree H} {a b x p : NodeId}

@[refl] theorem refl (t : Tree H) (x : NodeId) : t.Below x x := Relation.ReflTransGen.refl

theorem of_parent (h : t.parent x = some p) (hp : t.Below a p) : t.Below a x :=
  Relation.ReflTransGen.head h hp

theorem trans (h : t.Below a b) (h' : t.Below b x) : t.Below a x :=
  Relation.ReflTransGen.trans h' h

theorem cases_parent (h : t.Below a x) : x = a ∨ ∃ p, t.parent x = some p ∧ t.Below a p :=
  Relation.ReflTransGen.cases_head h

theorem eq_of_parentless (h : t.Below a x) (hx : t.parent x = none) : x = a := by
  rcases h.cases_parent with hxa | ⟨p, hp, -⟩
  · exact hxa
  · rw [hx] at hp
    cases hp

/-- A way up that does not run through a node is there wherever only that node has another
parent. -/
theorem of_not_below {id : NodeId} (hpar : ∀ y, y ≠ id → t'.parent y = t.parent y)
    (hx : ¬ t.Below id x) (h : t.Below a x) : t'.Below a x := by
  induction h using Relation.ReflTransGen.head_induction_on with
  | refl => exact .refl t' a
  | @head y r hr _ ih =>
    have hne : y ≠ id := fun he => hx (he ▸ .refl t y)
    exact .of_parent ((hpar y hne).trans hr) (ih fun hb => hx (.of_parent hr hb))

/-- Of two nodes above a third, one lies below the other. -/
theorem total (h : t.Below a x) (h' : t.Below b x) : t.Below b a ∨ t.Below a b :=
  Relation.ReflTransGen.total_of_right_unique
    (fun _ _ _ hy hz => Option.some.inj (hy.symm.trans hz)) h h'

theorem rank_le {rank : NodeId → Nat} (hrank : ∀ c p, t.parent c = some p → rank p < rank c)
    (h : t.Below a x) : rank a ≤ rank x := by
  induction h using Relation.ReflTransGen.head_induction_on with
  | refl => exact Nat.le_refl _
  | head hp _ ih => exact Nat.le_trans ih (Nat.le_of_lt (hrank _ _ hp))

end Below

/-! ## The invariant -/

/-- The slots agree with what their nodes stand for: each band has its root in its own
slot, the index lists exactly the windows, and the free list exactly the empty slots. -/
structure Slotted [DecidableEq H] (t : Tree H) : Prop where
  kind_root : ∀ l, t.kind (root l) = some (.layer l)
  eq_root : ∀ x l, t.kind x = some (.layer l) → x = root l
  get_iff : ∀ w x, t.get w = some x ↔ t.handle x = some w
  keys_nodup : (t.index.entries.map Prod.fst).Nodup
  free_nodup : t.free.Nodup
  mem_free : ∀ x, x ∈ t.free ↔ x < t.nodes.size ∧ ¬ t.Live x

/-- Parents and lists of children are two views of one forest; only the roots of bands and
the node `loose` have no parent. -/
structure Linked (t : Tree H) (loose : Option NodeId) : Prop where
  parent_iff : ∀ c p, t.parent c = some p ↔ c ∈ t.children p
  children_nodup : ∀ p, (t.children p).Nodup
  parent_root : ∀ l, t.parent (root l) = none
  parent_loose : ∀ x, loose = some x → t.parent x = none
  orphan : ∀ x, t.Live x → t.parent x = none → (∃ l, x = root l) ∨ loose = some x
  acyclic : ∃ rank : NodeId → Nat, ∀ c p, t.parent c = some p → rank p < rank c

/-- A forest whose slots make sense, with at most one family between two places. -/
structure Sound [DecidableEq H] (t : Tree H) (loose : Option NodeId) : Prop
    extends Slotted t, Linked t loose

/-! ## What the invariant says about a node -/

section

variable {t : Tree H} {loose : Option NodeId}

theorem Linked.live_parent (h : t.Linked loose) {c p : NodeId} (hp : t.parent c = some p) :
    t.Live p :=
  live_of_mem_children ((h.parent_iff c p).mp hp)

theorem Linked.live_child (h : t.Linked loose) {c p : NodeId} (hc : c ∈ t.children p) :
    t.Live c :=
  live_of_parent ((h.parent_iff c p).mpr hc)

/-- A child is listed once, and so is each of its siblings. -/
theorem Linked.nodup_split (h : t.Linked loose) {c p : NodeId} {below above : List NodeId}
    (hsplit : t.children p = below ++ c :: above) :
    c ∉ below ++ above ∧ (below ++ above).Nodup := by
  have hnodup := h.children_nodup p
  rw [hsplit] at hnodup
  exact List.nodup_cons.mp (List.nodup_middle.mp hnodup)

theorem Linked.exists_split (h : t.Linked loose) {c p : NodeId} (hp : t.parent c = some p) :
    ∃ below above, t.children p = below ++ c :: above ∧ c ∉ below ∧ c ∉ above := by
  obtain ⟨below, above, hsplit⟩ := List.append_of_mem ((h.parent_iff c p).mp hp)
  have hc := (h.nodup_split hsplit).1
  rw [List.mem_append, not_or] at hc
  exact ⟨below, above, hsplit, hc⟩

theorem Linked.not_below_parent (h : t.Linked loose) {c p : NodeId} (hp : t.parent c = some p) :
    ¬ t.Below c p := by
  obtain ⟨rank, hrank⟩ := h.acyclic
  intro hc
  exact absurd (hc.rank_le hrank) (Nat.not_le.mpr (hrank c p hp))

theorem Linked.parent_ne (h : t.Linked loose) {c p : NodeId} (hp : t.parent c = some p) :
    p ≠ c := by
  intro hpc
  exact h.not_below_parent hp (hpc ▸ Below.refl t p)

variable [DecidableEq H]

theorem Slotted.live_root (h : t.Slotted) (l : Layer) : t.Live (root l) := by
  rw [Live, h.kind_root]
  exact Option.some_ne_none _

theorem Slotted.layerAt_root (h : t.Slotted) (l : Layer) : t.layerAt (root l) = some l :=
  layerAt_eq_some_iff.mpr (h.kind_root l)

theorem Slotted.handle_root (h : t.Slotted) (l : Layer) : t.handle (root l) = none := by
  rw [Option.eq_none_iff_forall_ne_some]
  intro w hw
  have := layerAt_eq_none_of_handle hw
  rw [h.layerAt_root] at this
  cases this

omit [DecidableEq H] in
theorem root_injective {l l' : Layer} (h : root l = root l') : l = l' := by
  have hget : Layer.all[l.index]? = Layer.all[l'.index]? := congrArg (Layer.all[·]?) h
  rw [Layer.all_getElem?_index, Layer.all_getElem?_index] at hget
  exact Option.some.inj hget

theorem Slotted.ne_root (h : t.Slotted) {x : NodeId} {w : H} (hx : t.handle x = some w)
    (l : Layer) : x ≠ root l := by
  rintro rfl
  rw [h.handle_root] at hx
  cases hx

theorem Slotted.handle_inj (h : t.Slotted) {x y : NodeId} {w : H} (hx : t.handle x = some w)
    (hy : t.handle y = some w) : x = y := by
  rw [← h.get_iff] at hx hy
  exact Option.some.inj (hx.symm.trans hy)

theorem Sound.exists_handle (h : t.Sound loose) {x p : NodeId} (hp : t.parent x = some p) :
    ∃ w, t.handle x = some w := by
  rcases (live_of_parent hp).layerAt_or_handle with ⟨l, hl⟩ | hw
  · rw [layerAt_eq_some_iff] at hl
    rw [h.eq_root x l hl, h.parent_root] at hp
    cases hp
  · exact hw

theorem Sound.exists_parent (h : t.Sound none) {x : NodeId} {w : H} (hx : t.handle x = some w) :
    ∃ p, t.parent x = some p := by
  rw [← Option.ne_none_iff_exists']
  intro hp
  rcases h.orphan x (live_of_handle hx) hp with ⟨l, rfl⟩ | hl
  · exact h.ne_root hx l rfl
  · cases hl

end

/-! ## Forests over the same nodes -/

theorem SameNodes.slotted [DecidableEq H] {t t' : Tree H} (h : SameNodes t t')
    (ht : t.Slotted) : t'.Slotted where
  kind_root l := by rw [h.kind, ht.kind_root]
  eq_root x l hx := ht.eq_root x l (by rw [← h.kind, hx])
  get_iff w x := by rw [h.get, h.handle, ht.get_iff]
  keys_nodup := by rw [h.index]; exact ht.keys_nodup
  free_nodup := by rw [h.free]; exact ht.free_nodup
  mem_free x := by rw [h.free, h.size, h.live, ht.mem_free]

/-! ## Attaching and taking out -/

section

variable {t t' : Tree H} {p id : NodeId} {below above : List NodeId}

/-- The children of the new parent, but for the new child, are the old ones. -/
theorem Grafts.mem_children (h : Grafts t t' p id below above) {c q : NodeId} :
    c ∈ t'.children q ↔ (c = id ∧ q = p) ∨ c ∈ t.children q := by
  rw [h.children]
  by_cases hq : q = p
  · subst hq
    rw [if_pos rfl, h.split]
    simp only [List.mem_append, List.mem_cons, and_true]
    tauto
  · simp [hq]

theorem Grafts.parent_self (h : Grafts t t' p id below above) : t'.parent id = some p := by
  rw [h.parent, if_pos rfl]

theorem Grafts.children_parent (h : Grafts t t' p id below above) :
    t'.children p = below ++ id :: above := by
  rw [h.children, if_pos rfl]

/-- A node that is attached outside its own family closes no circle. -/
theorem Grafts.acyclic (h : Grafts t t' p id below above) (hbelow : ¬ t.Below id p)
    (hacyclic : ∃ rank : NodeId → Nat, ∀ c q, t.parent c = some q → rank q < rank c) :
    ∃ rank : NodeId → Nat, ∀ c q, t'.parent c = some q → rank q < rank c := by
  classical
  obtain ⟨rank, hrank⟩ := hacyclic
  -- The family that arrives is lifted above its new parent as a whole.
  refine ⟨fun x => if t.Below id x then rank x + rank p + 1 else rank x, fun c q hc => ?_⟩
  beta_reduce
  rw [h.parent] at hc
  split at hc
  · -- The link to the new parent is the only new one.
    next hcid =>
    obtain rfl := Option.some.inj hc
    rw [if_neg hbelow, if_pos (hcid ▸ Below.refl t c)]
    omega
  · -- Along an old link both ends are lifted, or neither.
    next hcid =>
    have hlt := hrank c q hc
    have hiff : t.Below id c ↔ t.Below id q := by
      refine ⟨fun hb => ?_, .of_parent hc⟩
      rcases hb.cases_parent with he | ⟨r, hr, hbr⟩
      · exact absurd he hcid
      · rw [hc] at hr
        exact Option.some.inj hr ▸ hbr
    by_cases hb : t.Below id q
    · rw [if_pos hb, if_pos (hiff.mpr hb)]
      omega
    · rw [if_neg hb, if_neg (hiff.not.mpr hb)]
      exact hlt

/-- Attaching a node outside its own family keeps the links sound. -/
theorem Grafts.linked (h : Grafts t t' p id below above) (ht : t.Linked (some id))
    (hroot : ∀ l, id ≠ root l) (hbelow : ¬ t.Below id p) : t'.Linked none where
  parent_iff c q := by
    rw [h.mem_children, h.parent, ← ht.parent_iff]
    by_cases hc : c = id
    · subst hc
      simp [h.parentless, eq_comm]
    · simp [hc]
  children_nodup q := by
    rw [h.children]
    split
    · -- The new child was in no list, since it had no parent.
      have hid : id ∉ below ++ above := by
        rw [← h.split, ← ht.parent_iff, h.parentless]
        exact (Option.some_ne_none p).symm
      have hnodup := ht.children_nodup p
      rw [h.split] at hnodup
      exact List.nodup_middle.mpr (List.nodup_cons.mpr ⟨hid, hnodup⟩)
    · exact ht.children_nodup q
  parent_root l := by rw [h.parent, if_neg (hroot l).symm, ht.parent_root]
  parent_loose _ hx := by cases hx
  orphan x hx hpar := by
    rw [h.parent] at hpar
    split at hpar
    · cases hpar
    · next hne =>
      rcases ht.orphan x ((h.live x).mp hx) hpar with hl | hl
      · exact .inl hl
      · exact absurd (Option.some.inj hl).symm hne
  acyclic := h.acyclic hbelow ht.acyclic

/-- Taking a node out leaves it as the one node without a parent. -/
theorem Grafts.linked_of_taken (h : Grafts t t' p id below above) (ht : t'.Linked none) :
    t.Linked (some id) where
  parent_iff c q := by
    have hiff := ht.parent_iff c q
    rw [h.mem_children, h.parent] at hiff
    by_cases hc : c = id
    · subst hc
      -- It was listed once, so now it is listed nowhere.
      have hmem : c ∉ t.children q := by
        intro hmem
        have hq : p = q := by simpa [hmem] using hiff
        subst hq
        rw [h.split] at hmem
        exact (ht.nodup_split h.children_parent).1 hmem
      simp [h.parentless, hmem]
    · simpa [hc] using hiff
  children_nodup q := by
    by_cases hq : q = p
    · rw [hq, h.split]
      exact (ht.nodup_split h.children_parent).2
    · have hnodup := ht.children_nodup q
      rwa [h.children, if_neg hq] at hnodup
  parent_root l := by
    have hroot := ht.parent_root l
    rw [h.parent] at hroot
    split at hroot
    · cases hroot
    · exact hroot
  parent_loose x hx := Option.some.inj hx ▸ h.parentless
  orphan x hx hpar := by
    by_cases hxid : x = id
    · exact .inr (hxid ▸ rfl)
    · refine .inl ?_
      rcases ht.orphan x ((h.live x).mpr hx) (by rw [h.parent, if_neg hxid, hpar]) with hl | hl
      · exact hl
      · cases hl
  acyclic := by
    obtain ⟨rank, hrank⟩ := ht.acyclic
    refine ⟨rank, fun c q hc => hrank c q ?_⟩
    have hcid : c ≠ id := by
      rintro rfl
      rw [h.parentless] at hc
      cases hc
    rw [h.parent, if_neg hcid, hc]

variable [DecidableEq H]

theorem Grafts.sound (h : Grafts t t' p id below above) (ht : t.Sound (some id))
    (hroot : ∀ l, id ≠ root l) (hbelow : ¬ t.Below id p) : t'.Sound none :=
  ⟨h.toSameNodes.slotted ht.toSlotted, h.linked ht.toLinked hroot hbelow⟩

theorem Grafts.sound_of_taken (h : Grafts t t' p id below above) (ht : t'.Sound none) :
    t.Sound (some id) :=
  ⟨h.toSameNodes.symm.slotted ht.toSlotted, h.linked_of_taken ht.toLinked⟩

end

/-! ## Windows come and go -/

section

variable [DecidableEq H] {t t' : Tree H} {w : H} {home : Layer} {p id : NodeId}
  {below above : List NodeId}

theorem Index.keys_erase (ix : Index H) (w : H) :
    (ix.erase w).entries.map Prod.fst = (ix.entries.map Prod.fst).filter (· ≠ w) := by
  simp [Index.erase, List.filter_map, Function.comp_def]

theorem Creates.live_iff (h : Creates t t' w home id) (x : NodeId) :
    t'.Live x ↔ x = id ∨ t.Live x := by
  rw [Live, Live, h.kind]
  by_cases hx : x = id <;> simp [hx]

theorem Creates.handle (h : Creates t t' w home id) (x : NodeId) :
    t'.handle x = if x = id then some w else t.handle x := by
  ext v
  rw [handle_eq_some_iff, h.kind]
  split
  · simp
  · rw [handle_eq_some_iff]

theorem Creates.slotted (h : Creates t t' w home id) (ht : t.Slotted)
    (hw : t.get w = none) : t'.Slotted where
  kind_root l := by
    have hne : root l ≠ id := fun he => h.fresh (he ▸ ht.live_root l)
    rw [h.kind, if_neg hne, ht.kind_root]
  eq_root x l hx := by
    rw [h.kind] at hx
    split at hx
    · cases hx
    · exact ht.eq_root x l hx
  get_iff v x := by
    rw [Tree.get, h.index, h.handle]
    by_cases hv : v = w
    · subst hv
      rw [Index.find?_insert_self]
      by_cases hx : x = id
      · simp [hx]
      · -- The window was not tracked, so no other slot holds it.
        have : t.handle x ≠ some v := by
          rw [Ne, ← ht.get_iff, hw]
          exact (Option.some_ne_none x).symm
        simp [hx, Ne.symm hx, this]
    · rw [Index.find?_insert_of_ne _ _ hv, ← Tree.get, ht.get_iff]
      by_cases hx : x = id
      · have : t.handle id ≠ some v := fun hh => h.fresh (live_of_handle hh)
        simp [hx, Ne.symm hv, this]
      · simp [hx]
  keys_nodup := by
    rw [h.index, Index.insert, List.map_cons, Index.keys_erase, List.nodup_cons]
    exact ⟨by simp, ht.keys_nodup.filter _⟩
  free_nodup := by
    rcases h.slots with ⟨hf, -⟩ | ⟨-, hf, -⟩
    · have := ht.free_nodup
      rw [hf] at this
      exact (List.nodup_cons.mp this).2
    · simp [hf]
  mem_free x := by
    have hx := ht.mem_free x
    have hlt : t.Live x → x < t.nodes.size := Live.lt_size
    have hfresh := h.fresh
    rw [h.live_iff]
    -- Either the free list loses its head, or a slot is added that it never holds.
    rcases h.slots with ⟨hf, hsize⟩ | ⟨hf, hf', hid, hsize⟩
    · have hnodup := ht.free_nodup
      rw [hf] at hnodup hx
      have hid : id ∉ t'.free := (List.nodup_cons.mp hnodup).1
      rw [hsize]
      by_cases hxid : x = id
      · simp [hxid, hid]
      · simpa [hxid] using hx
    · rw [hf] at hx
      rw [hf', hsize]
      by_cases hxid : x = id
      · simp [hxid]
      · have hne : x ≠ t.nodes.size := hid ▸ hxid
        have hlt' : x < t.nodes.size + 1 ↔ x < t.nodes.size :=
          Nat.lt_succ_iff_lt_or_eq.trans (or_iff_left hne)
        simpa [hxid, hlt'] using hx

theorem Creates.linked (h : Creates t t' w home id) (ht : t.Linked none) :
    t'.Linked (some id) where
  parent_iff c q := by rw [h.parent, h.children, ht.parent_iff]
  children_nodup q := by rw [h.children]; exact ht.children_nodup q
  parent_root l := by rw [h.parent, ht.parent_root]
  parent_loose x hx := by
    rw [← Option.some.inj hx, h.parent, parent_of_not_live h.fresh]
  orphan x hx hpar := by
    rw [h.parent] at hpar
    rcases (h.live_iff x).mp hx with rfl | hlive
    · exact .inr rfl
    · rcases ht.orphan x hlive hpar with hl | hl
      · exact .inl hl
      · cases hl
  acyclic := by
    obtain ⟨rank, hrank⟩ := ht.acyclic
    exact ⟨rank, fun c q hc => hrank c q (by rw [← h.parent, hc])⟩

theorem Creates.sound (h : Creates t t' w home id) (ht : t.Sound none) (hw : t.get w = none) :
    t'.Sound (some id) :=
  ⟨h.slotted ht.toSlotted hw, h.linked ht.toLinked⟩

theorem Destroys.live_iff (h : Destroys t t' w p id below above) (x : NodeId) :
    t'.Live x ↔ x ≠ id ∧ t.Live x := by
  rw [Live, Live, h.kind]
  by_cases hx : x = id <;> simp [hx]

theorem Destroys.handle (h : Destroys t t' w p id below above) (x : NodeId) :
    t'.handle x = if x = id then none else t.handle x := by
  ext v
  rw [handle_eq_some_iff, h.kind]
  split
  · simp
  · rw [handle_eq_some_iff]

/-- The children of a node after a window is gone: its children are listed in its place. -/
theorem Destroys.mem_children (h : Destroys t t' w p id below above) (ht : t.Linked none)
    (hpar : t.parent id = some p) {c q : NodeId} :
    c ∈ t'.children q ↔
      c ≠ id ∧ q ≠ id ∧ ((c ∈ t.children id ∧ q = p) ∨ (c ∈ t.children q ∧ c ∉ t.children id)) := by
  -- The node is no child of its own, no other node lists its children, and only `p` lists it.
  have hid : id ∉ t.children id := by
    rw [← ht.parent_iff, hpar]
    exact fun he => ht.parent_ne hpar (Option.some.inj he)
  have honly : ∀ r, c ∈ t.children r → c ∈ t.children id → r = id := by
    intro r hr hc
    rw [← ht.parent_iff] at hr hc
    exact Option.some.inj (hr.symm.trans hc)
  have hnotid : ∀ r, r ≠ p → id ∉ t.children r := by
    intro r hr hmem
    rw [← ht.parent_iff, hpar] at hmem
    exact hr (Option.some.inj hmem).symm
  rw [h.children]
  by_cases hq : q = id
  · simp [hq]
  · rw [if_neg hq]
    by_cases hqp : q = p
    · subst hqp
      have hmid := (ht.nodup_split h.split).1
      have hcq := honly q
      rw [h.split] at hcq
      rw [if_pos rfl, h.split]
      by_cases hc : c = id
      · subst hc
        simp only [List.mem_append] at hmid ⊢
        tauto
      · simp only [List.mem_append, List.mem_cons] at hcq ⊢
        tauto
    · rw [if_neg hqp]
      by_cases hc : c = id
      · subst hc
        simp [hnotid q hqp]
      · have := honly q
        tauto

theorem Destroys.slotted (h : Destroys t t' w p id below above) (ht : t.Slotted)
    (hid : t.handle id = some w) : t'.Slotted where
  kind_root l := by rw [h.kind, if_neg (ht.ne_root hid l).symm, ht.kind_root]
  eq_root x l hx := by
    rw [h.kind] at hx
    split at hx
    · cases hx
    · exact ht.eq_root x l hx
  get_iff v x := by
    rw [Tree.get, h.index, h.handle]
    by_cases hv : v = w
    · subst hv
      rw [Index.find?_erase_self]
      by_cases hx : x = id
      · simp [hx]
      · -- The window was in the slot that is empty now, and in no other.
        have : t.handle x ≠ some v := fun hh => hx (ht.handle_inj hh hid)
        simp [hx, this]
    · rw [Index.find?_erase_of_ne _ hv, ← Tree.get, ht.get_iff]
      by_cases hx : x = id
      · simp [hx, hid, Ne.symm hv]
      · simp [hx]
  keys_nodup := by
    rw [h.index, Index.keys_erase]
    exact ht.keys_nodup.filter _
  free_nodup := by
    rw [h.free, List.nodup_cons, ht.mem_free]
    exact ⟨fun hf => hf.2 (live_of_handle hid), ht.free_nodup⟩
  mem_free x := by
    rw [h.free, h.size, h.live_iff, List.mem_cons, ht.mem_free]
    by_cases hx : x = id
    · simp [hx, (live_of_handle hid).lt_size]
    · simp [hx]

/-- Parents and children agree once a window is gone: its children move up to `p`, and
every other node keeps its parent. -/
theorem Destroys.parent_iff (h : Destroys t t' w p id below above) (ht : t.Linked none)
    (hpar : t.parent id = some p) (c q : NodeId) :
    t'.parent c = some q ↔ c ∈ t'.children q := by
  rw [h.mem_children ht hpar, h.parent, ← ht.parent_iff c q]
  have hp : p ≠ id := ht.parent_ne hpar
  by_cases hc : c = id
  · simp [hc]
  · rw [if_neg hc]
    by_cases hmem : c ∈ t.children id
    · have hpc := (ht.parent_iff c id).mpr hmem
      rw [if_pos hmem]
      simp only [hmem]
      constructor
      · intro he
        obtain rfl := Option.some.inj he
        tauto
      · rintro ⟨-, -, ⟨-, rfl⟩ | ⟨-, hf⟩⟩
        · rfl
        · exact absurd trivial hf
    · rw [if_neg hmem]
      have hq : t.parent c = some q → q ≠ id := by
        rintro hcq rfl
        exact hmem ((ht.parent_iff c q).mp hcq)
      tauto

/-- No child is listed twice once a window is gone. -/
theorem Destroys.nodup_children (h : Destroys t t' w p id below above) (ht : t.Linked none)
    (hpar : t.parent id = some p) (q : NodeId) : (t'.children q).Nodup := by
  rw [h.children]
  split
  · exact List.nodup_nil
  · split
    · -- A child of `p` is not a child of `id`, since it has one parent.
      have hdisj : ∀ c ∈ below ++ above, c ∉ t.children id := by
        intro c hc hcid
        have hcp : c ∈ t.children p := by
          rw [h.split]
          simp only [List.mem_append, List.mem_cons] at hc ⊢
          tauto
        rw [← ht.parent_iff] at hcp hcid
        exact ht.parent_ne hpar (Option.some.inj (hcp.symm.trans hcid))
      have hperm : (t.children id ++ (below ++ above)).Perm
          (below ++ t.children id ++ above) := by
        rw [← List.append_assoc]
        exact List.perm_append_comm.append_right above
      refine hperm.nodup ?_
      rw [List.nodup_append]
      refine ⟨ht.children_nodup id, (ht.nodup_split h.split).2, ?_⟩
      rintro c hc d hd rfl
      exact hdisj c hd hc
    · exact ht.children_nodup q

theorem Destroys.linked (h : Destroys t t' w p id below above) (ht : t.Linked none)
    (hpar : t.parent id = some p) : t'.Linked none where
  parent_iff := h.parent_iff ht hpar
  children_nodup := h.nodup_children ht hpar
  parent_root l := by
    -- A root is no child of the window, so it does not move up.
    have hmem : root l ∉ t.children id := by
      rw [← ht.parent_iff, ht.parent_root]
      exact (Option.some_ne_none id).symm
    rw [h.parent, if_neg hmem, ht.parent_root]
    exact ite_self none
  parent_loose _ hx := by cases hx
  orphan x hx hx' := by
    obtain ⟨hne, hlive⟩ := (h.live_iff x).mp hx
    rw [h.parent, if_neg hne] at hx'
    split at hx'
    · cases hx'
    · exact ht.orphan x hlive hx'
  acyclic := by
    obtain ⟨rank, hrank⟩ := ht.acyclic
    refine ⟨rank, fun c q hc => ?_⟩
    rw [h.parent] at hc
    split at hc
    · cases hc
    · split at hc
      · -- A child that moves up skips one step of the way to the root.
        next hmem =>
        obtain rfl := Option.some.inj hc
        exact Nat.lt_trans (hrank id p hpar) (hrank c id ((ht.parent_iff c id).mpr hmem))
      · exact hrank c q hc

theorem Destroys.sound (h : Destroys t t' w p id below above) (ht : t.Sound none)
    (hid : t.handle id = some w) (hpar : t.parent id = some p) : t'.Sound none :=
  ⟨h.slotted ht.toSlotted hid, h.linked ht.toLinked hpar⟩

end

/-! ## The forest without windows -/

theorem node_empty (x : NodeId) :
    (empty : Tree H).node x = (Layer.all[x]?).map fun l => Node.bare (.layer l) := by
  rw [node, empty, List.getElem?_toArray, List.getElem?_map]
  cases Layer.all[x]? <;> rfl

theorem eq_root_of_getElem? {x : NodeId} {l : Layer} (h : Layer.all[x]? = some l) :
    x = root l := by
  have hlt : x < Layer.all.length := (List.getElem?_eq_some_iff.mp h).1
  exact (List.getElem?_inj hlt Layer.nodup_all).mp (h.trans (Layer.all_getElem?_index l).symm)

theorem sound_empty [DecidableEq H] : (empty : Tree H).Sound none where
  kind_root l := by
    rw [kind, node_empty, root, Layer.all_getElem?_index]
    rfl
  eq_root x l hx := by
    rw [kind, node_empty, Option.map_map, Option.map_eq_some_iff] at hx
    obtain ⟨l', hl', hk⟩ := hx
    obtain rfl : l' = l := by simpa [Node.bare] using hk
    exact eq_root_of_getElem? hl'
  get_iff w x := by
    have hnone : (empty : Tree H).handle x = none := by
      rw [handle, node_empty]
      cases Layer.all[x]? <;> rfl
    -- The index is empty, and there is no window to find.
    rw [hnone]
    exact iff_of_false (fun h => by cases h) (fun h => by cases h)
  keys_nodup := List.nodup_nil
  free_nodup := List.nodup_nil
  mem_free x := by
    refine iff_of_false List.not_mem_nil ?_
    rintro ⟨hlt, hdead⟩
    refine hdead ?_
    have hlt' : x < Layer.all.length := hlt
    exact live_iff_node.mpr ⟨_, by rw [node_empty, List.getElem?_eq_getElem hlt']; rfl⟩
  parent_iff c p := by
    have hp : (empty : Tree H).parent c = none := by
      rw [parent, node_empty]
      cases Layer.all[c]? <;> rfl
    have hc : (empty : Tree H).children p = [] := by
      rw [children, node_empty]
      cases Layer.all[p]? <;> rfl
    simp [hp, hc]
  children_nodup p := by
    rw [children, node_empty]
    cases Layer.all[p]? <;> exact List.nodup_nil
  parent_root l := by
    rw [parent, node_empty, root, Layer.all_getElem?_index]
    rfl
  parent_loose _ hx := by cases hx
  orphan x hx _ := by
    obtain ⟨n, hn⟩ := live_iff_node.mp hx
    rw [node_empty, Option.map_eq_some_iff] at hn
    obtain ⟨l, hl, -⟩ := hn
    exact .inl ⟨l, eq_root_of_getElem? hl⟩
  acyclic := by
    refine ⟨fun _ => 0, fun c p hc => ?_⟩
    rw [parent, node_empty] at hc
    cases h : Layer.all[c]? <;> simp [h, Node.bare] at hc

end ZOrder.Tree
