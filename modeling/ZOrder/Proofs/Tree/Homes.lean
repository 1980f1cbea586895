/-
  ZOrder.Proofs.Tree.Homes

  The permanent bands of the windows of a forest. A window nested under another one
  shares its permanent band, and a window that stands on its own in a permanent band
  is at home there. Both say that the permanent band of a node suits its parent, so an
  edit keeps them if each link that it makes is between nodes that suit each other.

  From the root of a band downwards, this fixes the permanent band of every window that
  is drawn in a permanent band.
-/

import ZOrder.Proofs.Tree.Relocate

namespace ZOrder.Tree

variable {H : Type} {t t' : Tree H} {loose : Option NodeId}

/-- The permanent band `home` is right for a child of `p`: a window shares it, the root of
a permanent band stands for it, and the root of a temporary band does not care. -/
structure Suits (t : Tree H) (p : NodeId) (home : Layer) : Prop where
  owner : ∀ l, t.home p = some l → home = l
  band : ∀ l, p = root l → l.isTemporary = false → home = l

/-- The permanent bands of a forest are permanent, and suit the places of the windows. -/
structure Housed (t : Tree H) : Prop where
  permanent : ∀ x l, t.home x = some l → l.isTemporary = false
  suits : ∀ c p l, t.parent c = some p → t.home c = some l → t.Suits p l

theorem Suits.congr {p : NodeId} {l : Layer} (h : t.Suits p l) (hp : t'.home p = t.home p) :
    t'.Suits p l :=
  ⟨fun k hk => h.owner k (hp ▸ hk), h.band⟩

section

variable [DecidableEq H]

theorem Slotted.home_root (h : t.Slotted) (l : Layer) : t.home (root l) = none := by
  rw [Option.eq_none_iff_forall_ne_some]
  intro k hk
  obtain ⟨w, hw⟩ := exists_home_iff.mp ⟨k, hk⟩
  exact h.ne_root hw l rfl

/-- Among the bands, the permanent ones take only their own windows. -/
theorem Slotted.suits_root (h : t.Slotted) {l home : Layer}
    (hl : l.isTemporary = false → home = l) : t.Suits (root l) home where
  owner k hk := by
    rw [h.home_root] at hk
    cases hk
  band k hk hperm := by
    obtain rfl := root_injective hk
    exact hl hperm

/-- The permanent band of a window suits the windows nested directly under it. -/
theorem Slotted.suits_window (h : t.Slotted) {p : NodeId} {home : Layer}
    (hp : t.home p = some home) : t.Suits p home where
  owner k hk := Option.some.inj (hp.symm.trans hk)
  band k hk _ := by
    rw [hk, h.home_root] at hp
    cases hp

theorem Sound.exists_home (h : t.Sound loose) {x p : NodeId} (hp : t.parent x = some p) :
    ∃ l, t.home x = some l :=
  exists_home_iff.mpr (h.exists_handle hp)

/-- A family shares one permanent band. -/
theorem Housed.home_of_below (h : t.Housed) (ht : t.Sound loose) {a x : NodeId} {l : Layer}
    (ha : t.home a = some l) (hx : t.Below a x) : t.home x = some l := by
  induction hx using Relation.ReflTransGen.head_induction_on with
  | refl => exact ha
  | @head y p hp _ ih =>
    obtain ⟨k, hk⟩ := ht.exists_home hp
    rw [hk, (h.suits y p k hp hk).owner l ih]

/-- A window in a permanent band is at home there. -/
theorem Housed.home_of_layer (h : t.Housed) (ht : t.Sound loose) {x : NodeId} {l : Layer}
    (hl : l.isTemporary = false) (hx : t.Below (root l) x) (hne : x ≠ root l) :
    t.home x = some l := by
  -- Down from the root: first the windows on their own, then those nested under them.
  induction hx using Relation.ReflTransGen.head_induction_on with
  | refl => exact absurd rfl hne
  | @head y p hp hpx ih =>
    obtain ⟨k, hk⟩ := ht.exists_home hp
    by_cases hroot : p = root l
    · rw [hk, (h.suits y p k hp hk).band l hroot hl]
    · rw [hk, (h.suits y p k hp hk).owner l (ih hroot)]

end

/-! ## Edits -/

theorem housed_empty [DecidableEq H] : (empty : Tree H).Housed := by
  have hnone : ∀ x, (empty : Tree H).home x = none := by
    intro x
    rw [home, node_empty]
    cases Layer.all[x]? <;> rfl
  refine ⟨fun x l hx => ?_, fun c p l _ hc => ?_⟩
  · rw [hnone] at hx
    cases hx
  · rw [hnone] at hc
    cases hc

section

variable {p q id : NodeId} {slot : Nat}

/-- A family may move to any node that its permanent band suits. -/
theorem Relocates.housed (h : Relocates t t' p q id slot) (ht : t.Housed)
    (hsuits : ∀ l, t.home id = some l → t.Suits q l) : t'.Housed where
  permanent x l hx := ht.permanent x l (h.sameNodes.home x ▸ hx)
  suits c r l hr hc := by
    rw [h.parent] at hr
    rw [h.sameNodes.home] at hc
    split at hr
    · next hcid =>
      obtain rfl := Option.some.inj hr
      exact (hsuits l (hcid ▸ hc)).congr (h.sameNodes.home q)
    · exact (ht.suits c r l hr hc).congr (h.sameNodes.home r)

variable [DecidableEq H] {w : H} {own : Layer} {below above : List NodeId}

theorem Creates.home (h : Creates t t' w own id) (x : NodeId) :
    t'.home x = if x = id then some own else t.home x := by
  ext l
  rw [home_eq_some_iff, h.kind]
  split
  · simp
  · rw [home_eq_some_iff]

/-- A new window may have any permanent band that suits its parent. -/
theorem Creates.housed {t₀ : Tree H} (h : Creates t t₀ w own id)
    (hto : Grafts t₀ t' p id below above) (ht : t.Housed) (hsound : t.Sound none)
    (hp : t.Live p) (hpermanent : own.isTemporary = false) (hsuits : t.Suits p own) :
    t'.Housed := by
  have hhome : ∀ x, t'.home x = if x = id then some own else t.home x :=
    fun x => (hto.toSameNodes.home x).trans (h.home x)
  -- Parents are nodes of the old forest, so the new window is none of them.
  have hold : ∀ x, t.Live x → t'.home x = t.home x := by
    intro x hx
    have hne : x ≠ id := fun he => h.fresh (he ▸ hx)
    rw [hhome, if_neg hne]
  refine ⟨fun x l hx => ?_, fun c r l hr hc => ?_⟩
  · rw [hhome] at hx
    split at hx
    · exact Option.some.inj hx ▸ hpermanent
    · exact ht.permanent x l hx
  · rw [hto.parent, h.parent] at hr
    rw [hhome] at hc
    split at hr
    · next hcid =>
      obtain rfl := Option.some.inj hr
      rw [if_pos hcid] at hc
      exact Option.some.inj hc ▸ hsuits.congr (hold p hp)
    · next hcid =>
      rw [if_neg hcid] at hc
      exact (ht.suits c r l hr hc).congr (hold r (hsound.live_parent hr))

theorem Destroys.home (h : Destroys t t' w p id below above) (x : NodeId) :
    t'.home x = if x = id then none else t.home x := by
  ext l
  rw [home_eq_some_iff, h.kind]
  split
  · simp
  · rw [home_eq_some_iff]

/-- The children of a window that goes suit the parent that takes them over. -/
theorem Destroys.housed (h : Destroys t t' w p id below above) (ht : t.Housed)
    (hsound : t.Sound none) (hpar : t.parent id = some p) : t'.Housed := by
  refine ⟨fun x l hx => ?_, fun c r l hr hc => ?_⟩
  · rw [h.home] at hx
    split at hx
    · cases hx
    · exact ht.permanent x l hx
  · rw [h.parent] at hr
    rw [h.home] at hc
    split at hc
    · cases hc
    · next hcid =>
      rw [if_neg hcid] at hr
      have hrid : r ≠ id → t'.home r = t.home r := fun hne => by rw [h.home, if_neg hne]
      split at hr
      · next hmem =>
        -- The window had the permanent band of its child, which suited its own parent.
        obtain rfl := Option.some.inj hr
        obtain ⟨k, hk⟩ := hsound.exists_home hpar
        obtain rfl := (ht.suits c id l ((hsound.parent_iff c id).mpr hmem) hc).owner k hk
        exact (ht.suits id p l hpar hk).congr (hrid (hsound.parent_ne hpar))
      · next hmem =>
        refine (ht.suits c r l hr hc).congr (hrid ?_)
        rintro rfl
        exact hmem ((hsound.parent_iff c r).mp hr)

/-! ## Other permanent bands -/

omit [DecidableEq H] in
theorem home_setHome (t : Tree H) (id : NodeId) (l : Layer) (x : NodeId) :
    (t.setHome id l).home x = if x = id then (t.home x).map (fun _ => l) else t.home x := by
  rw [Tree.home, Tree.home, setHome, node_update]
  split
  · next hx =>
    subst hx
    cases t.node x with
    | none => rfl
    | some n =>
      obtain ⟨k, p, cs⟩ := n
      cases k <;> rfl
  · rfl

omit [DecidableEq H] in
theorem home_foldl_setHome (ids : List NodeId) (l : Layer) (t : Tree H) (x : NodeId) :
    (ids.foldl (fun tree member => tree.setHome member l) t).home x =
      if x ∈ ids then (t.home x).map (fun _ => l) else t.home x := by
  induction ids generalizing t with
  | nil => rfl
  | cons y ys ih =>
    rw [List.foldl_cons, ih, home_setHome]
    by_cases hxy : x = y
    · subst hxy
      cases t.home x <;> simp
    · simp [hxy]

/-- A family settles: its windows get another permanent band, and no others do. -/
theorem Sound.home_settle (h : t.Sound none) {family : NodeId} (hw : t.handle family = some w)
    (l : Layer) (x : NodeId) :
    (t.Below family x → (Engine.settle t family l).home x = some l) ∧
      (¬ t.Below family x → (Engine.settle t family l).home x = t.home x) := by
  have hfold := home_foldl_setHome (t.descendants family) l t x
  have hmem : x ∈ t.descendants family ↔ t.Below family x := by
    rw [h.mem_descendants]
    exact and_iff_right (live_of_handle hw)
  constructor
  · intro hx
    -- Below a window there are only windows.
    obtain ⟨k, hk⟩ : ∃ k, t.home x = some k := by
      rcases hx.cases_parent with rfl | ⟨r, hr, -⟩
      · exact exists_home_iff.mpr ⟨w, hw⟩
      · exact h.exists_home hr
    rw [if_pos (hmem.mpr hx), hk] at hfold
    exact hfold
  · intro hx
    rwa [if_neg (hmem.not.mpr hx)] at hfold

/-- A family that has moved to a band settles if the band is a permanent one; all other windows
keep their permanent bands. -/
theorem Sound.home_sent (h : t.Sound none) {family : NodeId} (hw : t.handle family = some w)
    (l : Layer) (x : NodeId) :
    (t.Below family x → (if l.isTemporary then t else Engine.settle t family l).home x =
      if l.isTemporary then t.home x else some l) ∧
      (¬ t.Below family x →
        (if l.isTemporary then t else Engine.settle t family l).home x = t.home x) := by
  by_cases hl : l.isTemporary = true
  · simp only [if_pos hl, implies_true, and_self]
  · simp only [if_neg hl]
    exact h.home_settle hw l x

/-- A family that moves to a band and settles there is at home. -/
theorem Relocates.housed_settle {l : Layer} (h : Relocates t t' p (root l) id slot)
    (ht : t.Housed) (ht' : t'.Sound none) (hl : l.isTemporary = false) :
    (Engine.settle t' id l).Housed := by
  obtain ⟨w, hw⟩ := ht'.exists_handle h.parent_eq.2
  have hshape := sameShape_settle t' id l
  have hsettled := hshape.sound ht'
  have hhome := ht'.home_settle hw l
  refine ⟨fun x k hx => ?_, fun c r k hr hc => ?_⟩
  · by_cases hb : t'.Below id x
    · rw [(hhome x).1 hb] at hx
      exact Option.some.inj hx ▸ hl
    · rw [(hhome x).2 hb, h.sameNodes.home] at hx
      exact ht.permanent x k hx
  · rw [hshape.parent] at hr
    by_cases hb : t'.Below id c
    · -- In the family: the head stands in its band, the others below a member.
      rw [(hhome c).1 hb] at hc
      obtain rfl := Option.some.inj hc
      rcases hb.cases_parent with rfl | ⟨r', hr', hbr⟩
      · obtain rfl := Option.some.inj (h.parent_eq.2.symm.trans hr)
        exact hsettled.suits_root fun _ => rfl
      · obtain rfl := Option.some.inj (hr.symm.trans hr')
        exact hsettled.suits_window ((hhome r).1 hbr)
    · -- Outside, no link and no permanent band has changed.
      have hbr : ¬ t'.Below id r := fun hbr => hb (.of_parent hr hbr)
      have hcid : c ≠ id := fun he => hb (he ▸ Below.refl t' c)
      rw [(hhome c).2 hb, h.sameNodes.home] at hc
      rw [h.parent, if_neg hcid] at hr
      exact (ht.suits c r k hr hc).congr (((hhome r).2 hbr).trans (h.sameNodes.home r))

end

end ZOrder.Tree
