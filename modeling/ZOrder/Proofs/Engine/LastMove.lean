/-
  ZOrder.Proofs.Engine.LastMove

  Windows that are moved more than once. Where a window goes is counted among its new
  siblings without itself, so it does not matter where it comes from: a move to a band, or
  to the top or the bottom of the siblings, leaves what it would have left without the moves
  before it. Only a permanent band that the family has settled in on the way stays in its
  windows, unless the last band is a permanent one as well.
-/

import ZOrder.Proofs.Engine.Bands
import ZOrder.Proofs.Tree.Elsewhere

namespace ZOrder.Engine

open ZOrder.Tree (Relocates SameShape SameElsewhere root)

variable {H : Type} [DecidableEq H] {e e' : Engine H} {w : H} {id p family : NodeId}
  {k l l₁ l₂ : Layer} {pos p₁ p₂ : Position}

/-! ## Engines that hang their windows alike -/

/-- The windows are in the same bands, attached to the same windows and in the same order;
their permanent bands may be others. -/
structure HangsAlike (e e' : Engine H) : Prop where
  layerOf : ∀ v, e'.layerOf v = e.layerOf v
  attached : ∀ r, e'.attached r = e.attached r
  owns : ∀ o v, e'.Owns o v ↔ e.Owns o v
  zOrder : e'.zOrder = e.zOrder

theorem hangsAlike_of_sameShape (h : e.tree.Sound none) (hshape : SameShape e.tree e'.tree) :
    HangsAlike e e' := by
  have hget : ∀ v, e'.tree.get v = e.tree.get v := fun v => by rw [Tree.get, Tree.get, hshape.index]
  have hhandles : ∀ ids, e'.tree.handles ids = e.tree.handles ids := Tree.handles_congr hshape.handle
  refine ⟨fun v => ?_, fun r => ?_, fun o v => ?_, ?_⟩
  · rw [layerOf, layerOf, hget]
    cases e.tree.get v with
    | none => rfl
    | some x =>
      ext l
      rw [Option.bind_some, Option.bind_some, (hshape.sound h).layerOf_eq_some_iff,
        h.layerOf_eq_some_iff, hshape.below_iff]
  · have hnode := holderNode_congr hget r
    cases hr : e.holderNode r with
    | none => simp only [attached, hnode, hr]
    | some x =>
      rw [attached_of_node hr, attached_of_node (hnode.trans hr), hhandles, hshape.children]
  · simp only [Owns, hget, hshape.parent]
  · rw [zOrder, zOrder, hshape.order_eq h.toLinked, hhandles]

/-! ## From band to band -/

/-- The family has come to band `l`, with its members at home there if the band is a permanent
one. All other windows hang where they hung. -/
structure Lands (t t' : Tree H) (family : NodeId) (l : Layer) : Prop where
  sound : t'.Sound none
  elsewhere : SameElsewhere t t' family
  parent : t'.parent family = some (root l)
  below : ∀ x, t'.Below family x ↔ t.Below family x
  member : ∀ x, t.Below family x → t'.home x = if l.isTemporary then t.home x else some l
  outsider : ∀ x, ¬ t.Below family x → t'.home x = t.home x

theorem lands_of_relocates {t t' : Tree H} {slot : Nat} (h : t.Sound none)
    (hmove : Relocates t t' p (root l) family slot) (ht' : t'.Sound none) :
    Lands t (if l.isTemporary then t' else settle t' family l) family l := by
  have hshape := Tree.sameShape_sent t' family l
  obtain ⟨w, hw⟩ := ht'.exists_handle hmove.parent_eq.2
  have hbelow : ∀ x, t'.Below family x ↔ t.Below family x := fun x => hmove.below_iff h ht'
  have hhome := ht'.home_sent hw l
  simp only [hbelow, hmove.sameNodes.home] at hhome
  exact ⟨hshape.sound ht', (hmove.sameElsewhere h).trans (hshape.sameElsewhere family),
    (hshape.parent family).trans hmove.parent_eq.2, fun x => hshape.below_iff.trans (hbelow x),
    fun x => (hhome x).1, fun x => (hhome x).2⟩

/-- A tracked window goes to a band with its family, wherever the family is. -/
theorem moveToLayer_eq (h : e.tree.Sound none) (hget : e.tree.get w = some id)
    (hbelow : e.tree.Below family id) (hpar : e.tree.parent family = some (root k)) (l : Layer)
    (pos : Position) :
    ∃ t' e', e.moveToLayer w l pos = (true, e') ∧
      Relocates e.tree t' (root k) (root l) family
        (pos.slot ((e.tree.children (root l)).erase family).length) ∧
      SameShape t' e'.tree ∧ Lands e.tree e'.tree family l := by
  obtain ⟨t', hmove, ht', heq⟩ := moveFamily_eq h hpar l pos
  have htop := h.topLevel_eq_some_iff.mpr ⟨hbelow, k, hpar⟩
  have hto : e.moveToLayer w l pos = e.moveFamily family l pos := by
    simp only [moveToLayer, hget, Option.bind_some, htop]
  exact ⟨t', _, hto.trans heq, hmove, Tree.sameShape_sent t' family l,
    lands_of_relocates h hmove ht'⟩

/-- Where the last band is a permanent one, or the first a temporary one, no window keeps a
permanent band from the first. -/
theorem Lands.home_eq {t t₁ t₂ t' : Tree H} (h₁ : Lands t t₁ family l₁)
    (h₂ : Lands t₁ t₂ family l₂) (h' : Lands t t' family l₂)
    (hlast : l₂.isTemporary = false ∨ l₁.isTemporary = true) (x : NodeId) :
    t₂.home x = t'.home x := by
  by_cases hx : t.Below family x
  · rw [h₂.member x ((h₁.below x).mpr hx), h₁.member x hx, h'.member x hx]
    rcases hlast with hlast | hlast <;> simp only [hlast, if_true, Bool.false_eq_true, if_false]
  · rw [h₂.outsider x (mt (h₁.below x).mp hx), h₁.outsider x hx, h'.outsider x hx]

/-- A window that is sent to one band and then to another one is where the second move alone
would have sent it. -/
theorem moveToLayer_moveToLayer (h : e.tree.Sound none) (hw : e.isStacked w = true)
    (l₁ l₂ : Layer) (p₁ p₂ : Position) :
    ∃ e₁ e₂ e', e.moveToLayer w l₁ p₁ = (true, e₁) ∧ e₁.moveToLayer w l₂ p₂ = (true, e₂) ∧
      e.moveToLayer w l₂ p₂ = (true, e') ∧ HangsAlike e' e₂ ∧
      (l₂.isTemporary = false ∨ l₁.isTemporary = true → e₂.tree = e'.tree) ∧
      e₁.layerOf w = some l₁ ∧ (l₁.isTemporary = true → e₁.homeOf w = e.homeOf w) := by
  obtain ⟨id, hget⟩ := isStacked_iff_get.mp hw
  obtain ⟨family, k, -, hbelow, hpar⟩ := exists_family h hget
  obtain ⟨t₁, e₁, heq₁, hmove₁, -, hlands₁⟩ := moveToLayer_eq h hget hbelow hpar l₁ p₁
  -- The family is the same one afterwards, and stands in the first band.
  have hget₁ : e₁.tree.get w = some id := (hlands₁.elsewhere.get w).trans hget
  have hbelow₁ := (hlands₁.below id).mpr hbelow
  obtain ⟨t₂, e₂, heq₂, hmove₂, hshape₂, hlands₂⟩ :=
    moveToLayer_eq hlands₁.sound hget₁ hbelow₁ hlands₁.parent l₂ p₂
  obtain ⟨t', e', heq', hmove', hshape', hlands'⟩ := moveToLayer_eq h hget hbelow hpar l₂ p₂
  -- Without the family, the band has the same windows both times.
  rw [hlands₁.elsewhere.children] at hmove₂
  have hshape : SameShape e'.tree e₂.tree :=
    (hshape'.symm.trans (hmove'.sameShape hmove₂ h hlands₁.sound hlands₁.elsewhere)).trans hshape₂
  refine ⟨e₁, e₂, e', heq₁, heq₂, heq', hangsAlike_of_sameShape hlands'.sound hshape,
    fun hlast => hshape.eq_of_home (hlands₁.home_eq hlands₂ hlands' hlast), ?_, fun hl₁ => ?_⟩
  · exact layerOf_of_below hlands₁.sound hget₁ (.trans (.of_parent hlands₁.parent (.refl _ _)) hbelow₁)
  · rw [homeOf_of_get hget₁, homeOf_of_get hget, hlands₁.member id hbelow, if_pos hl₁]

/-- A window that enters the fullscreen band and leaves it again is where it would be if it had
been sent to the top of its permanent band. -/
theorem setFullscreen_setFullscreen (h : e.tree.Sound none) (he : e.Housed)
    (hw : e.isStacked w = true) :
    ∃ home e₁ e₂ e', e.homeOf w = some home ∧ e.setFullscreen w true = (true, e₁) ∧
      e₁.setFullscreen w false = (true, e₂) ∧ e.moveToLayer w home .top = (true, e') ∧
      e₂.tree = e'.tree := by
  obtain ⟨home, hhome, -⟩ := he.exists_homeOf h hw
  obtain ⟨e₁, e₂, e', heq₁, heq₂, heq', -, htree, hlayer, hkept⟩ :=
    moveToLayer_moveToLayer h hw .fullscreen home .top .top
  refine ⟨home, e₁, e₂, e', hhome, heq₁, ?_, heq', htree (.inr rfl)⟩
  -- It is in the fullscreen band now, with the permanent band that it had before.
  have hhome₁ : e₁.homeOf w = some home := (hkept rfl).trans hhome
  rw [setFullscreen, if_neg Bool.false_ne_true, if_neg (not_not.mpr hlayer)]
  simp only [hhome₁, heq₂]

/-! ## Among siblings -/

/-- The node `id` hangs from `p` as before, and nothing but its place among its siblings is
another one. -/
structure Slid (e e' : Engine H) (p id : NodeId) : Prop where
  sound : e'.tree.Sound none
  elsewhere : SameElsewhere e.tree e'.tree id
  parent : e'.tree.parent id = some p
  home : ∀ x, e'.tree.home x = e.tree.home x

theorem Slid.trans {e'' : Engine H} (h : Slid e e' p id) (h' : Slid e' e'' p id) : Slid e e'' p id :=
  ⟨h'.sound, h.elsewhere.trans h'.elsewhere, h'.parent, fun x => (h'.home x).trans (h.home x)⟩

theorem slid_of_relocates {t' : Tree H} {slot : Nat} (h : e.tree.Sound none)
    (hmove : Relocates e.tree t' p p id slot) (ht' : t'.Sound none) (ids : List NodeId) :
    Slid e ({ e with tree := t' }.sync ids) p id :=
  ⟨ht', hmove.sameElsewhere h, hmove.parent_eq.2, hmove.sameNodes.home⟩

/-- Whatever the answers are, a window that is moved among its siblings stays with its parent. -/
theorem Slides.slid {op : Op H} (hop : Slides w op) (h : e.tree.Sound none)
    (hget : e.tree.get w = some id) (hpar : e.tree.parent id = some p) (q : Query H) :
    Slid e (e.perform q op).2 p id := by
  have heffect := perform_effect h q op
  generalize e.perform q op = result at heffect ⊢
  cases heffect with
  | refused untaken => exact ⟨h, .refl e.tree id, hpar, fun _ => rfl⟩
  | @moved v p' id' slot t' slides takes get relocates sound =>
    obtain rfl : w = v := by cases hop <;> cases slides <;> rfl
    obtain rfl := Option.some.inj (hget.symm.trans get)
    obtain rfl := Option.some.inj (hpar.symm.trans relocates.parent_eq.1)
    exact slid_of_relocates h relocates sound _
  | added adds => cases hop <;> cases adds
  | removed removes => cases hop <;> cases removes
  | sent sends => cases hop <;> cases sends
  | demoted focuses => cases hop <;> cases focuses

/-- The same for a run of such moves. -/
theorem slid_performAll {steps : List (Query H × Op H)} (h : e.tree.Sound none)
    (hget : e.tree.get w = some id) (hpar : e.tree.parent id = some p)
    (hsteps : ∀ step ∈ steps, Slides w step.2) : Slid e (e.performAll steps) p id := by
  induction steps generalizing e with
  | nil => exact ⟨h, .refl e.tree id, hpar, fun _ => rfl⟩
  | cons step steps ih =>
    have hfirst := (hsteps step List.mem_cons_self).slid h hget hpar step.1
    exact hfirst.trans (ih hfirst.sound ((hfirst.elsewhere.get w).trans hget) hfirst.parent
      fun s hs => hsteps s (List.mem_cons_of_mem step hs))

/-- At a place among its siblings, a window leaves the same forest wherever it was among them. -/
theorem moveTo_of_slid (h : e.tree.Sound none) (hget : e.tree.get w = some id)
    (hpar : e.tree.parent id = some p) (hslid : Slid e e' p id) (pos : Position) :
    ∃ e₁ e₂, e'.moveTo w pos = (true, e₁) ∧ e.moveTo w pos = (true, e₂) ∧ e₁.tree = e₂.tree := by
  obtain ⟨t₁, hmove₁, ht₁, heq₁⟩ :=
    moveTo_eq hslid.sound ((hslid.elsewhere.get w).trans hget) hslid.parent pos
  obtain ⟨t₂, hmove₂, ht₂, heq₂⟩ := moveTo_eq h hget hpar pos
  rw [hslid.elsewhere.children] at hmove₁
  refine ⟨_, _, heq₁, heq₂, ?_⟩
  refine (hmove₂.sameShape hmove₁ h hslid.sound hslid.elsewhere).eq_of_home fun x => ?_
  rw [hmove₁.sameNodes.home, hslid.home, hmove₂.sameNodes.home]

/-! ## The last move -/

/-- The last move of a tracked window wins. Sent to a band after another one, its family hangs
as if it had been sent to the last one only, and is at home where it would be if the last band
is a permanent one or the first a temporary one. So a window that enters the fullscreen band
and leaves it goes to the top of its permanent band. And a window that is moved to the top or
the bottom of its siblings leaves no trace of where it was among them before. -/
theorem last_move_wins (h : Reachable e) (hw : e.isStacked w = true) :
    (∀ q₁ q₂ l₁ p₁ l₂ p₂, ∃ e₁ e₂ e', e.perform q₁ (.toLayer w l₁ p₁) = (true, e₁) ∧
      e₁.perform q₂ (.toLayer w l₂ p₂) = (true, e₂) ∧
      e.perform q₂ (.toLayer w l₂ p₂) = (true, e') ∧ HangsAlike e' e₂ ∧
      (l₂.isTemporary = false ∨ l₁.isTemporary = true → e₂.tree = e'.tree)) ∧
    (∀ q₁ q₂ q', ∃ home e₁ e₂ e', e.homeOf w = some home ∧
      e.perform q₁ (.fullscreen w true) = (true, e₁) ∧
      e₁.perform q₂ (.fullscreen w false) = (true, e₂) ∧
      e.perform q' (.toLayer w home .top) = (true, e') ∧ e₂.tree = e'.tree) ∧
    ∀ (steps : List (Query H × Op H)), (∀ step ∈ steps, Slides w step.2) →
      ∀ q op, op = .toTop w ∨ op = .toBottom w →
        ∃ e₁ e', (e.performAll steps).perform q op = (true, e₁) ∧
          e.perform q op = (true, e') ∧ e₁.tree = e'.tree := by
  have hs := h.sound
  refine ⟨fun q₁ q₂ l₁ p₁ l₂ p₂ => ?_, fun q₁ q₂ q' => ?_, fun steps hsteps q op hop => ?_⟩
  · obtain ⟨e₁, e₂, e', heq₁, heq₂, heq', halike, htree, -⟩ :=
      moveToLayer_moveToLayer hs hw l₁ l₂ p₁ p₂
    exact ⟨e₁, e₂, e', heq₁, heq₂, heq', halike, htree⟩
  · exact setFullscreen_setFullscreen hs h.housed hw
  · obtain ⟨id, hget⟩ := isStacked_iff_get.mp hw
    obtain ⟨p, hpar⟩ := hs.exists_parent ((hs.get_iff w id).mp hget)
    have hslid := slid_performAll hs hget hpar hsteps
    rcases hop with rfl | rfl
    · exact moveTo_of_slid hs hget hpar hslid .top
    · exact moveTo_of_slid hs hget hpar hslid .bottom

/-- The windows 2 and 3 are dialogs of 1. Sent to two bands by way of its dialog, the family ends in
the second one; fullscreen for a while, it goes back to the top of its own band. And 2 is
below 3 at the end, although it was moved above it. -/
theorem last_move_wins_of_dialog :
    ∃ e : Engine Nat, e.Reachable ∧ e.isStacked 2 = true ∧ e.attached (.window 1) = [2, 3] ∧
      e.attached (.band .layout) = [1, 4] ∧
      (∃ e₁ e₂ e', e.perform .blank (.toLayer 2 .top .top) = (true, e₁) ∧
        e₁.perform .blank (.toLayer 2 .layout (.index 1)) = (true, e₂) ∧
        e.perform .blank (.toLayer 2 .layout (.index 1)) = (true, e') ∧ HangsAlike e' e₂ ∧
        e₂.tree = e'.tree ∧ e'.attached (.band .layout) = [4, 1]) ∧
      (∃ home e₁ e₂ e', e.homeOf 2 = some home ∧
        e.perform .blank (.fullscreen 2 true) = (true, e₁) ∧
        e₁.perform .blank (.fullscreen 2 false) = (true, e₂) ∧
        e.perform .blank (.toLayer 2 home .top) = (true, e') ∧ e₂.tree = e'.tree) ∧
      ∃ e₁ e', (e.performAll [(.blank, .up 2), (.blank, .toTop 2)]).perform .blank (.toBottom 2) =
          (true, e₁) ∧
        e.perform .blank (.toBottom 2) = (true, e') ∧ e₁.tree = e'.tree := by
  let dialogOf (o : Nat) : Query Nat := { Query.blank with owner := fun _ => some o }
  have hreach : Reachable ((ofSettings {}).performAll [(.blank, .add 1), (dialogOf 1, .add 2),
      (dialogOf 1, .add 3), (.blank, .add 4)]) := .performAll (.start {}) _
  obtain ⟨hbands, hfull, hslide⟩ := last_move_wins hreach (w := 2) (by decide)
  obtain ⟨e₁, e₂, e', heq₁, heq₂, heq', halike, htree⟩ :=
    hbands .blank .blank .top .top .layout (.index 1)
  have hlist : (true, e').2.attached (.band .layout) = [4, 1] := by
    rw [← heq']
    decide
  exact ⟨_, hreach, by decide, by decide, by decide,
    ⟨e₁, e₂, e', heq₁, heq₂, heq', halike, htree (.inl rfl), hlist⟩, hfull .blank .blank .blank,
    hslide _ (List.forall_mem_cons.mpr ⟨.up, List.forall_mem_singleton.mpr .toTop⟩) .blank
      (.toBottom 2) (.inr rfl)⟩

end ZOrder.Engine
