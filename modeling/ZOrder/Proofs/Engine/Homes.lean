/-
  ZOrder.Proofs.Engine.Homes

  The permanent bands of windows through a run. What a window is nested under, where it
  is drawn and where it goes back to are tied together by `Housed`, which every operation
  keeps; and of all operations only one that sends a family to a permanent band gives
  its windows another one.

  A window that leaves the fullscreen band sends its family to its own permanent band.
  That this is no change for the rest of the family is what `Housed` is needed for.
-/

import ZOrder.Proofs.Engine.Shape
import ZOrder.Proofs.Tree.Homes

namespace ZOrder.Engine

open ZOrder.Tree (Relocates Creates Grafts Destroys root)

variable {H : Type} [DecidableEq H] {e e' : Engine H} {q : Query H} {op : Op H}
  {result : Bool × Engine H}

/-- The windows `v` and `w` are of one family: one window is, or nests, each of them. -/
def Kin (e : Engine H) (v w : H) : Prop :=
  ∃ o, e.isStacked o = true ∧ (v = o ∨ e.Nests o v) ∧ (w = o ∨ e.Nests o w)

/-- Permanent bands suit the places of the windows, and new windows get permanent ones. -/
structure Housed (e : Engine H) : Prop where
  tree : e.tree.Housed
  defaultLayer : e.defaultLayer.isTemporary = false

/-! ## What every operation keeps -/

/-- A new window gets a permanent band that suits the node it is attached to. -/
theorem placeFor_suits (he : e.Housed) (hs : e.tree.Sound none) {w : H} {l home : Layer}
    {pos pos' : Position} {p : NodeId} (hplace : e.placeFor q w l pos = (p, home, pos')) :
    e.tree.Live p ∧ home.isTemporary = false ∧ e.tree.Suits p home := by
  rw [placeFor] at hplace
  split at hplace
  · next owner howner =>
    obtain ⟨v, -, hv⟩ := Option.bind_eq_some_iff.mp howner
    have hvx := (hs.get_iff v owner).mp hv
    obtain ⟨k, hk⟩ := Tree.exists_home_iff.mpr ⟨v, hvx⟩
    rw [hk, Option.getD_some] at hplace
    cases hplace
    exact ⟨Tree.live_of_handle hvx, he.tree.permanent p home hk, hs.suits_window hk⟩
  · cases hplace
    refine ⟨hs.live_root l, ?_, hs.suits_root fun hl => by simp [hl]⟩
    split
    · exact he.defaultLayer
    · next hl => simpa using hl

theorem Demotes.housed {families : List NodeId} (h : Demotes e families e') (he : e.Housed)
    (hs : e.tree.Sound none) : e'.Housed := by
  induction h with
  | nil e => exact he
  | cons temporary home_eq relocates sound _ ih =>
    refine ih ⟨relocates.housed he.tree fun l hl => ?_, he.defaultLayer⟩ sound
    -- A family goes back to the permanent band of its head.
    exact hs.suits_root fun _ => Option.some.inj (hl.symm.trans home_eq)

theorem Effect.housed (h : Effect e q op result) (he : e.Housed) (hs : e.tree.Sound none) :
    result.2.Housed := by
  cases h with
  | refused untaken => exact he
  | added adds untracked place creates loose grafts sound =>
    obtain ⟨hlive, hpermanent, hsuits⟩ := placeFor_suits he hs place
    exact ⟨creates.housed grafts he.tree hs hlive hpermanent hsuits, he.defaultLayer⟩
  | removed removes get parent destroys sound =>
    exact ⟨destroys.housed he.tree hs parent, he.defaultLayer⟩
  | moved slides takes get relocates sound =>
    exact ⟨relocates.housed he.tree (he.tree.suits _ _ · relocates.parent_eq.1),
      he.defaultLayer⟩
  | @sent w origin l pos id family t' sends get below relocates sound =>
    refine ⟨?_, he.defaultLayer⟩
    show (if l.isTemporary then t' else settle t' family l).Housed
    split
    · next hl => exact relocates.housed he.tree fun _ _ => hs.suits_root fun hp => by simp [hl] at hp
    · next hl => exact relocates.housed_settle he.tree sound (by simpa using hl)
  | demoted focuses on get nonempty demotes => exact demotes.housed he hs

theorem housed_ofSettings (s : Settings) : (ofSettings s : Engine H).Housed := by
  refine ⟨Tree.housed_empty, ?_⟩
  show (if s.defaultLayer.isTemporary then Layer.layout else s.defaultLayer).isTemporary = false
  split
  · rfl
  · next hl => simpa using hl

theorem Reachable.housed (h : Reachable e) : e.Housed := by
  induction h with
  | start s => exact housed_ofSettings s
  | perform q op h ih => exact (perform_effect h.sound q op).housed ih h.sound
  | sent n _ ih => exact ⟨ih.tree, ih.defaultLayer⟩

/-! ## Bands of windows -/

theorem homeOf_eq_some_iff {w : H} {l : Layer} :
    e.homeOf w = some l ↔ ∃ x, e.tree.get w = some x ∧ e.tree.home x = some l :=
  Option.bind_eq_some_iff

theorem homeOf_of_get {w : H} {x : NodeId} (hget : e.tree.get w = some x) :
    e.homeOf w = e.tree.home x := by
  rw [homeOf, hget, Option.bind_some]

/-- A tracked window has a permanent band. -/
theorem Housed.exists_homeOf (he : e.Housed) (hs : e.tree.Sound none) {w : H}
    (hw : e.isStacked w = true) : ∃ l, e.homeOf w = some l ∧ l.isTemporary = false := by
  obtain ⟨x, hx⟩ := isStacked_iff_get.mp hw
  obtain ⟨l, hl⟩ := Tree.exists_home_iff.mpr ⟨w, (hs.get_iff w x).mp hx⟩
  exact ⟨l, (homeOf_of_get hx).trans hl, he.tree.permanent x l hl⟩

/-- A window shares the permanent band of a window that it is nested under. -/
theorem Housed.homeOf_of_nests (he : e.Housed) (hs : e.tree.Sound none) {o w : H}
    (hnests : e.Nests o w) : e.homeOf w = e.homeOf o := by
  obtain ⟨x, y, hx, hy, -, hxy⟩ := (nests_iff hs).mp hnests
  obtain ⟨l, hl⟩ := Tree.exists_home_iff.mpr ⟨o, (hs.get_iff o x).mp hx⟩
  rw [homeOf_of_get hx, homeOf_of_get hy, hl, he.tree.home_of_below hs hl hxy]

/-- A window in a permanent band is at home there. -/
theorem Housed.homeOf_of_layerOf (he : e.Housed) (hs : e.tree.Sound none) {w : H} {l : Layer}
    (hw : e.layerOf w = some l) (hl : l.isTemporary = false) : e.homeOf w = some l := by
  obtain ⟨x, hx, hlayer⟩ := Option.bind_eq_some_iff.mp hw
  have hne := hs.ne_root ((hs.get_iff w x).mp hx) l
  rw [homeOf_of_get hx,
    he.tree.home_of_layer hs hl (hs.layerOf_eq_some_iff.mp hlayer) hne]

/-- Two windows below one window are kin. -/
theorem kin_of_below (hs : e.tree.Sound none) {v w : H} {a x y : NodeId} {o : H}
    (ha : e.tree.handle a = some o) (hx : e.tree.get v = some x) (hy : e.tree.get w = some y)
    (hax : e.tree.Below a x) (hay : e.tree.Below a y) : e.Kin v w := by
  have hget := (hs.get_iff o a).mpr ha
  exact ⟨o, isStacked_iff_get.mpr ⟨a, hget⟩, (below_iff_nests hs hget hx).mp hax,
    (below_iff_nests hs hget hy).mp hay⟩

/-- Kin share one permanent band. -/
theorem Housed.homeOf_of_kin (he : e.Housed) (hs : e.tree.Sound none) {v w : H}
    (hkin : e.Kin v w) : e.homeOf v = e.homeOf w := by
  obtain ⟨o, -, hv, hw⟩ := hkin
  have hmember : ∀ {u : H}, u = o ∨ e.Nests o u → e.homeOf u = e.homeOf o := by
    rintro u (rfl | hnests)
    · rfl
    · exact he.homeOf_of_nests hs hnests
  rw [hmember hv, hmember hw]

/-! ## Changes of permanent bands -/

/-- The permanent band of a tracked window changes only with its family, which is sent to
another permanent band. -/
theorem Effect.homeOf_cases (h : Effect e q op result) (he : e.Housed)
    (hs : e.tree.Sound none) {w : H} (hw : e.isStacked w = true) (hop : op ≠ .remove w) :
    result.2.homeOf w = e.homeOf w ∨
      ∃ v l pos, op = .toLayer v l pos ∧ l.isTemporary = false ∧ e.Kin v w ∧
        result.2.homeOf w = some l := by
  obtain ⟨y, hy⟩ := isStacked_iff_get.mp hw
  rw [homeOf_of_get (h.get_of_tracked hy hop), homeOf_of_get hy]
  cases h with
  | refused untaken => exact .inl rfl
  | @added v _ _ _ _ p id t₀ t' adds untracked place creates loose grafts sound =>
    -- The new node is none of the old ones.
    have hne : y ≠ id := fun he => creates.fresh (he ▸ Tree.live_of_handle ((hs.get_iff w y).mp hy))
    exact .inl ((grafts.toSameNodes.home y).trans ((creates.home y).trans (if_neg hne)))
  | @removed v p id _ _ t' removes get parent destroys sound =>
    have hne : y ≠ id := by
      rintro rfl
      rw [hs.get_iff] at get hy
      exact hop (removes.trans (congrArg Op.remove (Option.some.inj (get.symm.trans hy))))
    exact .inl ((destroys.home y).trans (if_neg hne))
  | moved slides takes get relocates sound => exact .inl (relocates.sameNodes.home y)
  | @sent v origin l pos x family t' sends get below relocates sound =>
    have hsame : t'.home y = e.tree.home y := relocates.sameNodes.home y
    show (if l.isTemporary then t' else settle t' family l).home y = _ ∨ _
    split
    · exact .inl hsame
    · next hl =>
      have hpermanent : l.isTemporary = false := by simpa using hl
      obtain ⟨o, ho⟩ := sound.exists_handle relocates.parent_eq.2
      have hhome := sound.home_settle ho l y
      by_cases hb : t'.Below family y
      · -- The window is in the family, which settles in the band.
        have hkin : e.Kin v w :=
          kin_of_below hs (relocates.sameNodes.handle family ▸ ho) get hy below
            ((relocates.below_iff hs sound).mp hb)
        cases sends with
        | toLayer l pos => exact .inr ⟨v, l, pos, rfl, hpermanent, hkin, hhome.1 hb⟩
        | toFront => cases hpermanent
        | enter => cases hpermanent
        | leave full home_eq =>
          -- The whole family has the permanent band that it goes back to.
          refine .inl ((hhome.1 hb).trans ?_)
          rw [← homeOf_of_get hy, ← he.homeOf_of_kin hs hkin, home_eq]
      · exact .inl ((hhome.2 hb).trans hsame)
  | demoted focuses on get nonempty demotes => exact .inl (demotes.sameNodes.home y)

/-! ## Runs -/

/-- A window stays tracked through a run that does not remove it. -/
theorem isStacked_performAll (hs : e.tree.Sound none) {steps : List (Query H × Op H)} {w : H}
    (hw : e.isStacked w = true) (hsteps : ∀ step ∈ steps, step.2 ≠ .remove w) :
    (e.performAll steps).isStacked w = true := by
  induction steps generalizing e with
  | nil => exact hw
  | cons step rest ih =>
    obtain ⟨x, hx⟩ := isStacked_iff_get.mp hw
    have hkept := (perform_effect hs step.1 step.2).get_of_tracked hx
      (hsteps step List.mem_cons_self)
    exact ih (perform_sound hs step.1 step.2) (isStacked_iff_get.mpr ⟨x, hkept⟩)
      fun s hs => hsteps s (List.mem_cons_of_mem step hs)

/-- Through a run that does not remove a window, its permanent band stays, or is the last
one that the run has sent its family to. -/
theorem homeOf_performAll (h : Reachable e) (steps : List (Query H × Op H)) {w : H}
    (hw : e.isStacked w = true) (hsteps : ∀ step ∈ steps, step.2 ≠ .remove w) :
    (e.performAll steps).homeOf w = e.homeOf w ∨
      ∃ before q v l pos after, steps = before ++ (q, .toLayer v l pos) :: after ∧
        l.isTemporary = false ∧ (e.performAll before).Kin v w ∧
        (e.performAll steps).homeOf w = some l := by
  induction steps using List.reverseRecOn with
  | nil => exact .inl rfl
  | append_singleton steps step ih =>
    obtain ⟨q, op⟩ := step
    have hbefore : ∀ s ∈ steps, s.2 ≠ .remove w := fun s hs => hsteps s (by simp [hs])
    have hlast : op ≠ .remove w := hsteps (q, op) (by simp)
    have hreach := h.performAll steps
    have hrun : e.performAll (steps ++ [(q, op)]) = ((e.performAll steps).perform q op).2 := by
      simp [performAll]
    have hstacked := isStacked_performAll h.sound hw hbefore
    rw [hrun]
    rcases (perform_effect hreach.sound q op).homeOf_cases hreach.housed hreach.sound hstacked
      hlast with hsame | ⟨v, l, pos, rfl, hl, hkin, hhome⟩
    · rw [hsame]
      rcases ih hbefore with hold | ⟨before, q', v, l, pos, after, rfl, hl, hkin, hhome⟩
      · exact .inl hold
      · exact .inr ⟨before, q', v, l, pos, after ++ [(q, op)], by simp, hl, hkin, hhome⟩
    · exact .inr ⟨steps, q, v, l, pos, [], rfl, hl, hkin, hhome⟩

/-- Every tracked window has a permanent band, which it shares with the windows nested under
it and in which it is drawn unless it is in a temporary band. It keeps that band until its
family is sent to another permanent band. -/
theorem homeOf_invariant (h : Reachable e) :
    (∀ w, e.isStacked w = true → ∃ l, e.homeOf w = some l ∧ l.isTemporary = false) ∧
    (∀ o w, e.Nests o w → e.homeOf w = e.homeOf o) ∧
    (∀ w l, e.layerOf w = some l → l ≠ .fullscreen → l ≠ .bringToFront →
      e.homeOf w = some l) ∧
    ∀ (steps : List (Query H × Op H)) (w : H), e.isStacked w = true →
      (∀ step ∈ steps, step.2 ≠ .remove w) → (e.performAll steps).homeOf w ≠ e.homeOf w →
      ∃ before q v l pos after, steps = before ++ (q, .toLayer v l pos) :: after ∧
        l.isTemporary = false ∧ (e.performAll before).Kin v w ∧
        (e.performAll steps).homeOf w = some l := by
  refine ⟨fun w hw => h.housed.exists_homeOf h.sound hw,
    fun o w hnests => h.housed.homeOf_of_nests h.sound hnests, ?_, ?_⟩
  · intro w l hw hfull hfront
    refine h.housed.homeOf_of_layerOf h.sound hw ?_
    rw [← Bool.not_eq_true, Layer.isTemporary_iff, not_or]
    exact ⟨hfull, hfront⟩
  · intro steps w hw hsteps hchanged
    exact (homeOf_performAll h steps hw hsteps).resolve_left hchanged

/-- A window with a dialog, where the default band is a temporary one: the dialog follows
the window through the fullscreen band, and to the band that the window is sent to. -/
theorem homeOf_invariant_of_dialog :
    ∃ e : Engine Nat, e.Reachable ∧ e.layerOf 2 = some .layout ∧ e.homeOf 2 = some .layout ∧
      e.homeOf 2 = e.homeOf 1 ∧
      ∃ before q v l pos after,
        [(Query.blank, Op.fullscreen 1 true), (.blank, .toLayer 1 .top .top),
            (.blank, .toFront 2)] = before ++ (q, .toLayer v l pos) :: after ∧
          l.isTemporary = false ∧ (e.performAll before).Kin v 2 ∧
          (e.performAll [(.blank, .fullscreen 1 true), (.blank, .toLayer 1 .top .top),
            (.blank, .toFront 2)]).homeOf 2 = some l := by
  have hreach : Reachable ((ofSettings { defaultLayer := .fullscreen }).performAll
      [(.blank, .add 1), ({ Query.blank with owner := fun _ => some 1 }, .add 2)]) :=
    .performAll (.start _) _
  have hhome := homeOf_invariant hreach
  refine ⟨_, hreach, by decide, ?_, ?_, ?_⟩
  · exact hhome.2.2.1 2 .layout (by decide) (by decide) (by decide)
  · exact hhome.2.1 1 2 (.single ⟨11, 12, by decide, by decide, by decide⟩)
  · exact hhome.2.2.2 _ 2 (by decide) (by simp) (by decide)

end ZOrder.Engine
