/-
  ZOrder.Proofs.Engine.Undoing

  Windows that come and go again. Adding a window puts a leaf into the forest, and removing
  one puts what is nested under it in its place; neither can be told in the forest without
  that window. So when all windows that came are gone, in whatever order they went, the
  forest is what it was before: the windows that stayed are all that is left of either.
-/

import ZOrder.Proofs.Engine.Removal
import ZOrder.Proofs.Engine.Slots
import ZOrder.Proofs.Tree.Without

namespace ZOrder

/-- Whether an operation starts to track a window. -/
def Op.isAdd {H : Type} : Op H → Bool
  | .add _ | .addAt _ _ _ => true
  | _ => false

namespace Info

variable {H : Type} {q q' : Query H}

mutual

theorem ofFamily_congr (hname : q'.name = q.name) (hposition : q'.position = q.position)
    (f : Family H) : ofFamily q' f = ofFamily q f := by
  cases f with
  | mk w l fs => rw [ofFamily, ofFamily, hname, hposition, ofFamilies_congr hname hposition fs]

theorem ofFamilies_congr (hname : q'.name = q.name) (hposition : q'.position = q.position)
    (fs : List (Family H)) : ofFamilies q' fs = ofFamilies q fs := by
  cases fs with
  | nil => rfl
  | cons f fs =>
    rw [ofFamilies, ofFamilies, ofFamily_congr hname hposition f,
      ofFamilies_congr hname hposition fs]

end

/-- The entries show the names and places of windows, and nothing else that is asked. -/
theorem ofForest_congr (hname : q'.name = q.name) (hposition : q'.position = q.position)
    (f : Forest H) : ofForest q' f = ofForest q f := by
  have hlayer : ofLayer q' f = ofLayer q f := by
    funext l
    rw [ofLayer, ofLayer, ofFamilies_congr hname hposition]
  rw [ofForest, ofForest, hlayer]

end Info

namespace Engine

variable {H : Type} [DecidableEq H] {e e' e'' : Engine H} {gone : H → Bool}

/-- The answers of operations that are carried out in turn. -/
def answers (e : Engine H) : List (Query H × Op H) → List Bool
  | [] => []
  | step :: rest =>
    (e.perform step.1 step.2).1 :: answers (e.perform step.1 step.2).2 rest

/-! ## Forests without the windows that come and go -/

/-- Two engines with the same settings, and with the same families but for some windows. -/
structure ResemblesWithout (gone : H → Bool) (e e' : Engine H) : Prop where
  forest : e'.tree.forest.without gone = e.tree.forest.without gone
  defaultLayer : e'.defaultLayer = e.defaultLayer
  defaultPosition : e'.defaultPosition = e.defaultPosition
  demoteOnFocus : e'.demoteOnFocus = e.demoteOnFocus

omit [DecidableEq H] in
theorem ResemblesWithout.trans (h : ResemblesWithout gone e e')
    (h' : ResemblesWithout gone e' e'') : ResemblesWithout gone e e'' :=
  ⟨h'.forest.trans h.forest, h'.defaultLayer.trans h.defaultLayer,
    h'.defaultPosition.trans h.defaultPosition, h'.demoteOnFocus.trans h.demoteOnFocus⟩

/-- Engines that track none of the windows have the same families. -/
theorem ResemblesWithout.resembles (h : ResemblesWithout gone e e') (he : e.tree.Sound none)
    (he' : e'.tree.Sound none) (hgone : ∀ w, gone w = true → e.tree.get w = none)
    (hgone' : ∀ w, gone w = true → e'.tree.get w = none) : Resembles e e' := by
  refine ⟨?_, h.defaultLayer, h.defaultPosition, h.demoteOnFocus⟩
  rw [← he.forest_without_of_untracked hgone, ← h.forest,
    he'.forest_without_of_untracked hgone']

/-- An operation that adds or removes a window can only be told by that window. -/
theorem perform_resemblesWithout (h : e.tree.Sound none) (q : Query H) {op : Op H}
    (hop : op.isAdd = true ∨ ∃ w, op = .remove w) (hgone : gone op.window = true) :
    ResemblesWithout gone e (e.perform q op).2 := by
  have heffect := perform_effect h q op
  generalize e.perform q op = result at heffect
  cases heffect with
  | refused untaken => exact ⟨rfl, rfl, rfl, rfl⟩
  | @added w l home pos pos' p id t₀ t' adds untracked place creates loose grafts sound =>
    have hwindow : op.window = w := by cases adds <;> rfl
    have hw : t'.handle id = some w := by rw [grafts.handle, creates.handle, if_pos rfl]
    have hdrops := grafts.drops creates (sound.parent_ne grafts.parent_self)
    exact ⟨(hdrops.forest_without sound h hw (hwindow ▸ hgone)).symm, rfl, rfl, rfl⟩
  | @removed w p id below above t' removes get parent destroys sound =>
    have hwindow : op.window = w := by rw [removes]; rfl
    have hw := (h.get_iff w id).mp get
    exact ⟨destroys.drops.forest_without h sound hw (hwindow ▸ hgone), rfl, rfl, rfl⟩
  | moved slides takes get relocates sound =>
    cases slides <;> rcases hop with hop | ⟨w, hop⟩ <;> cases hop
  | sent sends get below relocates sound =>
    cases sends <;> rcases hop with hop | ⟨w, hop⟩ <;> cases hop
  | demoted focuses on get nonempty demotes =>
    subst focuses
    rcases hop with hop | ⟨w, hop⟩ <;> cases hop

theorem performAll_resemblesWithout (h : e.tree.Sound none) {steps : List (Query H × Op H)}
    (hsteps : ∀ step ∈ steps, step.2.isAdd = true ∨ ∃ w, step.2 = .remove w)
    (hgone : ∀ step ∈ steps, gone step.2.window = true) :
    ResemblesWithout gone e (e.performAll steps) := by
  induction steps generalizing e with
  | nil => exact ⟨rfl, rfl, rfl, rfl⟩
  | cons step rest ih =>
    have hfirst := perform_resemblesWithout h step.1 (hsteps step List.mem_cons_self)
      (hgone step List.mem_cons_self)
    exact hfirst.trans (ih (perform_sound h step.1 step.2)
      (fun s hs => hsteps s (List.mem_cons_of_mem step hs))
      fun s hs => hgone s (List.mem_cons_of_mem step hs))

/-- Windows may come and go as they like: if none of them was tracked before, and none is
tracked in the end, the families are what they were. -/
theorem resembles_of_untracked (h : e.tree.Sound none) {steps : List (Query H × Op H)}
    (hsteps : ∀ step ∈ steps, step.2.isAdd = true ∨ ∃ w, step.2 = .remove w)
    (hbefore : ∀ step ∈ steps, e.tree.get step.2.window = none)
    (hafter : ∀ step ∈ steps, (e.performAll steps).tree.get step.2.window = none) :
    Resembles e (e.performAll steps) := by
  let gone : H → Bool := fun w => decide (∃ step ∈ steps, step.2.window = w)
  have hgone : ∀ step ∈ steps, gone step.2.window = true := fun step hstep =>
    decide_eq_true ⟨step, hstep, rfl⟩
  refine (performAll_resemblesWithout h hsteps hgone).resembles h (performAll_sound h steps)
    (fun w hw => ?_) fun w hw => ?_ <;>
    obtain ⟨step, hstep, rfl⟩ := of_decide_eq_true hw
  · exact hbefore step hstep
  · exact hafter step hstep

/-! ## Windows that are untracked before and after -/

/-- Windows that can be added in turn were not tracked. -/
theorem get_of_answers (h : e.tree.Sound none) {adds : List (Query H × Op H)}
    (hadds : ∀ step ∈ adds, step.2.isAdd = true) (hanswers : ∀ b ∈ e.answers adds, b = true)
    {step : Query H × Op H} (hstep : step ∈ adds) : e.tree.get step.2.window = none := by
  induction adds generalizing e with
  | nil => cases hstep
  | cons first rest ih =>
    have hfirst := hadds first List.mem_cons_self
    have heffect := perform_effect h first.1 first.2
    rcases List.mem_cons.mp hstep with rfl | hstep
    · have htakes := heffect.answer_iff.mp (hanswers _ List.mem_cons_self)
      obtain ⟨q, op⟩ := step
      cases op <;> first | exact isStacked_eq_false_iff.mp htakes | cases hfirst
    · -- What is untracked once a window is added was untracked before.
      have hnone := ih (perform_sound h first.1 first.2)
        (fun s hs => hadds s (List.mem_cons_of_mem first hs))
        (fun b hb => hanswers b (List.mem_cons_of_mem _ hb)) hstep
      rcases heffect.get_cases step.2.window with heq | ⟨-, hfree | hremove⟩
      · rw [← heq, hnone]
      · exact hfree
      · rw [hremove] at hfirst
        cases hfirst

/-- Once all have been removed, none of the windows is tracked. -/
theorem get_of_removals (h : e.tree.Sound none) {removals : List (Query H × Op H)}
    (hremovals : ∀ step ∈ removals, ∃ v, step.2 = .remove v) {w : H}
    (hw : e.tree.get w = none ∨ .remove w ∈ removals.map Prod.snd) :
    (e.performAll removals).tree.get w = none := by
  induction removals generalizing e with
  | nil => simpa [performAll] using hw
  | cons step rest ih =>
    obtain ⟨q, op⟩ := step
    obtain ⟨v, rfl⟩ := hremovals _ List.mem_cons_self
    refine ih (remove_sound h v) (fun s hs => hremovals s (List.mem_cons_of_mem _ hs)) ?_
    show (e.remove v).2.tree.get w = none ∨ _
    rw [get_remove h]
    rcases hw with hw | hw
    · exact .inl (by rw [hw, ite_self])
    · rcases List.mem_cons.mp hw with hw | hw
      · exact .inl (if_pos (Op.remove.inj hw))
      · exact .inr hw

/-! ## Windows that came are gone -/

/-- Windows that are added and then removed, in whatever order, leave the families as they
were, and nothing that can be seen has changed. -/
theorem adds_undone_by_removals (h : Reachable e) {adds removals : List (Query H × Op H)}
    (hadds : ∀ step ∈ adds, step.2.isAdd = true) (hanswers : ∀ b ∈ e.answers adds, b = true)
    (hremovals : (removals.map Prod.snd).Perm (adds.map fun step => .remove step.2.window)) :
    Resembles e (e.performAll (adds ++ removals)) ∧
      LooksLike e (e.performAll (adds ++ removals)) ∧
      ∀ q q' : Query H, q'.name = q.name → q'.position = q.position →
        (e.performAll (adds ++ removals)).info q' = e.info q := by
  have hs := h.sound
  have hremoves : ∀ step ∈ removals, ∃ add ∈ adds, step.2 = .remove add.2.window := by
    intro step hstep
    obtain ⟨add, hadd, heq⟩ :=
      List.mem_map.mp (hremovals.mem_iff.mp (List.mem_map_of_mem hstep))
    exact ⟨add, hadd, heq.symm⟩
  -- All steps are about windows that are added, and each of these is removed.
  have hadded : ∀ step ∈ adds ++ removals, ∃ add ∈ adds, add.2.window = step.2.window := by
    intro step hstep
    rcases List.mem_append.mp hstep with hstep | hstep
    · exact ⟨step, hstep, rfl⟩
    · obtain ⟨add, hadd, heq⟩ := hremoves step hstep
      exact ⟨add, hadd, by rw [heq]; rfl⟩
  have hsame : Resembles e (e.performAll (adds ++ removals)) := by
    refine resembles_of_untracked hs (fun step hstep => ?_) (fun step hstep => ?_)
      fun step hstep => ?_
    · rcases List.mem_append.mp hstep with hstep | hstep
      · exact .inl (hadds step hstep)
      · obtain ⟨add, -, heq⟩ := hremoves step hstep
        exact .inr ⟨_, heq⟩
    · obtain ⟨add, hadd, heq⟩ := hadded step hstep
      exact heq ▸ get_of_answers hs hadds hanswers hadd
    · obtain ⟨add, hadd, heq⟩ := hadded step hstep
      rw [performAll, List.foldl_append, ← heq]
      refine get_of_removals (performAll_sound hs adds) (fun step hstep => ?_) (.inr ?_)
      · obtain ⟨add, -, heq⟩ := hremoves step hstep
        exact ⟨_, heq⟩
      · exact hremovals.mem_iff.mpr (List.mem_map.mpr ⟨add, hadd, rfl⟩)
  have hlooks := (hsame.renames hs (performAll_sound hs (adds ++ removals))).looksLike
  refine ⟨hsame, hlooks, fun q q' hname hposition => ?_⟩
  rw [info, info, hsame.forest, Info.ofForest_congr hname hposition]

/-- The window 4 joins the dialogs of 1, 5 is a dialog of 4, and 6 goes between the families of
two older windows. Then 4 goes before its own dialog. -/
theorem adds_undone_by_removals_of_dialogs :
    ∃ (e : Engine Nat) (adds removals : List (Query Nat × Op Nat)), e.Reachable ∧
      e.zOrder = [1, 2, 3] ∧ (∀ step ∈ adds, step.2.isAdd = true) ∧
      e.answers adds = [true, true, true] ∧ (e.performAll adds).zOrder = [1, 2, 4, 5, 6, 3] ∧
      removals.map Prod.snd = [.remove 4, .remove 6, .remove 5] ∧
      Resembles e (e.performAll (adds ++ removals)) ∧
      LooksLike e (e.performAll (adds ++ removals)) ∧
      ∀ q q' : Query Nat, q'.name = q.name → q'.position = q.position →
        (e.performAll (adds ++ removals)).info q' = e.info q := by
  let dialogOf (o : Nat) : Query Nat := { Query.blank with owner := fun _ => some o }
  have hreach : Reachable ((ofSettings {}).performAll
      [(.blank, .add 1), (dialogOf 1, .add 2), (.blank, .add 3)]) := .performAll (.start {}) _
  exact ⟨_, [(dialogOf 1, .add 4), (dialogOf 4, .add 5), (.blank, .addAt 6 .layout (.index 1))],
    [(.blank, .remove 4), (.blank, .remove 6), (.blank, .remove 5)], hreach, by decide,
    by decide, by decide, by decide, rfl,
    adds_undone_by_removals hreach (by decide) (by decide) (by decide)⟩

end Engine

end ZOrder
