/-
  ZOrder.Proofs.Engine.Effect

  All that an operation can do to an engine with a sound forest. Operations differ in
  what they are asked for, not in what they do: a window is added, removed or moved
  among its siblings, a family is sent to another band, or the families that have lost
  the focus go back one by one. `perform_effect` says which of these happens, with all
  that is known about it; what holds of every operation is proved by going through
  the cases of `Effect`.
-/

import ZOrder.Proofs.Engine.Steps

namespace ZOrder

/-- The window that an operation is about. -/
def Op.window {H : Type} : Op H → H
  | .add w | .addAt w _ _ | .remove w | .up w | .down w | .toTop w | .toBottom w
  | .toLayer w _ _ | .toFront w | .fullscreen w _ | .focus w => w

namespace Engine

open ZOrder.Tree (Relocates Creates Grafts Destroys root)

variable {H : Type} [DecidableEq H]

/-! ## Operations by what they do -/

/-- Operations that start to track a window, with the band and the place asked for. -/
inductive Adds (e : Engine H) (w : H) : Op H → Layer → Position → Prop where
  | add : Adds e w (.add w) e.defaultLayer e.defaultPosition
  | addAt (l : Layer) (pos : Position) : Adds e w (.addAt w l pos) l pos

/-- Operations that move a window among its siblings. -/
inductive Slides (w : H) : Op H → Prop where
  | up : Slides w (.up w)
  | down : Slides w (.down w)
  | toTop : Slides w (.toTop w)
  | toBottom : Slides w (.toBottom w)

/-- Operations that send the family of a window to a band, at a place. A window that leaves
the fullscreen band sends its family to its own permanent band. -/
inductive Sends (e : Engine H) (w : H) : Op H → Layer → Position → Prop where
  | toLayer (l : Layer) (pos : Position) : Sends e w (.toLayer w l pos) l pos
  | toFront : Sends e w (.toFront w) .bringToFront .top
  | enter : Sends e w (.fullscreen w true) .fullscreen .top
  | leave {home : Layer} (full : e.layerOf w = some .fullscreen) (home_eq : e.homeOf w = some home) :
      Sends e w (.fullscreen w false) home .top

/-- When an operation does anything. -/
def Takes (e : Engine H) (q : Query H) : Op H → Prop
  | .add w | .addAt w _ _ => e.isStacked w = false
  | .remove w | .toTop w | .toBottom w | .toLayer w _ _ | .toFront w | .fullscreen w true =>
    e.isStacked w = true
  | .up w => (e.passing q w .up).isSome = true
  | .down w => (e.passing q w .down).isSome = true
  | .fullscreen w false => e.layerOf w = some .fullscreen
  | .focus w => e.demoteOnFocus = true ∧ ∃ x, e.tree.get w = some x ∧ demoted e.tree x ≠ []

/-- Families go back from temporary bands to their permanent bands, one after the other. -/
inductive Demotes : Engine H → List NodeId → Engine H → Prop where
  | nil (e : Engine H) : Demotes e [] e
  | cons {e e' : Engine H} {family : NodeId} {rest : List NodeId} {l home : Layer} {slot : Nat}
      {t' : Tree H} (temporary : l.isTemporary = true) (home_eq : e.tree.home family = some home)
      (relocates : Relocates e.tree t' (root l) (root home) family slot) (sound : t'.Sound none)
      (demotes : Demotes ({ e with tree := t' }.sync [family]) rest e') :
      Demotes e (family :: rest) e'

/-- What an operation does, with its answer and the engine afterwards. -/
inductive Effect (e : Engine H) (q : Query H) (op : Op H) : Bool × Engine H → Prop where
  /-- Nothing is done. -/
  | refused (untaken : ¬ e.Takes q op) : Effect e q op (false, e)
  /-- A window is created and attached where it belongs. -/
  | added {w : H} {l home : Layer} {pos pos' : Position} {p id : NodeId} {t₀ t' : Tree H}
      (adds : Adds e w op l pos) (untracked : e.tree.get w = none)
      (place : e.placeFor q w l pos = (p, home, pos')) (creates : Creates e.tree t₀ w home id)
      (loose : t₀.Sound (some id))
      (grafts : Grafts t₀ t' p id ((t₀.children p).take (pos'.slot (t₀.children p).length))
        ((t₀.children p).drop (pos'.slot (t₀.children p).length)))
      (sound : t'.Sound none) : Effect e q op (true, { e with tree := t' }.sync [id])
  /-- A window goes, and its children take its place. -/
  | removed {w : H} {p id : NodeId} {below above : List NodeId} {t' : Tree H}
      (removes : op = .remove w) (get : e.tree.get w = some id) (parent : e.tree.parent id = some p)
      (destroys : Destroys e.tree t' w p id below above) (sound : t'.Sound none) :
      Effect e q op (true, { e with tree := t' }.sync [p])
  /-- A window moves among its siblings. -/
  | moved {w : H} {p id : NodeId} {slot : Nat} {t' : Tree H} (slides : Slides w op)
      (takes : e.Takes q op) (get : e.tree.get w = some id)
      (relocates : Relocates e.tree t' p p id slot) (sound : t'.Sound none) :
      Effect e q op (true, { e with tree := t' }.sync [id])
  /-- The family of a window moves to a band, and settles there if the band is permanent. -/
  | sent {w : H} {origin l : Layer} {pos : Position} {id family : NodeId} {t' : Tree H}
      (sends : Sends e w op l pos) (get : e.tree.get w = some id)
      (below : e.tree.Below family id)
      (relocates : Relocates e.tree t' (root origin) (root l) family
        (pos.slot ((e.tree.children (root l)).erase family).length))
      (sound : t'.Sound none) :
      Effect e q op (true, { e with tree := if l.isTemporary then t' else settle t' family l }.sync
        (if root origin = root l then [root origin] else [root origin, root l]))
  /-- The families that do not hold the focused window leave the temporary bands. -/
  | demoted {w : H} {focused : NodeId} {e' : Engine H} (focuses : op = .focus w)
      (on : e.demoteOnFocus = true) (get : e.tree.get w = some focused)
      (nonempty : demoted e.tree focused ≠ []) (demotes : Demotes e (demoted e.tree focused) e') :
      Effect e q op (true, e')

/-! ## Every operation has an effect -/

variable {e e' : Engine H} {q : Query H}

theorem isStacked_iff_get {w : H} : e.isStacked w = true ↔ ∃ x, e.tree.get w = some x :=
  Option.isSome_iff_exists

theorem isStacked_eq_false_iff {w : H} : e.isStacked w = false ↔ e.tree.get w = none := by
  rw [isStacked, Tree.contains, Option.isSome_eq_false_iff, Option.isNone_iff_eq_none]

theorem addAt_effect (h : e.tree.Sound none) {op : Op H} {w : H} {l : Layer} {pos : Position}
    (hop : Adds e w op l pos) : Effect e q op (e.addAt q w l pos) := by
  cases hget : e.tree.get w with
  | some id =>
    have hstacked : e.isStacked w = true := isStacked_iff_get.mpr ⟨id, hget⟩
    rw [addAt, if_pos (show e.tree.contains w = true from hstacked)]
    refine .refused fun htakes => ?_
    have hfree : e.isStacked w = false := by cases hop <;> exact htakes
    simp [hfree] at hstacked
  | none =>
    obtain ⟨p, home, pos', t₀, id, t', hplace, hcreate, ht₀, hto, ht', heq⟩ :=
      addAt_eq (q := q) h hget l pos
    rw [heq]
    exact .added hop hget hplace hcreate ht₀ hto ht'

theorem shift_effect (h : e.tree.Sound none) {op : Op H} {w : H} {d : Direction}
    (hop : Slides w op) (htakes : e.Takes q op ↔ (e.passing q w d).isSome = true) :
    Effect e q op (e.shift q w d) := by
  cases hpass : e.passing q w d with
  | none =>
    have heq : e.shift q w d = (false, e) := by simp only [shift, hpass]
    rw [heq]
    exact .refused (by simp [htakes, hpass])
  | some found =>
    obtain ⟨id, p, target⟩ := found
    obtain ⟨k, t', -, hmove, ht', heq⟩ := shift_eq h hpass
    rw [heq]
    exact .moved hop (by simp [htakes, hpass]) (passing_cases h hpass).1 hmove ht'

theorem moveTo_effect (h : e.tree.Sound none) {op : Op H} {w : H} {pos : Position}
    (hop : Slides w op) (htakes : e.Takes q op ↔ e.isStacked w = true) :
    Effect e q op (e.moveTo w pos) := by
  cases hget : e.tree.get w with
  | none =>
    have heq : e.moveTo w pos = (false, e) := by simp only [moveTo, hget]
    rw [heq]
    exact .refused (by rw [htakes, isStacked_eq_false_iff.mpr hget]; simp)
  | some id =>
    obtain ⟨p, hpar⟩ := h.exists_parent ((h.get_iff w id).mp hget)
    obtain ⟨t', hmove, ht', heq⟩ := moveTo_eq h hget hpar pos
    rw [heq]
    exact .moved hop (htakes.mpr (isStacked_iff_get.mpr ⟨id, hget⟩)) hget hmove ht'

theorem moveToLayer_effect (h : e.tree.Sound none) {op : Op H} {w : H} {l : Layer}
    {pos : Position} (hop : Sends e w op l pos) (htakes : e.Takes q op → e.isStacked w = true) :
    Effect e q op (e.moveToLayer w l pos) := by
  cases hget : e.tree.get w with
  | none =>
    have heq : e.moveToLayer w l pos = (false, e) := by
      simp only [moveToLayer, hget, Option.bind_none]
    rw [heq]
    refine .refused fun ht => ?_
    have hstacked := htakes ht
    rw [isStacked_eq_false_iff.mpr hget] at hstacked
    cases hstacked
  | some id =>
    obtain ⟨family, origin, hfamily, hbelow, hpar⟩ := exists_family h hget
    obtain ⟨t', hmove, ht', heq⟩ := moveFamily_eq h hpar l pos
    simp only [moveToLayer, hfamily, heq]
    exact .sent hop hget hbelow hmove ht'

/-- Only a tracked window is in a band. -/
theorem isStacked_of_layerOf {w : H} {l : Layer} (hw : e.layerOf w = some l) :
    e.isStacked w = true := by
  obtain ⟨x, hx, -⟩ := Option.bind_eq_some_iff.mp hw
  exact isStacked_iff_get.mpr ⟨x, hx⟩

theorem setFullscreen_effect (h : e.tree.Sound none) (w : H) (on : Bool) :
    Effect e q (.fullscreen w on) (e.setFullscreen w on) := by
  cases on with
  | true => exact moveToLayer_effect h .enter id
  | false =>
    rw [setFullscreen, if_neg Bool.false_ne_true]
    split
    · next hfull => exact .refused hfull
    · next hfull =>
      rw [not_not] at hfull
      -- A window in a band is tracked, so it has a permanent band as well.
      obtain ⟨x, hx⟩ := isStacked_iff_get.mp (isStacked_of_layerOf hfull)
      obtain ⟨home, hhome⟩ := Tree.exists_home_iff.mpr ⟨w, (h.get_iff w x).mp hx⟩
      have hhomeOf : e.homeOf w = some home := by rw [homeOf, hx, Option.bind_some, hhome]
      simp only [hhomeOf]
      exact moveToLayer_effect h (.leave hfull hhomeOf) fun _ => isStacked_of_layerOf hfull

theorem mem_demoted_iff (h : e.tree.Sound none) {focused x : NodeId} :
    x ∈ demoted e.tree focused ↔
      (∃ l : Layer, l.isTemporary = true ∧ e.tree.parent x = some (root l)) ∧
        ¬ e.tree.Below x focused := by
  rw [demoted, List.mem_filter, List.mem_append, Bool.not_eq_true', h.isInSubtree_eq_false_iff,
    ← h.parent_iff, ← h.parent_iff]
  simp only [Layer.isTemporary_iff, or_and_right, exists_or, exists_eq_left]

theorem nodup_demoted (h : e.tree.Sound none) (focused : NodeId) :
    (demoted e.tree focused).Nodup := by
  refine List.Nodup.filter _ (List.nodup_append'.mpr
    ⟨h.children_nodup _, h.children_nodup _, fun x hx hx' => ?_⟩)
  -- A family stands in one of the two bands only.
  rw [← h.parent_iff] at hx hx'
  have hroot := Tree.root_injective (Option.some.inj (hx.symm.trans hx'))
  cases hroot

theorem demotes_foldl (h : e.tree.Sound none) (focused : NodeId) {families : List NodeId}
    (hnodup : families.Nodup) (hpar : ∀ x ∈ families, ∃ l : Layer, l.isTemporary = true ∧
      e.tree.parent x = some (root l)) :
    Demotes e families (families.foldl (fun e family => e.demote focused family) e) := by
  induction families generalizing e with
  | nil => exact .nil e
  | cons family rest ih =>
    obtain ⟨hfamily, hrest⟩ := List.nodup_cons.mp hnodup
    obtain ⟨l, hl, hparent⟩ := hpar family List.mem_cons_self
    obtain ⟨w, hw⟩ := h.exists_handle hparent
    obtain ⟨home, hhome⟩ := Tree.exists_home_iff.mpr ⟨w, hw⟩
    obtain ⟨t', slot, hmove, ht', heq⟩ := demote_eq h hparent focused
    rw [hhome, Option.getD_some] at hmove
    rw [List.foldl_cons, heq]
    -- The families that follow have not moved yet.
    refine .cons hl hhome hmove ht' (ih ht' hrest fun x hx => ?_)
    obtain ⟨k, hk, hx'⟩ := hpar x (List.mem_cons_of_mem family hx)
    have hne : x ≠ family := fun he => hfamily (he ▸ hx)
    exact ⟨k, hk, by rw [← hx']; exact (hmove.parent x).trans (if_neg hne)⟩

theorem focus_effect (h : e.tree.Sound none) (w : H) : Effect e q (.focus w) (e.focus w) := by
  rw [focus]
  split
  · next hoff =>
    exact .refused fun htakes => by simp [htakes.1] at hoff
  · next hon =>
    split
    · next hget =>
      refine .refused ?_
      rintro ⟨-, x, hx, -⟩
      rw [hget] at hx
      cases hx
    · next focused hget =>
      dsimp only
      split
      · next hnone =>
        refine .refused ?_
        rintro ⟨-, x, hx, hsome⟩
        obtain rfl := Option.some.inj (hget.symm.trans hx)
        exact hsome (List.isEmpty_iff.mp hnone)
      · next hsome =>
        refine .demoted rfl (by simpa using hon) hget (by simpa using hsome) ?_
        exact demotes_foldl h focused (nodup_demoted h focused)
          fun x hx => ((mem_demoted_iff h).mp hx).1

theorem remove_effect (h : e.tree.Sound none) (w : H) : Effect e q (.remove w) (e.remove w) := by
  cases hget : e.tree.get w with
  | none =>
    rw [remove_of_untracked hget]
    refine .refused fun htakes => ?_
    have hstacked : e.isStacked w = true := htakes
    rw [isStacked_eq_false_iff.mpr hget] at hstacked
    cases hstacked
  | some id =>
    obtain ⟨p, below, above, t', hpar, hdes, ht', heq⟩ := remove_eq h hget
    rw [heq]
    exact .removed rfl hget hpar hdes ht'

/-- What every operation does to an engine with a sound forest. -/
theorem perform_effect (h : e.tree.Sound none) (q : Query H) (op : Op H) :
    Effect e q op (e.perform q op) := by
  cases op with
  | add w => exact addAt_effect h .add
  | addAt w l pos => exact addAt_effect h (.addAt l pos)
  | remove w => exact remove_effect h w
  | up w => exact shift_effect h .up Iff.rfl
  | down w => exact shift_effect h .down Iff.rfl
  | toTop w => exact moveTo_effect h .toTop Iff.rfl
  | toBottom w => exact moveTo_effect h .toBottom Iff.rfl
  | toLayer w l pos => exact moveToLayer_effect h (.toLayer l pos) id
  | toFront w => exact moveToLayer_effect h .toFront id
  | fullscreen w on => exact setFullscreen_effect h w on
  | focus w => exact focus_effect h w

/-- An operation answers whether it does anything. -/
theorem Effect.answer_iff {op : Op H} {result : Bool × Engine H} (h : Effect e q op result) :
    result.1 = true ↔ e.Takes q op := by
  cases h with
  | refused untaken => exact iff_of_false Bool.false_ne_true untaken
  | added adds untracked place creates loose grafts sound =>
    refine iff_of_true rfl ?_
    have hfree := isStacked_eq_false_iff.mpr untracked
    cases adds <;> exact hfree
  | removed removes get parent destroys sound =>
    refine iff_of_true rfl ?_
    rw [removes]
    exact isStacked_iff_get.mpr ⟨_, get⟩
  | moved slides takes get relocates sound => exact iff_of_true rfl takes
  | sent sends get below relocates sound =>
    refine iff_of_true rfl ?_
    have hstacked := isStacked_iff_get.mpr ⟨_, get⟩
    cases sends with
    | toLayer | toFront | enter => exact hstacked
    | leave full home_eq => exact full
  | demoted focuses on get nonempty demotes =>
    refine iff_of_true rfl ?_
    rw [focuses]
    exact ⟨on, _, get, nonempty⟩

/-- An operation that does nothing leaves everything as it was. -/
theorem Effect.eq_of_refused {op : Op H} {result : Bool × Engine H} (h : Effect e q op result)
    (hfalse : result.1 = false) : result.2 = e := by
  cases h with
  | refused untaken => rfl
  | added | removed | moved | sent | demoted => cases hfalse

/-! ## Which windows are tracked -/

theorem Demotes.sameNodes {families : List NodeId} (h : Demotes e families e') :
    Tree.SameNodes e.tree e'.tree := by
  induction h with
  | nil e => exact ⟨fun _ => rfl, rfl, rfl, rfl⟩
  | cons temporary home_eq relocates sound _ ih => exact relocates.sameNodes.trans ih

/-- Each family that goes back hangs from its permanent band, and other nodes stay where
they are. -/
theorem Demotes.parent {families : List NodeId} (h : Demotes e families e')
    (hnodup : families.Nodup) (x : NodeId) :
    e'.tree.parent x = if x ∈ families then (e.tree.home x).map root else e.tree.parent x := by
  induction h with
  | nil e => rfl
  | @cons e e' family rest l home slot t' temporary home_eq relocates sound demotes ih =>
    obtain ⟨hfamily, hrest⟩ := List.nodup_cons.mp hnodup
    have hpar : t'.parent x = if x = family then some (root home) else e.tree.parent x :=
      relocates.parent x
    refine (ih hrest).trans ?_
    show (if x ∈ rest then (t'.home x).map root else t'.parent x) = _
    rw [relocates.sameNodes.home, hpar]
    by_cases hx : x = family
    · -- A family goes back once only.
      subst hx
      rw [if_neg hfamily, if_pos rfl, if_pos List.mem_cons_self, home_eq, Option.map_some]
    · simp only [List.mem_cons, hx, false_or, if_false]

/-- A window keeps its node, unless it is the one that is added or removed. -/
theorem Effect.get_cases {op : Op H} {result : Bool × Engine H} (h : Effect e q op result)
    (w : H) : result.2.tree.get w = e.tree.get w ∨
      w = op.window ∧ (e.tree.get w = none ∨ op = .remove w) := by
  cases h with
  | refused untaken => exact .inl rfl
  | @added v _ _ _ _ _ _ t₀ t' adds untracked place creates loose grafts sound =>
    by_cases hw : w = v
    · exact .inr ⟨by cases adds <;> exact hw, .inl (hw ▸ untracked)⟩
    · refine .inl ((grafts.toSameNodes.get w).trans ?_)
      rw [Tree.get, creates.index, Index.find?_insert_of_ne _ _ hw, Tree.get]
  | @removed v _ _ _ _ t' removes get parent destroys sound =>
    by_cases hw : w = v
    · exact .inr ⟨by rw [removes]; exact hw, .inr (hw ▸ removes)⟩
    · refine .inl ?_
      show t'.get w = e.tree.get w
      rw [Tree.get, destroys.index, Index.find?_erase_of_ne _ hw, Tree.get]
  | moved slides takes get relocates sound => exact .inl (relocates.sameNodes.get w)
  | @sent v origin l pos id family t' sends get below relocates sound =>
    refine .inl (Eq.trans ?_ (relocates.sameNodes.get w))
    show (if l.isTemporary then t' else settle t' family l).get w = t'.get w
    split
    · rfl
    · rw [Tree.get, (Tree.sameShape_settle t' family l).index, Tree.get]
  | demoted focuses on get nonempty demotes => exact .inl (demotes.sameNodes.get w)

/-- A tracked window keeps its node until it is removed. -/
theorem Effect.get_of_tracked {op : Op H} {result : Bool × Engine H} (h : Effect e q op result)
    {w : H} {x : NodeId} (hget : e.tree.get w = some x) (hop : op ≠ .remove w) :
    result.2.tree.get w = some x := by
  rcases h.get_cases w with heq | ⟨-, hnone | hremove⟩
  · rw [heq, hget]
  · rw [hget] at hnone
    cases hnone
  · exact absurd hremove hop

/-! ## The requests of an operation -/

omit [DecidableEq H] in
theorem mem_queue_sync {ids : List NodeId} {r : Request H} :
    r ∈ (e.sync ids).queue ↔ r ∈ e.queue ∨ ∃ x ∈ ids, r = e.tree.request x := by
  rw [sync, List.mem_append, List.mem_map]
  simp only [Tree.request, eq_comm]

/-- Every request that is queued while families go back is that of a node of a sound forest,
which tracks the same windows. -/
theorem Demotes.issued {families : List NodeId} (h : Demotes e families e') {r : Request H}
    (hr : r ∈ e'.queue) : r ∈ e.queue ∨
      ∃ (t : Tree H) (x : NodeId), t.Sound none ∧ t.index = e'.tree.index ∧ r = t.request x := by
  induction h with
  | nil e => exact .inl hr
  | @cons e e' family rest l home slot t' temporary home_eq relocates sound demotes ih =>
    rcases ih hr with hold | hnew
    · rcases mem_queue_sync.mp hold with hold | ⟨x, -, rfl⟩
      · exact .inl hold
      · exact .inr ⟨t', x, sound, demotes.sameNodes.index.symm, rfl⟩
    · exact .inr hnew

/-- Every request that an operation queues is that of a node of a sound forest, which tracks
the windows that are tracked afterwards. -/
theorem Effect.issued {op : Op H} {result : Bool × Engine H} (h : Effect e q op result)
    {r : Request H} (hr : r ∈ result.2.queue) : r ∈ e.queue ∨
      ∃ (t : Tree H) (x : NodeId), t.Sound none ∧ t.index = result.2.tree.index ∧
        r = t.request x := by
  have hsync : ∀ {t' : Tree H} {ids : List NodeId}, t'.Sound none →
      r ∈ ({ e with tree := t' }.sync ids).queue → r ∈ e.queue ∨
        ∃ (t : Tree H) (x : NodeId), t.Sound none ∧ t.index = t'.index ∧ r = t.request x := by
    intro t' ids ht' hmem
    rcases mem_queue_sync.mp hmem with hold | ⟨x, -, rfl⟩
    · exact .inl hold
    · exact .inr ⟨t', x, ht', rfl, rfl⟩
  cases h with
  | refused untaken => exact .inl hr
  | added adds untracked place creates loose grafts sound => exact hsync sound hr
  | removed removes get parent destroys sound => exact hsync sound hr
  | moved slides takes get relocates sound => exact hsync sound hr
  | @sent v origin l pos id family t' sends get below relocates sound =>
    refine hsync ?_ hr
    split
    · exact sound
    · exact (Tree.sameShape_settle t' family l).sound sound
  | demoted focuses on get nonempty demotes => exact demotes.issued hr

end Engine

end ZOrder
