/-
  ZOrder.Proofs.Engine.AllOrNothing

  An operation is done as a whole or not at all. On a sound forest the strict operations
  meet no fault, so nothing that has been taken out or created is ever left behind; an
  operation that is refused leaves the engine as it was, and one that is carried out
  queues as many requests as it calls for.
-/

import ZOrder.Proofs.Engine.Homes
import ZOrder.Proofs.Engine.Requests
import ZOrder.Proofs.Engine.Strict

namespace ZOrder

/-! ## No fault in an operation -/

namespace Strict

variable {H : Type} [DecidableEq H] {e : Engine H} {q : Query H}

/-- A window that has a sibling to pass finds it again once it is taken out. -/
theorem shift_eq (h : e.tree.Sound none) (w : H) (d : Engine.Direction) :
    shift e q w d = .ok (e.shift q w d) := by
  rw [shift, passing_eq, ok_bind]
  cases hpass : e.passing q w d with
  | none => simp only [Engine.shift, hpass, pure_eq]
  | some found =>
    obtain ⟨id, p, target⟩ := found
    -- The engine answers true, so it refuses none of the three steps.
    obtain ⟨_, _, _, _, _, hdone⟩ := Engine.shift_eq h hpass
    simp only [Engine.shift, hpass, detach_eq, ok_bind] at hdone ⊢
    cases hout : e.tree.detach id with
    | none => simp [hout] at hdone
    | some taken =>
      obtain ⟨t₀, _⟩ := taken
      cases hslot : t₀.position target with
      | none => simp [hout, hslot] at hdone
      | some slot =>
        simp only [hslot, committed_some, ok_bind, attach_eq]
        cases hback : t₀.attach p id (if d = .up then slot + 1 else slot) with
        | none => simp [hout, hslot, hback] at hdone
        | some put => simp only [committed_some, ok_bind, sync_eq, pure_eq]

theorem moveTo_eq (h : e.tree.Sound none) (w : H) (pos : Position) :
    moveTo e w pos = .ok (e.moveTo w pos) := by
  cases hget : e.tree.get w with
  | none => simp only [moveTo, Engine.moveTo, hget, pure_eq]
  | some id =>
    obtain ⟨p, hpar⟩ := h.exists_parent ((h.get_iff w id).mp hget)
    obtain ⟨_, _, _, hdone⟩ := Engine.moveTo_eq h hget hpar pos
    simp only [moveTo, Engine.moveTo, hget, detach_eq, ok_bind, Tree.addChild] at hdone ⊢
    cases hout : e.tree.detach id with
    | none => simp [hout] at hdone
    | some taken =>
      obtain ⟨t₀, parent, _⟩ := taken
      simp only [attach_eq, ok_bind]
      cases hback : t₀.attach parent id (pos.slot (t₀.children parent).length) with
      | none => simp [hout, hback] at hdone
      | some put => simp only [committed_some, ok_bind, sync_eq, pure_eq]

theorem moveToLayer_eq (h : e.tree.Sound none) (w : H) (l : Layer) (pos : Position) :
    moveToLayer e w l pos = .ok (e.moveToLayer w l pos) := by
  cases hget : e.tree.get w with
  | none => simp only [moveToLayer, Engine.moveToLayer, hget, Option.bind_none, pure_eq]
  | some id =>
    obtain ⟨family, origin, hfamily, -, hpar⟩ := Engine.exists_family h hget
    obtain ⟨_, _, _, hdone⟩ := Engine.moveFamily_eq h hpar l pos
    simp only [moveToLayer, Engine.moveToLayer, hfamily, Engine.moveFamily, detach_eq, ok_bind,
      Tree.addChild] at hdone ⊢
    cases hout : e.tree.detach family with
    | none => simp [hout] at hdone
    | some taken =>
      obtain ⟨t₀, origin', _⟩ := taken
      simp only [attach_eq, ok_bind]
      cases hback : t₀.attach (Tree.root l) family
          (pos.slot (t₀.children (Tree.root l)).length) with
      | none => simp [hout, hback] at hdone
      | some put => simp only [committed_some, ok_bind, sync_eq, pure_eq]

theorem setFullscreen_eq (h : e.tree.Sound none) (w : H) (on : Bool) :
    setFullscreen e w on = .ok (e.setFullscreen w on) := by
  rw [setFullscreen, Engine.setFullscreen]
  split
  · exact moveToLayer_eq h w .fullscreen .top
  · split
    · rfl
    · cases e.homeOf w with
      | none => rfl
      | some home => exact moveToLayer_eq h w home .top

/-- A family with a place goes back to its band without a fault. -/
theorem demote_eq (h : e.tree.Sound none) {family p : NodeId}
    (hpar : e.tree.parent family = some p) (focused : NodeId) :
    demote focused e family = .ok (e.demote focused family) := by
  -- A request is queued for the family, which happens only once it has a new place.
  obtain ⟨_, _, _, _, hdone⟩ := Engine.demote_eq h hpar focused
  have hlength := congrArg (fun e : Engine H => e.queue.length) hdone
  simp only [Engine.sync, List.length_append, List.length_map, List.length_singleton] at hlength
  simp only [demote, Engine.demote, detach_eq, ok_bind] at hlength ⊢
  cases hout : e.tree.detach family with
  | none => simp [hout] at hlength
  | some taken =>
    obtain ⟨t₀, _⟩ := taken
    simp only [committed_some, ok_bind]
    cases hslot : Engine.returnSlot t₀ ((e.tree.home family).getD e.defaultLayer) focused with
    | none => simp [hout, hslot] at hlength
    | some slot =>
      simp only [committed_some, ok_bind, attach_eq]
      cases hback : t₀.attach (Tree.root ((e.tree.home family).getD e.defaultLayer)) family slot with
      | none => simp [hout, hslot, hback] at hlength
      | some put => simp only [committed_some, ok_bind, sync_eq]

/-- Families with places go back one after the other without a fault. -/
theorem foldlM_demote_eq (h : e.tree.Sound none) (focused : NodeId) {families : List NodeId}
    (hnodup : families.Nodup) (hpar : ∀ x ∈ families, ∃ p, e.tree.parent x = some p) :
    families.foldlM (demote focused) e =
      .ok (families.foldl (fun e family => e.demote focused family) e) := by
  induction families generalizing e with
  | nil => rfl
  | cons family rest ih =>
    obtain ⟨hfamily, hrest⟩ := List.nodup_cons.mp hnodup
    obtain ⟨p, hparent⟩ := hpar family List.mem_cons_self
    obtain ⟨t', slot, hmove, ht', heq⟩ := Engine.demote_eq h hparent focused
    rw [List.foldlM_cons, demote_eq h hparent, ok_bind, List.foldl_cons, heq]
    -- The families that follow still stand where they stood.
    refine ih ht' hrest fun x hx => ?_
    obtain ⟨p', hp'⟩ := hpar x (List.mem_cons_of_mem family hx)
    have hne : x ≠ family := fun he => hfamily (he ▸ hx)
    exact ⟨p', by rw [← hp']; exact (hmove.parent x).trans (if_neg hne)⟩

theorem focus_eq (h : e.tree.Sound none) (w : H) : focus e w = .ok (e.focus w) := by
  rw [focus, Engine.focus]
  split
  · rfl
  · cases e.tree.get w with
    | none => rfl
    | some focused =>
      dsimp only
      split
      · rfl
      · -- Every family that goes back hangs from the root of a temporary band.
        have hpar : ∀ x ∈ Engine.demoted e.tree focused, ∃ p, e.tree.parent x = some p := by
          intro x hx
          obtain ⟨l, -, hl⟩ := ((Engine.mem_demoted_iff h).mp hx).1
          exact ⟨_, hl⟩
        rw [foldlM_demote_eq h focused (Engine.nodup_demoted h focused) hpar, ok_bind, pure_eq]

theorem addAt_eq (h : e.tree.Sound none) (w : H) (l : Layer) (pos : Position) :
    addAt e q w l pos = .ok (e.addAt q w l pos) := by
  cases hget : e.tree.get w with
  | some id =>
    have hcontains : e.tree.contains w = true := by rw [Tree.contains, hget]; rfl
    rw [addAt, Engine.addAt, if_pos hcontains, if_pos hcontains, pure_eq]
  | none =>
    obtain ⟨p, home, pos', _, _, _, hplace, -, -, -, -, hdone⟩ :=
      Engine.addAt_eq (q := q) h hget l pos
    have hcontains : ¬ e.tree.contains w = true := by simp [Tree.contains, hget]
    simp only [addAt, Engine.addAt, if_neg hcontains, hplace, Tree.addChild,
      create_eq fun x hx => ((h.mem_free x).mp hx).1, ok_bind] at hdone ⊢
    generalize e.tree.create w home = created at hdone ⊢
    obtain ⟨t₀, id⟩ := created
    simp only [attach_eq, ok_bind] at hdone ⊢
    cases hput : t₀.attach p id (pos'.slot (t₀.children p).length) with
    | none => simp [hput] at hdone
    | some put => simp only [committed_some, ok_bind, sync_eq, pure_eq]

theorem remove_eq (h : e.tree.Sound none) (w : H) : remove e w = .ok (e.remove w) := by
  rw [remove, destroy_eq h, ok_bind]
  cases hget : e.tree.get w with
  | none => simp only [Tree.destroy, Engine.remove, hget, pure_eq]
  | some id =>
    obtain ⟨p, hpar⟩ := h.exists_parent ((h.get_iff w id).mp hget)
    obtain ⟨below, above, hcs, hbelow, -⟩ := h.exists_split hpar
    obtain ⟨t', hdestroy, -⟩ := Tree.exists_destroy hget hpar (h.parent_ne hpar) hcs hbelow
      fun c hc => h.live_child hc
    simp only [Engine.remove, hdestroy, committed_some, ok_bind, sync_eq, pure_eq]

/-- No operation on a sound forest meets a fault. -/
theorem perform_eq (h : e.tree.Sound none) (q : Query H) (op : Op H) :
    perform e q op = .ok (e.perform q op) := by
  cases op with
  | add w => exact addAt_eq h w e.defaultLayer e.defaultPosition
  | addAt w l pos => exact addAt_eq h w l pos
  | remove w => exact remove_eq h w
  | up w => exact shift_eq h w .up
  | down w => exact shift_eq h w .down
  | toTop w => exact moveTo_eq h w .top
  | toBottom w => exact moveTo_eq h w .bottom
  | toLayer w l pos => exact moveToLayer_eq h w l pos
  | toFront w => exact moveToLayer_eq h w .bringToFront .top
  | fullscreen w on => exact setFullscreen_eq h w on
  | focus w => exact focus_eq h w

/-- The only window is its own child, so no forest like this is sound: once it is taken out
it can not be put back. -/
example : perform (H := Nat) ⟨⟨Tree.empty.nodes.push (some ⟨.window 1 .layout, some 11, [11]⟩), [],
    Index.empty.insert 1 11⟩, [], .layout, .top, true⟩ .blank (.toTop 1) = .error .halfway := by
  rfl

end Strict

/-! ## What an operation costs -/

namespace Engine

open ZOrder.Tree (root)

variable {H : Type} [DecidableEq H] {e e' : Engine H} {q : Query H} {op : Op H}
  {result : Bool × Engine H}

/-- How many requests it takes to send the family of a window to a band: one if it is there
already, else one for each of the two bands. -/
def bandCost (e : Engine H) (w : H) (l : Layer) : Nat := if e.layerOf w = some l then 1 else 2

/-- The requests that an operation queues on its way from `e` to `e'`. A window that leaves the
fullscreen band goes to another band, since its permanent band is not a temporary one. When
the focus moves there is one request for each family whose band changes, the head of the
family first. -/
def Costs (e e' : Engine H) (rs : List (Request H)) : Op H → Prop
  | .add _ | .addAt _ _ _ | .remove _ | .up _ | .down _ | .toTop _ | .toBottom _ => rs.length = 1
  | .toLayer w l _ => rs.length = e.bandCost w l
  | .toFront w => rs.length = e.bandCost w .bringToFront
  | .fullscreen w true => rs.length = e.bandCost w .fullscreen
  | .fullscreen _ false => rs.length = 2
  | .focus _ => ∃ heads : List H, heads.Nodup ∧
      (∀ f, f ∈ heads ↔ e.Heads f ∧ e'.layerOf f ≠ e.layerOf f) ∧
      rs.map (fun r => r.windows.head?) = heads.map some

/-- Each family that goes back is requested once, in turn. -/
theorem Demotes.queue {families : List NodeId} (h : Demotes e families e') :
    ∃ rs, e'.queue = e.queue ++ rs ∧
      rs.map (fun r => r.windows.head?) = families.map e.tree.handle := by
  induction h with
  | nil e => exact ⟨[], (List.append_nil _).symm, rfl⟩
  | @cons e e' family rest l home slot t' temporary home_eq relocates sound demotes ih =>
    obtain ⟨rs, hqueue, hheads⟩ := ih
    obtain ⟨w, hw⟩ := sound.exists_handle relocates.parent_eq.2
    refine ⟨t'.request family :: rs, ?_, ?_⟩
    · rw [hqueue, sync, List.map_singleton, List.append_assoc]
      rfl
    · rw [List.map_cons, sound.head?_request hw, hheads, List.map_cons,
        ← relocates.sameNodes.handle family, hw]
      exact congrArg (some w :: ·) (List.map_congr_left fun x _ => relocates.sameNodes.handle x)

/-- The families that go back are those whose band changes. -/
theorem Demotes.layerOf_ne_iff (he : e.Housed) (hs : e.tree.Sound none) {focused : NodeId}
    (h : Demotes e (demoted e.tree focused) e') {f : H} :
    f ∈ e.tree.handles (demoted e.tree focused) ↔ e.Heads f ∧ e'.layerOf f ≠ e.layerOf f := by
  have hs' : e'.tree.Sound none := h.changes.tree_sound hs
  have hparent := h.parent (nodup_demoted hs focused)
  rw [Tree.mem_handles]
  constructor
  · rintro ⟨x, hx, hf⟩
    have hget := (hs.get_iff f x).mpr hf
    obtain ⟨⟨l, htemporary, hpar⟩, -⟩ := (mem_demoted_iff hs).mp hx
    refine ⟨(heads_iff hs hget).mpr ⟨l, hpar⟩, ?_⟩
    -- The band it leaves is a temporary one, the band it goes to is not.
    obtain ⟨home, hhome⟩ := Tree.exists_home_iff.mpr ⟨f, hf⟩
    have hpar' := hparent x
    rw [if_pos hx, hhome, Option.map_some] at hpar'
    rw [layerOf_of_parent hs' ((h.sameNodes.get f).trans hget) hpar',
      layerOf_of_parent hs hget hpar]
    intro heq
    have hpermanent := he.tree.permanent x home hhome
    rw [Option.some.inj heq, htemporary] at hpermanent
    cases hpermanent
  · rintro ⟨hheads, hne⟩
    obtain ⟨x, hget⟩ := isStacked_iff_get.mp hheads.1
    obtain ⟨l, hpar⟩ := (heads_iff hs hget).mp hheads
    refine ⟨x, ?_, (hs.get_iff f x).mp hget⟩
    -- A family that stays where it is keeps its band.
    by_contra hx
    have hpar' := hparent x
    rw [if_neg hx, hpar] at hpar'
    exact hne ((layerOf_of_parent hs' ((h.sameNodes.get f).trans hget) hpar').trans
      (layerOf_of_parent hs hget hpar).symm)

/-- The band that a family leaves is restacked too, unless it is the same. -/
theorem length_bands (origin l : Layer) :
    (if root origin = root l then [root origin] else [root origin, root l]).length =
      if origin = l then 1 else 2 := by
  have hroots : root origin = root l ↔ origin = l := ⟨Tree.root_injective, congrArg root⟩
  simp only [hroots]
  split <;> rfl

/-- An operation that does anything adds to the queue what it costs. -/
theorem Effect.costs (h : Effect e q op result) (he : e.Housed) (hs : e.tree.Sound none)
    (htrue : result.1 = true) :
    ∃ rs, result.2.queue = e.queue ++ rs ∧ e.Costs result.2 rs op := by
  cases h with
  | refused untaken => cases htrue
  | added adds untracked place creates loose grafts sound =>
    refine ⟨_, rfl, ?_⟩
    cases adds <;> rfl
  | removed removes get parent destroys sound =>
    refine ⟨_, rfl, ?_⟩
    rw [removes]
    rfl
  | moved slides takes get relocates sound =>
    refine ⟨_, rfl, ?_⟩
    cases slides <;> rfl
  | @sent w origin l pos id family t' sends get below relocates sound =>
    refine ⟨_, rfl, ?_⟩
    have horigin : e.layerOf w = some origin :=
      layerOf_of_below hs get (.trans (.of_parent relocates.parent_eq.1 (.refl _ _)) below)
    have hcost : ∀ f : NodeId → Request H,
        ((if root origin = root l then [root origin] else [root origin, root l]).map f).length =
          e.bandCost w l := by
      intro f
      rw [List.length_map, length_bands, bandCost, horigin]
      simp only [Option.some.injEq]
    cases sends with
    | toLayer | toFront | enter => exact hcost _
    | leave full home_eq =>
      refine (hcost _).trans ?_
      obtain ⟨x, -, hhome⟩ := homeOf_eq_some_iff.mp home_eq
      have hpermanent := he.tree.permanent x l hhome
      rw [bandCost, full, if_neg]
      intro hl
      obtain rfl := Option.some.inj hl
      cases hpermanent
  | @demoted w focused e' focuses on get nonempty demotes =>
    obtain ⟨rs, hqueue, hheads⟩ := demotes.queue
    refine ⟨rs, hqueue, ?_⟩
    rw [focuses]
    refine ⟨e.tree.handles (Engine.demoted e.tree focused),
      hs.nodup_handles (nodup_demoted hs focused), fun f => demotes.layerOf_ne_iff he hs,
      hheads.trans ?_⟩
    -- Every node that goes back is a window.
    rw [Tree.handles, List.map_filterMap_some_eq_filter_map_isSome, eq_comm, List.filter_eq_self]
    intro o ho
    obtain ⟨x, hx, rfl⟩ := List.mem_map.mp ho
    obtain ⟨l, -, hpar⟩ := ((mem_demoted_iff hs).mp hx).1
    exact Option.isSome_iff_exists.mpr (hs.exists_handle hpar)

/-- Every operation of an engine that can be met is carried out without a fault. It answers
whether there is anything to do; if not it leaves the engine as it was, and if so it adds to the
queue what it costs. -/
theorem perform_allOrNothing (h : Reachable e) (q : Query H) (op : Op H) :
    Strict.perform e q op = .ok (e.perform q op) ∧
    ((e.perform q op).1 = true ↔ e.Takes q op) ∧
    ((e.perform q op).1 = false → (e.perform q op).2 = e) ∧
    ((e.perform q op).1 = true → ∃ rs, (e.perform q op).2.queue = e.queue ++ rs ∧
      e.Costs (e.perform q op).2 rs op) := by
  have heffect := perform_effect h.sound q op
  refine ⟨Strict.perform_eq h.sound q op, heffect.answer_iff, heffect.eq_of_refused, ?_⟩
  intro htrue
  exact heffect.costs h.housed h.sound htrue

/-- Window 2 takes the focus from window 1, which is at the front: 1 goes back. -/
theorem perform_allOrNothing_of_focus :
    ∃ e : Engine Nat, e.Reachable ∧
      Strict.perform e .blank (.focus 2) = .ok (e.perform .blank (.focus 2)) ∧
      (e.perform .blank (.fullscreen 1 false)).2 = e ∧
      (∃ rs, (e.perform .blank (.toLayer 1 .top .top)).2.queue = e.queue ++ rs ∧
        rs.length = 2) ∧
      ∃ rs, (e.perform .blank (.focus 2)).2.queue = e.queue ++ rs ∧
        ∃ heads : List Nat, 1 ∈ heads ∧ rs.map (fun r => r.windows.head?) = heads.map some := by
  have hreach : Reachable ((ofSettings {}).performAll
      [(.blank, .add 1), (.blank, .add 2), (.blank, .toFront 1)]) := .performAll (.start {}) _
  have hfocus := perform_allOrNothing hreach .blank (.focus 2)
  have hlayer := perform_allOrNothing hreach .blank (.toLayer 1 .top .top)
  have hleave := perform_allOrNothing hreach .blank (.fullscreen 1 false)
  refine ⟨_, hreach, hfocus.1, hleave.2.2.1 (by decide), ?_, ?_⟩
  · obtain ⟨rs, hqueue, hcost⟩ := hlayer.2.2.2 (by decide)
    exact ⟨rs, hqueue, hcost.trans (by decide)⟩
  · obtain ⟨rs, hqueue, heads, -, hmem, hheads⟩ := hfocus.2.2.2 (by decide)
    have hfront : Heads _ 1 :=
      (heads_iff hreach.sound (x := 11) (by decide)).mpr ⟨.bringToFront, by decide⟩
    exact ⟨rs, hqueue, heads, (hmem 1).mpr ⟨hfront, by decide⟩, hheads⟩

end Engine

end ZOrder
