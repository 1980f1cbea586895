/-
  ZOrder.Proofs.Engine.Change

  The effects of operations as series of changes. A change completes one move of the
  forest, or one addition, and then queues the requests it calls for; every operation
  but removal is a series of changes, and only `focus` needs several. What holds of
  every change therefore holds of every such operation, and of every run.
-/

import ZOrder.Proofs.Engine.Effect

namespace ZOrder.Engine

open ZOrder.Tree (Relocates SameShape Creates Grafts root)

variable {H : Type} [DecidableEq H] {e e' : Engine H}

/-- One change of a forest with the requests that it queues. -/
inductive Change (e : Engine H) : Engine H → Prop where
  /-- A window is created and attached. -/
  | add {w : H} {home : Layer} {p id : NodeId} {slot : Nat} {t₀ t' : Tree H}
      (untracked : e.tree.get w = none) (creates : Creates e.tree t₀ w home id)
      (loose : t₀.Sound (some id))
      (grafts : Grafts t₀ t' p id ((t₀.children p).take slot) ((t₀.children p).drop slot))
      (sound : t'.Sound none) : Change e ({ e with tree := t' }.sync [id])
  /-- A family moves and is restacked. -/
  | move {p p' id : NodeId} {slot : Nat} {t' : Tree H}
      (relocates : Relocates e.tree t' p p' id slot) (sound : t'.Sound none) :
      Change e ({ e with tree := t' }.sync [id])
  /-- A family moves between bands, which are restacked; permanent bands may change. -/
  | moveFamily {origin l : Layer} {family : NodeId} {slot : Nat} {t' t'' : Tree H}
      (relocates : Relocates e.tree t' (root origin) (root l) family slot)
      (sound : t'.Sound none) (homes : SameShape t' t'') :
      Change e ({ e with tree := t'' }.sync
        (if root origin = root l then [root origin] else [root origin, root l]))

theorem Change.tree_sound (h : Change e e') : e'.tree.Sound none := by
  cases h with
  | add _ _ _ _ sound => exact sound
  | move _ sound => exact sound
  | moveFamily _ sound homes => exact homes.sound sound

/-! ## Operations as series of changes -/

/-- A series of changes. -/
abbrev Changes : Engine H → Engine H → Prop := Relation.ReflTransGen Change

theorem Changes.tree_sound (h : Changes e e') (he : e.tree.Sound none) : e'.tree.Sound none := by
  induction h with
  | refl => exact he
  | tail _ hstep _ => exact hstep.tree_sound

theorem Demotes.changes {families : List NodeId} (h : Demotes e families e') : Changes e e' := by
  induction h with
  | nil e => exact .refl
  | cons temporary home_eq relocates sound _ ih => exact .head (.move relocates sound) ih

/-- Every effect but a removal is a series of changes. -/
theorem Effect.changes {q : Query H} {op : Op H} {result : Bool × Engine H}
    (h : Effect e q op result) (hop : ∀ w, op ≠ .remove w) : Changes e result.2 := by
  cases h with
  | refused untaken => exact .refl
  | added adds untracked place creates loose grafts sound =>
    exact .single (.add untracked creates loose grafts sound)
  | @removed w _ _ _ _ _ removes get parent destroys sound => exact absurd removes (hop w)
  | moved slides takes get relocates sound => exact .single (.move relocates sound)
  | @sent w origin l pos id family t' sends get below relocates sound =>
    -- A temporary band leaves the permanent bands of the family alone.
    refine .single (.moveFamily relocates sound ?_)
    split
    · exact .refl t'
    · exact Tree.sameShape_settle t' family l
  | demoted focuses on get nonempty demotes => exact demotes.changes

/-- Every operation but removal is a series of changes. -/
theorem perform_changes (h : e.tree.Sound none) (q : Query H) {op : Op H}
    (hop : ∀ w, op ≠ .remove w) : Changes e (e.perform q op).2 :=
  (perform_effect h q op).changes hop

theorem focus_changes (h : e.tree.Sound none) (w : H) : Changes e (e.focus w).2 :=
  Effect.changes (focus_effect (q := .blank) h w) fun _ hop => by cases hop

/-! ## Soundness of every run -/

theorem Effect.tree_sound {q : Query H} {op : Op H} {result : Bool × Engine H}
    (h : Effect e q op result) (he : e.tree.Sound none) : result.2.tree.Sound none := by
  cases h with
  | refused untaken => exact he
  | added adds untracked place creates loose grafts sound => exact sound
  | removed removes get parent destroys sound => exact sound
  | moved slides takes get relocates sound => exact sound
  | @sent w origin l pos id family t' sends get below relocates sound =>
    show (if l.isTemporary then t' else settle t' family l).Sound none
    split
    · exact sound
    · exact (Tree.sameShape_settle t' family l).sound sound
  | demoted focuses on get nonempty demotes => exact demotes.changes.tree_sound he

theorem perform_sound (h : e.tree.Sound none) (q : Query H) (op : Op H) :
    (e.perform q op).2.tree.Sound none :=
  (perform_effect h q op).tree_sound h

theorem remove_sound (h : e.tree.Sound none) (w : H) : (e.remove w).2.tree.Sound none :=
  perform_sound h .blank (.remove w)

theorem performAll_sound (h : e.tree.Sound none) (steps : List (Query H × Op H)) :
    (e.performAll steps).tree.Sound none := by
  induction steps generalizing e with
  | nil => exact h
  | cons step rest ih => exact ih (perform_sound h step.1 step.2)

end ZOrder.Engine
