/-
  ZOrder.Proofs.Engine.Owners

  Which window is attached to which, through a run. An operation attaches a new window to
  its owner, and a removal hands the windows attached to the window that goes on to its
  owner; no other operation makes or breaks such a link, wherever it moves the windows.

  So a window that was added while its owner was tracked stays with it, and where the
  answers about owners do not change, a window lies only under the owners that they lead to.
-/

import ZOrder.Proofs.Engine.Homes

namespace ZOrder.Engine

open ZOrder.Tree (Relocates Creates Grafts Destroys root)

variable {H : Type} [DecidableEq H] {e e' : Engine H} {q : Query H} {op : Op H}
  {result : Bool × Engine H} {o w : H}

/-! ## Links made and broken -/

theorem Owns.isStacked (h : e.Owns o w) : e.isStacked o = true ∧ e.isStacked w = true := by
  obtain ⟨x, y, hx, hy, -⟩ := h
  exact ⟨isStacked_iff_get.mpr ⟨x, hx⟩, isStacked_iff_get.mpr ⟨y, hy⟩⟩

/-- An operation starts to track the window `w` while it is known to be a dialog of the
tracked window `o`. -/
structure Attaches (e : Engine H) (q : Query H) (op : Op H) (o w : H) : Prop where
  adds : ∃ l pos, Adds e w op l pos
  untracked : e.isStacked w = false
  owner : q.owner w = some o
  ne : o ≠ w
  tracked : e.isStacked o = true

/-- A new window is attached to its owner if that is tracked, and else to a band. -/
theorem placeFor_cases {l home : Layer} {pos pos' : Position} {p : NodeId}
    (hplace : e.placeFor q w l pos = (p, home, pos')) :
    (∃ o, q.owner w = some o ∧ o ≠ w ∧ e.tree.get o = some p) ∨
      p = root l ∧ ∀ o, q.owner w = some o → o ≠ w → e.tree.get o = none := by
  rw [placeFor] at hplace
  split at hplace
  · next owner howner =>
    obtain ⟨o, ho, hget⟩ := Option.bind_eq_some_iff.mp howner
    obtain ⟨hq, hne⟩ := Option.filter_eq_some_iff.mp ho
    cases hplace
    exact .inl ⟨o, hq, by simpa using hne, hget⟩
  · next hnone =>
    cases hplace
    refine .inr ⟨rfl, fun o ho hne => ?_⟩
    rw [ownerNode, ho] at hnone
    simpa [Option.filter, hne] using hnone

/-- Where every window keeps its node, and what is attached to the nodes of windows stays
so, the owners are the same. -/
theorem owns_congr (hget : ∀ v, e'.tree.get v = e.tree.get v)
    (hparent : ∀ x p v, e.tree.get v = some p →
      (e'.tree.parent x = some p ↔ e.tree.parent x = some p)) :
    e'.Owns o w ↔ e.Owns o w := by
  constructor
  · rintro ⟨x, y, hx, hy, hp⟩
    rw [hget] at hx hy
    exact ⟨x, y, hx, hy, (hparent y x o hx).mp hp⟩
  · rintro ⟨x, y, hx, hy, hp⟩
    exact ⟨x, y, (hget o).trans hx, (hget w).trans hy, (hparent y x o hx).mpr hp⟩

/-- A family that moves below the same node, or from band to band, stays attached to the
same windows. -/
theorem relocates_parent_iff {t t' : Tree H} {p p' id : NodeId} {slot : Nat} (hs : t.Sound none)
    (hrel : Relocates t t' p p' id slot)
    (hbands : p = p' ∨ ∃ k l, p = root k ∧ p' = root l) {x a : NodeId} {v : H}
    (ha : t.get v = some a) : t'.parent x = some a ↔ t.parent x = some a := by
  have hparent := hrel.parent x
  by_cases hx : x = id
  · subst hx
    rw [hrel.parent_eq.1, hrel.parent_eq.2]
    rcases hbands with rfl | ⟨k, l, rfl, rfl⟩
    · exact Iff.rfl
    · -- The node of a window is the root of no band.
      have hne := hs.ne_root ((hs.get_iff v a).mp ha)
      have hk : root k ≠ a := fun he => hne k he.symm
      have hl : root l ≠ a := fun he => hne l he.symm
      simp [hk, hl]
  · rw [hparent, if_neg hx]

/-- Families that go back to their bands stay attached to no window. -/
theorem Demotes.owns_iff {families : List NodeId} (h : Demotes e families e')
    (hs : e.tree.Sound none) : e'.Owns o w ↔ e.Owns o w := by
  induction h with
  | nil e => exact Iff.rfl
  | @cons e e' family rest l home slot t' temporary home_eq relocates sound demotes ih =>
    refine (ih sound).trans (owns_congr (fun v => relocates.sameNodes.get v) ?_)
    intro x p v hv
    exact relocates_parent_iff hs relocates (.inr ⟨l, home, rfl, rfl⟩) hv

/-- A new window has the owner that it is attached to, and nobody else's owner changes. -/
theorem owns_iff_of_added {v : H} {l home : Layer} {pos pos' : Position} {p id : NodeId}
    {t₀ t' : Tree H} {below above : List NodeId} (hs : e.tree.Sound none)
    (adds : Adds e v op l pos) (untracked : e.tree.get v = none)
    (place : e.placeFor q v l pos = (p, home, pos')) (creates : Creates e.tree t₀ v home id)
    (grafts : Grafts t₀ t' p id below above) (hs' : t'.Sound none) (htree : e'.tree = t') :
    e'.Owns o w ↔ e.Owns o w ∨ Attaches e q op o w := by
  subst htree
  have hid : e'.tree.get v = some id := by
    rw [hs'.get_iff, grafts.toSameNodes.handle, creates.handle, if_pos rfl]
  have hold : ∀ u, u ≠ v → e'.tree.get u = e.tree.get u := by
    intro u hu
    rw [grafts.toSameNodes.get, Tree.get, creates.index, Index.find?_insert_of_ne _ _ hu, Tree.get]
  have hparent : ∀ y, e'.tree.parent y = if y = id then some p else e.tree.parent y := by
    intro y
    rw [grafts.parent, creates.parent]
  have hfresh : ∀ u y, e.tree.get u = some y → y ≠ id := by
    intro u y hy he
    exact creates.fresh (he ▸ Tree.live_of_handle ((hs.get_iff u y).mp hy))
  constructor
  · rintro ⟨x, y, hx, hy, hp⟩
    by_cases hw : w = v
    · -- The new window hangs from `p`, which is the node of its owner or the root of a band.
      subst hw
      obtain rfl := Option.some.inj (hid.symm.trans hy)
      rw [hparent, if_pos rfl] at hp
      obtain rfl := Option.some.inj hp
      rcases placeFor_cases place with ⟨u, hu, hne, hget⟩ | ⟨hroot, -⟩
      · have hux := (hs'.get_iff u p).mp ((hold u hne).trans hget)
        obtain rfl : u = o := Option.some.inj (hux.symm.trans ((hs'.get_iff o p).mp hx))
        exact .inr ⟨⟨l, pos, adds⟩, isStacked_eq_false_iff.mpr untracked, hu, hne,
          isStacked_iff_get.mpr ⟨p, hget⟩⟩
      · exact absurd hroot (hs'.ne_root ((hs'.get_iff o p).mp hx) l)
    · -- The owner of another window was there before.
      rw [hold w hw] at hy
      rw [hparent, if_neg (hfresh w y hy)] at hp
      have hne : o ≠ v := by
        rintro rfl
        obtain rfl := Option.some.inj (hid.symm.trans hx)
        exact creates.fresh (hs.live_parent hp)
      exact .inl ⟨x, y, (hold o hne) ▸ hx, hy, hp⟩
  · have hne : ∀ u, e.isStacked u = true → u ≠ v := by
      rintro u hu rfl
      rw [isStacked_eq_false_iff.mpr untracked] at hu
      cases hu
    rintro (howns | hattaches)
    · obtain ⟨ho, hw⟩ := howns.isStacked
      obtain ⟨x, y, hx, hy, hp⟩ := howns
      refine ⟨x, y, (hold o (hne o ho)).trans hx, (hold w (hne w hw)).trans hy, ?_⟩
      rw [hparent, if_neg (hfresh w y hy), hp]
    · obtain ⟨k, pos'', hadds⟩ := hattaches.adds
      obtain rfl : w = v := by
        cases adds <;> cases hadds <;> rfl
      obtain ⟨x, hx⟩ := isStacked_iff_get.mp hattaches.tracked
      rcases placeFor_cases place with ⟨u, hu, -, hget⟩ | ⟨-, hnone⟩
      · obtain rfl : u = o := Option.some.inj (hu.symm.trans hattaches.owner)
        exact ⟨p, id, (hold u hattaches.ne).trans hget, hid, by rw [hparent, if_pos rfl]⟩
      · rw [hnone o hattaches.owner hattaches.ne] at hx
        cases hx

/-- The windows attached to a window that goes are handed on to its owner. -/
theorem owns_iff_of_removed {v : H} {p id : NodeId} {t' : Tree H} {below above : List NodeId}
    (hs : e.tree.Sound none) (get : e.tree.get v = some id) (parent : e.tree.parent id = some p)
    (destroys : Destroys e.tree t' v p id below above) (htree : e'.tree = t') :
    e'.Owns o w ↔ (e.Owns o w ∧ o ≠ v ∧ w ≠ v) ∨ (e.Owns o v ∧ e.Owns v w) := by
  subst htree
  have hgone : e'.tree.get v = none := by
    rw [Tree.get, destroys.index, Index.find?_erase_self]
  have hold : ∀ u, u ≠ v → e'.tree.get u = e.tree.get u := by
    intro u hu
    rw [Tree.get, destroys.index, Index.find?_erase_of_ne _ hu, Tree.get]
  have hne : ∀ {u y}, e.tree.get u = some y → u ≠ v → y ≠ id := by
    rintro u y hy hu rfl
    have hhandle := (hs.get_iff u y).mp hy
    rw [(hs.get_iff v y).mp get] at hhandle
    exact hu (Option.some.inj hhandle).symm
  constructor
  · rintro ⟨x, y, hx, hy, hp⟩
    have ho : o ≠ v := by
      rintro rfl
      rw [hgone] at hx
      cases hx
    have hw : w ≠ v := by
      rintro rfl
      rw [hgone] at hy
      cases hy
    rw [hold o ho] at hx
    rw [hold w hw] at hy
    rw [destroys.parent, if_neg (hne hy hw)] at hp
    split at hp
    · next hchild =>
      obtain rfl := Option.some.inj hp
      exact .inr ⟨⟨p, id, hx, get, parent⟩, ⟨id, y, get, hy, (hs.parent_iff y id).mpr hchild⟩⟩
    · exact .inl ⟨⟨x, y, hx, hy, hp⟩, ho, hw⟩
  · rintro (⟨⟨x, y, hx, hy, hp⟩, ho, hw⟩ | ⟨⟨x, y, hx, hy, hp⟩, ⟨y', z, hy', hz, hp'⟩⟩)
    · -- A window with another owner is none of those handed on.
      have hchild : y ∉ e.tree.children id := by
        intro hmem
        have hyid := (hs.parent_iff y id).mpr hmem
        exact hne hx ho (Option.some.inj (hp.symm.trans hyid))
      refine ⟨x, y, (hold o ho).trans hx, (hold w hw).trans hy, ?_⟩
      rw [destroys.parent, if_neg (hne hy hw), if_neg hchild, hp]
    · obtain rfl := Option.some.inj (get.symm.trans hy)
      obtain rfl := Option.some.inj (get.symm.trans hy')
      obtain rfl := Option.some.inj (parent.symm.trans hp)
      have ho : o ≠ v := by
        rintro rfl
        exact hs.parent_ne parent (Option.some.inj (hx.symm.trans get))
      have hw : w ≠ v := by
        rintro rfl
        exact hs.parent_ne hp' (Option.some.inj (get.symm.trans hz))
      refine ⟨p, z, (hold o ho).trans hx, (hold w hw).trans hz, ?_⟩
      rw [destroys.parent, if_neg (hne hz hw), if_pos ((hs.parent_iff z id).mp hp')]

/-- An operation that neither adds nor removes a window breaks no link and makes none. -/
theorem owns_iff_of_kept (hremove : ∀ v, op = .remove v → e.isStacked v = false)
    (hattach : ¬ Attaches e q op o w) (hiff : e'.Owns o w ↔ e.Owns o w) :
    e'.Owns o w ↔ (e.Owns o w ∧ op ≠ .remove o ∧ op ≠ .remove w) ∨ Attaches e q op o w ∨
      ∃ v, op = .remove v ∧ e.Owns o v ∧ e.Owns v w := by
  have hkept : ∀ u, e.isStacked u = true → op ≠ .remove u := by
    intro u hu he
    rw [hremove u he] at hu
    cases hu
  rw [hiff]
  constructor
  · intro howns
    exact .inl ⟨howns, hkept o howns.isStacked.1, hkept w howns.isStacked.2⟩
  · rintro (⟨howns, -⟩ | hattaches | ⟨v, hv, hov, -⟩)
    · exact howns
    · exact absurd hattaches hattach
    · exact absurd hv (hkept v hov.isStacked.2)

/-- The owner of each window after an operation: the one it had if both are still tracked,
the one that a new window is attached to, or the one that it is handed on to. -/
theorem Effect.owns_iff (h : Effect e q op result) (hs : e.tree.Sound none) :
    result.2.Owns o w ↔
      (e.Owns o w ∧ op ≠ .remove o ∧ op ≠ .remove w) ∨ Attaches e q op o w ∨
        ∃ v, op = .remove v ∧ e.Owns o v ∧ e.Owns v w := by
  have hadds : ∀ {u l pos}, Adds e u op l pos → ∀ v, op ≠ .remove v := by
    intro u l pos hop v he
    cases hop <;> cases he
  cases h with
  | refused untaken =>
    refine owns_iff_of_kept (fun v hv => ?_) (fun hattaches => untaken ?_) Iff.rfl
    · subst hv
      exact Bool.not_eq_true _ ▸ untaken
    · obtain ⟨l, pos, hop⟩ := hattaches.adds
      have hfree := hattaches.untracked
      cases hop <;> exact hfree
  | added adds untracked place creates loose grafts sound =>
    have hnone := hadds adds
    rw [owns_iff_of_added hs adds untracked place creates grafts sound rfl]
    simp [hnone]
  | @removed v p id below above t' removes get parent destroys sound =>
    subst removes
    rw [owns_iff_of_removed hs get parent destroys rfl]
    have hattach : ¬ Attaches e q (.remove v) o w := by
      rintro ⟨⟨l, pos, hop⟩, -⟩
      cases hop
    simp [hattach, eq_comm]
  | @moved v p id slot t' slides takes get relocates sound =>
    refine owns_iff_of_kept (fun u hu => ?_) (fun hattaches => ?_) ?_
    · cases slides <;> cases hu
    · obtain ⟨l, pos, hop⟩ := hattaches.adds
      cases slides <;> cases hop
    · refine owns_congr (fun u => relocates.sameNodes.get u) ?_
      intro x a u ha
      exact relocates_parent_iff hs relocates (.inl rfl) ha
  | @sent v origin l pos id family t' sends get below relocates sound =>
    refine owns_iff_of_kept (fun u hu => ?_) (fun hattaches => ?_) ?_
    · cases sends <;> cases hu
    · obtain ⟨k, pos', hop⟩ := hattaches.adds
      cases sends <;> cases hop
    · -- Where a family settles plays no part in who owns whom.
      have hshape : Tree.SameShape t' (if l.isTemporary then t' else settle t' family l) := by
        split
        · exact .refl t'
        · exact Tree.sameShape_settle t' family l
      refine owns_congr (fun u => ?_) ?_
      · exact (congrArg (·.find? u) hshape.index).trans (relocates.sameNodes.get u)
      · intro x a u ha
        have hmoved := relocates_parent_iff hs relocates (.inr ⟨origin, l, rfl, rfl⟩) (x := x) ha
        have hkept := hshape.parent x
        rw [← hkept] at hmoved
        exact hmoved
  | demoted focuses on get nonempty demotes =>
    subst focuses
    refine owns_iff_of_kept (fun u hu => ?_) (fun hattaches => ?_) (demotes.owns_iff hs)
    · cases hu
    · obtain ⟨l, pos, hop⟩ := hattaches.adds
      cases hop

/-! ## A window with its owner -/

/-- A window stands with its owner: attached to it, in one band with it and at home in the same
one, and above it on the screen with only windows nested under the owner between the two. -/
structure Attends (e : Engine H) (o w : H) : Prop where
  owns : e.Owns o w
  layer : ∃ l, e.layerOf o = some l ∧ e.layerOf w = some l
  home : ∃ l, e.homeOf o = some l ∧ e.homeOf w = some l
  order : ∃ below between above, e.zOrder = below ++ o :: between ++ w :: above ∧
    ∀ v ∈ between, e.Nests o v

/-- Between a window and one nested under it there are only windows nested under it. -/
theorem exists_between (h : e.tree.Sound none) (hnests : e.Nests o w) :
    ∃ below between above, e.zOrder = below ++ o :: between ++ w :: above ∧
      ∀ v ∈ between, e.Nests o v := by
  obtain ⟨x, y, hx, hy, hne, hxy⟩ := (nests_iff h).mp hnests
  have hxo := (h.get_iff o x).mp hx
  have hyw := (h.get_iff w y).mp hy
  have hlive := Tree.live_of_handle hxo
  obtain ⟨l, hl⟩ := h.exists_root hlive
  obtain ⟨before, after, horder⟩ := h.run_infix_order hl
  -- The run of `o` starts with `o`, and `w` is further on.
  have hrun := h.head_run hxo
  have hmem : y ∈ e.tree.run x := h.mem_run.mpr ⟨hlive, hxy, w, hyw⟩
  rw [hrun] at hmem
  have htail := (List.mem_cons.mp hmem).resolve_left hne.symm
  obtain ⟨inner, rest, hsplit⟩ := List.append_of_mem htail
  rw [hsplit] at hrun
  refine ⟨e.tree.handles before, e.tree.handles inner, e.tree.handles (rest ++ after), ?_, ?_⟩
  · rw [zOrder, ← horder, hrun]
    simp [Tree.handles, hxo, hyw]
  · intro v hv
    obtain ⟨z, hz, hzv⟩ := Tree.mem_handles.mp hv
    have hzrun : z ∈ e.tree.run x := by
      rw [hrun]
      simp [hz]
    have hnodup := h.nodup_run x
    rw [hrun] at hnodup
    have hzx : x ≠ z := by
      rintro rfl
      exact (List.nodup_cons.mp hnodup).1 (by simp [hz])
    exact (nests_iff h).mpr ⟨x, z, hx, (h.get_iff v z).mpr hzv, hzx, (h.mem_run.mp hzrun).2.1⟩

theorem Reachable.attends (h : Reachable e) (howns : e.Owns o w) : e.Attends o w := by
  have hs := h.sound
  have hnests : e.Nests o w := .single howns
  obtain ⟨ho, hw⟩ := howns.isStacked
  obtain ⟨home, hhome, -⟩ := h.housed.exists_homeOf hs ho
  have hsame := h.housed.homeOf_of_nests hs hnests
  refine ⟨howns, ?_, ⟨home, hhome, hsame.trans hhome⟩, exists_between hs hnests⟩
  obtain ⟨x, y, hx, hy, hp⟩ := howns
  obtain ⟨l, hl⟩ := hs.exists_root (Tree.live_of_handle ((hs.get_iff o x).mp hx))
  exact ⟨l, layerOf_of_below hs hx hl, layerOf_of_below hs hy (.of_parent hp hl)⟩

/-! ## Runs -/

/-- A window keeps its owner through a run that removes neither. -/
theorem Owns.performAll (howns : e.Owns o w) (hs : e.tree.Sound none)
    {steps : List (Query H × Op H)}
    (hsteps : ∀ step ∈ steps, step.2 ≠ .remove o ∧ step.2 ≠ .remove w) :
    (e.performAll steps).Owns o w := by
  induction steps generalizing e with
  | nil => exact howns
  | cons step rest ih =>
    have heffect := perform_effect hs step.1 step.2
    have hkept := (heffect.owns_iff hs).mpr (.inl ⟨howns, hsteps step List.mem_cons_self⟩)
    exact ih hkept (perform_sound hs step.1 step.2)
      fun s hmem => hsteps s (List.mem_cons_of_mem step hmem)

/-- An answer about owners that leads from one window to another, in one step or in more. -/
def LeadsTo (owner : H → Option H) : H → H → Prop :=
  Relation.TransGen fun w o => owner w = some o

/-- What one operation does not break: every owner is one that the answers lead to. -/
theorem Effect.leadsTo (h : Effect e q op result) (hs : e.tree.Sound none)
    (hle : ∀ o w, e.Owns o w → LeadsTo q.owner w o) (howns : result.2.Owns o w) :
    LeadsTo q.owner w o := by
  rcases (h.owns_iff hs).mp howns with ⟨hold, -⟩ | hattaches | ⟨v, -, hov, hvw⟩
  · exact hle o w hold
  · exact .single hattaches.owner
  · -- A window that is handed on is led on from its old owner.
    exact (hle v w hvw).trans (hle o v hov)

theorem leadsTo_performAll {owner : H → Option H} (hs : e.tree.Sound none)
    (hle : ∀ o w, e.Owns o w → LeadsTo owner w o) {steps : List (Query H × Op H)}
    (hsteps : ∀ step ∈ steps, step.1.owner = owner) :
    ∀ o w, (e.performAll steps).Owns o w → LeadsTo owner w o := by
  induction steps generalizing e with
  | nil => exact hle
  | cons step rest ih =>
    refine ih (perform_sound hs step.1 step.2) ?_ fun s hmem =>
      hsteps s (List.mem_cons_of_mem step hmem)
    intro o w howns
    have howner := hsteps step List.mem_cons_self
    subst howner
    exact (perform_effect hs step.1 step.2).leadsTo hs hle howns

theorem not_owns_ofSettings (s : Settings) : ¬ (ofSettings s : Engine H).Owns o w := by
  rintro ⟨x, y, hx, -, -⟩
  cases hx

/-- Windows stay with their owners. A window that is added while it is known to be a dialog of
a tracked window stands with that window, whatever is done, until one of the two is removed.
Where the answers about owners do not change, they lead from each window to every window that
it is nested under, also when they go round in a circle. -/
theorem dialogs_attend_owners :
    (∀ (e : Engine H) (q : Query H) (op : Op H) (o w : H), e.Reachable →
      Attaches e q op o w → ∀ steps : List (Query H × Op H),
        (∀ step ∈ steps, step.2 ≠ .remove o ∧ step.2 ≠ .remove w) →
        ((e.perform q op).2.performAll steps).Attends o w) ∧
    ∀ (s : Settings) (owner : H → Option H) (steps : List (Query H × Op H)),
      (∀ step ∈ steps, step.1.owner = owner) →
      ∀ o w, ((ofSettings s).performAll steps).Nests o w →
        Relation.TransGen (fun w o => owner w = some o) w o := by
  constructor
  · intro e q op o w hreach hattaches steps hsteps
    have hs := hreach.sound
    have howns := ((perform_effect hs q op).owns_iff hs).mpr (.inr (.inl hattaches))
    have hreach' : Reachable (e.perform q op).2 := .perform q op hreach
    exact (hreach'.performAll steps).attends (howns.performAll hreach'.sound hsteps)
  · intro s owner steps hsteps o w hnests
    have hle := leadsTo_performAll (e := ofSettings s) Tree.sound_empty
      (fun o w howns => absurd howns (not_owns_ofSettings s)) hsteps
    -- Each link on the way down from `o` is one on the way back from `w`.
    induction hnests with
    | single howns => exact hle _ _ howns
    | tail _ howns ih => exact (hle _ _ howns).trans ih

/-- Two windows that each call the other their owner: the second one is a dialog of the first,
and stays with it when the first one goes to the front and to another band. -/
theorem dialogs_attend_owners_of_circle :
    let owner : Nat → Option Nat := fun w =>
      if w = 1 then some 2 else if w = 2 then some 1 else none
    let q := { Query.blank with owner := owner }
    ((((ofSettings {}).performAll [(q, .add 1)]).perform q (.add 2)).2.performAll
        [(q, .toFront 1), (q, .add 3), (q, .toLayer 2 .top .top), (q, .remove 3)]).Attends 1 2 ∧
      Relation.TransGen (fun w o => owner w = some o) 2 1 := by
  intro owner q
  constructor
  · refine dialogs_attend_owners.1 _ q (.add 2) 1 2 (.performAll (.start {}) _) ?_ _ (by simp)
    exact ⟨⟨_, _, .add⟩, by decide, rfl, by decide, by decide⟩
  · exact dialogs_attend_owners.2 {} owner [(q, .add 1), (q, .add 2)] (by simp [q]) 1 2
      (.single ⟨11, 12, by decide, by decide, by decide⟩)

end ZOrder.Engine
