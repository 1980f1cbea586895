/-
  ZOrder.Proofs.Engine.Delivery

  The queue of an engine tells a flat stack all it has to know. Every change queues
  requests that turn the old order of the screen into the new one when they are
  carried out one by one; so do series of changes, and so does every run of
  operations that removes no window.

  A family that moves between bands needs two requests, both computed after the move.
  The first is for the band that the family has left; the family is still there on the
  stack, and may end up anywhere near the band. The second puts the family, with the
  rest of its new band, where it belongs.
-/

import ZOrder.Proofs.Engine.Reachable
import ZOrder.Proofs.Engine.Requests

namespace ZOrder

/-! ## One move of a forest -/

namespace Tree

variable {H : Type} {t t' : Tree H}

theorem SameShape.request_eq {loose : Option NodeId} (h : SameShape t t')
    (ht : t.Linked loose) (x : NodeId) : t'.request x = t.request x := by
  have hhandle : t'.handle = t.handle := funext h.handle
  simp only [request, requestIn, anchorIn, handles, h.run_eq ht, h.order_eq ht, hhandle]

variable [DecidableEq H] {p q id : NodeId} {slot : Nat}

omit [DecidableEq H] in
theorem Relocates.handles_eq (h : Relocates t t' p q id slot) : t'.handles = t.handles :=
  funext fun ids => handles_congr h.sameNodes.handle ids

/-- The run of a window that moves is its family, before and after. -/
theorem Relocates.run_eq (h : Relocates t t' p q id slot) (ht : t.Sound none)
    (ht' : t'.Sound none) : t'.run id = t.descendants id := by
  obtain ⟨w, hw⟩ := ht'.exists_handle h.parent_eq.2
  rw [ht'.run_of_handle hw, h.descendants_eq ht ht']

/-- The windows outside a family that moves keep their order. -/
theorem Relocates.windows_filter_eq (h : Relocates t t' p q id slot) (ht : t.Sound none)
    (ht' : t'.Sound none) :
    (t.handles t.order).filter (· ∉ t'.handles (t'.run id)) =
      (t'.handles t'.order).filter (· ∉ t'.handles (t'.run id)) := by
  rw [h.handles_eq, h.run_eq ht ht', ← ht.handles_filter, ← ht.handles_filter,
    h.order_filter_eq ht ht']

/-- A move changes no window for another. -/
theorem Relocates.windows_subset (h : Relocates t t' p q id slot) (ht : t.Sound none) :
    t'.handles t'.order ⊆ t.handles t.order := by
  intro w hw
  obtain ⟨x, -, hx⟩ := mem_handles.mp hw
  rw [h.sameNodes.handle] at hx
  exact mem_handles.mpr ⟨x, ht.mem_order_iff.mpr ⟨w, hx⟩, hx⟩

/-- One request is enough for a family that moves within what lies below a node. -/
theorem Relocates.apply_request (h : Relocates t t' p q id slot) (ht : t.Sound none)
    (ht' : t'.Sound none) {a : NodeId} (ha : t'.Below a id) :
    FlatStack.apply ⟨t.handles t.order⟩ (t'.request a) = ⟨t'.handles t'.order⟩ :=
  ht'.apply_request_of_below ha (h.windows_filter_eq ht ht')

/-- The request for the band that a family has left puts all but the family in order. -/
theorem Relocates.filter_apply_origin {origin l : Layer}
    (h : Relocates t t' (root origin) (root l) id slot) (ht : t.Sound none) (ht' : t'.Sound none)
    (hne : origin ≠ l) :
    (FlatStack.apply ⟨t.handles t.order⟩ (t'.request (root origin))).order.filter
        (· ∉ t'.handles (t'.run id)) =
      (t'.handles t'.order).filter (· ∉ t'.handles (t'.run id)) := by
  by_cases hrun : t'.run (root origin) = []
  · -- The band is empty now, and its request does nothing.
    have hwindows : (t'.request (root origin)).windows = [] := by rw [request_windows, hrun]; rfl
    rw [FlatStack.apply_of_nil _ hwindows]
    exact h.windows_filter_eq ht ht'
  · -- The rest of the band goes between the bands around it, where the family still is.
    have horder := t'.order_eq_append origin
    have hnodup := ht'.nodup_zOrder
    have hdisj : List.Disjoint (t'.handles (t'.run (root origin))) (t'.handles (t'.run id)) := by
      have hfamily : t'.handles (t'.run id) ⊆ t'.handles (t'.run (root l)) :=
        ((ht'.run_infix (.of_parent h.parent_eq.2 (Below.refl t' _))).filterMap t'.handle).subset
      exact fun w hw hmem =>
        ht'.disjoint_handles (ht'.disjoint_run_root hne) hw (hfamily hmem)
    rw [ht'.request_eq horder hrun, horder, handles_append, handles_append]
    rw [horder, handles_append, handles_append] at hnodup
    rw [FlatStack.filter_apply_between hnodup.of_append_left.of_append_left hdisj]
    · rw [List.filter_append, List.filter_append, filter_notMem_of_disjoint hdisj]
    · have horigin := congrArg t'.handles (h.order_filter_origin ht ht' hne)
      rw [← h.run_eq ht ht', handles_append, handles_append, ht'.handles_filter,
        ht'.handles_filter, ht'.handles_filter] at horigin
      rw [← h.handles_eq]
      exact horigin

/-- Two requests are enough for a family that moves to another band. -/
theorem Relocates.apply_requests {origin l : Layer}
    (h : Relocates t t' (root origin) (root l) id slot) (ht : t.Sound none) (ht' : t'.Sound none)
    (hne : origin ≠ l) :
    FlatStack.apply (FlatStack.apply ⟨t.handles t.order⟩ (t'.request (root origin)))
      (t'.request (root l)) = ⟨t'.handles t'.order⟩ :=
  ht'.apply_request_of_below (.of_parent h.parent_eq.2 (Below.refl t' _))
    (h.filter_apply_origin ht ht' hne)

/-- One request is enough for a new window. -/
theorem Creates.apply_request {t₀ : Tree H} {w : H} {home : Layer} {below above : List NodeId}
    (h : Creates t t₀ w home id) (hto : Grafts t₀ t' p id below above) (ht : t.Sound none)
    (ht₀ : t₀.Sound (some id)) (ht' : t'.Sound none) :
    FlatStack.apply ⟨t.handles t.order⟩ (t'.request id) = ⟨t'.handles t'.order⟩ := by
  have hid : t'.handle id = some w := by rw [hto.toSameNodes.handle, h.handle, if_pos rfl]
  have hrun : t'.run id = t₀.descendants id := by
    rw [ht'.run_of_handle hid, hto.descendants_family ht₀.toLinked ht'.toLinked]
  -- The window is not on the stack, nor listed anywhere in the old forest.
  have hold : t.handles t.order = t'.handles t.order := by
    refine List.filterMap_congr fun x hx => ?_
    have hne : x ≠ id := by
      rintro rfl
      obtain ⟨v, hv⟩ := ht.mem_order_iff.mp hx
      exact h.fresh (live_of_handle hv)
    rw [hto.toSameNodes.handle, h.handle, if_neg hne]
  have hrest : t.handles t.order =
      (t'.handles t'.order).filter (· ∉ t'.handles (t'.run id)) := by
    rw [hold, ← ht'.handles_filter, hrun, ← h.order_eq ht ht₀, hto.order_eq_filter ht₀ ht']
  exact ht'.apply_request (by rw [hrest, filter_notMem_twice])

end Tree

/-! ## Changes and runs -/

namespace Engine

open ZOrder.Tree (root)

variable {H : Type} [DecidableEq H] {e e' e'' : Engine H}

/-- The requests queued on the way from `e` to `e'` take the order of the screen along. -/
def Delivers (e e' : Engine H) : Prop :=
  ∃ rs, e'.queue = e.queue ++ rs ∧ FlatStack.Realizes rs e.zOrder e'.zOrder

theorem Delivers.refl (e : Engine H) : Delivers e e :=
  ⟨[], (List.append_nil e.queue).symm, .refl e.zOrder⟩

theorem Delivers.trans (h : Delivers e e') (h' : Delivers e' e'') : Delivers e e'' := by
  obtain ⟨rs, hqueue, hrs⟩ := h
  obtain ⟨rs', hqueue', hrs'⟩ := h'
  exact ⟨rs ++ rs', by rw [hqueue', hqueue, List.append_assoc], hrs.trans hrs'⟩

theorem Change.delivers (h : Change e e') (he : e.tree.Sound none) : Delivers e e' := by
  cases h with
  | @add w home p id slot t₀ t' untracked creates loose grafts sound =>
    exact ⟨[t'.request id], rfl, .of_names_single (creates.apply_request grafts he loose sound)
      fun v hv => sound.mem_of_names hv⟩
  | @move p p' id slot t' relocates sound =>
    exact ⟨[t'.request id], rfl, .of_names_single
      (relocates.apply_request he sound (.refl t' id)) fun v hv => sound.mem_of_names hv⟩
  | @moveFamily origin l family slot t' t'' relocates sound homes =>
    have hrequest := homes.request_eq sound.toLinked
    have horder : t''.handles t''.order = t'.handles t'.order := by
      rw [homes.order_eq sound.toLinked]
      exact Tree.handles_congr homes.handle t'.order
    -- Permanent bands play no part in requests, so `t'` will do for `t''`.
    by_cases hne : origin = l
    · refine ⟨[t''.request (root l)], by simp [hne, sync, Tree.request], ?_⟩
      show FlatStack.Realizes [t''.request (root l)] e.zOrder (t''.handles t''.order)
      rw [hrequest, horder]
      exact .of_names_single (relocates.apply_request he sound
        (.of_parent relocates.parent_eq.2 (.refl t' _))) fun v hv => sound.mem_of_names hv
    · have hroot : root origin ≠ root l := fun hr => hne (Tree.root_injective hr)
      refine ⟨[t''.request (root origin), t''.request (root l)],
        by simp [hroot, sync, Tree.request], ?_⟩
      show FlatStack.Realizes [t''.request (root origin), t''.request (root l)] e.zOrder
        (t''.handles t''.order)
      rw [hrequest, hrequest, horder]
      refine .of_names (relocates.apply_requests he sound hne) (fun r hr v hv => ?_) ?_
      · simp only [List.mem_cons, List.not_mem_nil, or_false] at hr
        rcases hr with rfl | rfl
        · exact sound.mem_of_names hv
        · exact sound.mem_of_names hv
      · exact relocates.windows_subset he

theorem Changes.delivers (h : Changes e e') (he : e.tree.Sound none) : Delivers e e' := by
  induction h with
  | refl => exact .refl e
  | tail hsteps hstep ih => exact ih.trans (hstep.delivers (Changes.tree_sound hsteps he))

theorem performAll_delivers (he : e.tree.Sound none) {steps : List (Query H × Op H)}
    (hsteps : ∀ step ∈ steps, ∀ w, step.2 ≠ .remove w) : Delivers e (e.performAll steps) := by
  induction steps generalizing e with
  | nil => exact .refl e
  | cons step rest ih =>
    -- The requests of the first operation end where those of the others begin.
    have hfirst := perform_changes he step.1 (hsteps step List.mem_cons_self)
    exact (hfirst.delivers he).trans
      (ih (hfirst.tree_sound he) fun s hs => hsteps s (List.mem_cons_of_mem step hs))

/-- The request queued by a removal keeps the order that the removal leaves. -/
theorem remove_delivers (he : e.tree.Sound none) {w : H} (hw : e.isStacked w = true) :
    ∃ r, (e.remove w).2.queue = e.queue ++ [r] ∧
      (e.remove w).2.zOrder = e.zOrder.filter (· ≠ w) ∧
      FlatStack.Realizes [r] (e.remove w).2.zOrder (e.remove w).2.zOrder := by
  obtain ⟨id, hget⟩ := Option.isSome_iff_exists.mp hw
  have hid := (he.get_iff w id).mp hget
  obtain ⟨p, below, above, t', hpar, hdes, ht', heq⟩ := remove_eq he hget
  rw [heq]
  exact ⟨t'.request p, rfl, hdes.windows_eq_filter he ht' hid hpar,
    .of_names_single (ht'.apply_request rfl) fun v hv => ht'.mem_of_names hv⟩

/-- A stack that shows the tracked windows in order still does, once the requests of an
operation are carried out on it. -/
theorem perform_shows (he : e.tree.Sound none) (q : Query H) (op : Op H) :
    ∃ rs, (e.perform q op).2.queue = e.queue ++ rs ∧
      ∀ s : FlatStack H, s.order.filter (· ∈ e.zOrder) = e.zOrder →
        (rs.foldl FlatStack.apply s).order.filter (· ∈ (e.perform q op).2.zOrder) =
          (e.perform q op).2.zOrder := by
  by_cases hop : ∀ w, op ≠ .remove w
  · obtain ⟨rs, hqueue, hrs⟩ := (perform_changes he q hop).delivers he
    exact ⟨rs, hqueue, hrs.filter_eq⟩
  · obtain ⟨w, hw⟩ := not_forall.mp hop
    obtain rfl := not_not.mp hw
    show ∃ rs, (e.remove w).2.queue = e.queue ++ rs ∧ _
    cases hstacked : e.isStacked w with
    | true =>
      -- The window stays on the stack, but counts no more.
      obtain ⟨r, hqueue, hgone, hr⟩ := remove_delivers he hstacked
      refine ⟨[r], hqueue, fun s hs => hr.filter_eq s ?_⟩
      rw [hgone]
      exact filter_mem_filter _ hs
    | false =>
      have hsame : e.remove w = (false, e) :=
        remove_of_untracked (isStacked_eq_false_iff.mp hstacked)
      refine ⟨[], by rw [hsame, List.append_nil], fun s hs => ?_⟩
      show s.order.filter (· ∈ (e.remove w).2.zOrder) = (e.remove w).2.zOrder
      rwa [hsame]

/-- The requests of an operation are tidy, and name windows that are tracked once it is
done. -/
theorem tidy_of_perform (he : e.tree.Sound none) (q : Query H) (op : Op H) {r : Request H}
    (hr : r ∈ (e.perform q op).2.queue) : r ∈ e.queue ∨
      r.Tidy ∧ ∀ v, r.Names v → (e.perform q op).2.isStacked v = true := by
  rcases (perform_effect he q op).issued hr with hold | ⟨t, x, ht, hindex, rfl⟩
  · exact .inl hold
  · refine .inr ⟨ht.tidy_request x, fun v hv => ?_⟩
    obtain ⟨y, -, hy⟩ := Tree.mem_handles.mp (ht.mem_of_names hv)
    rw [← ht.get_iff, Tree.get, hindex] at hy
    exact isStacked_iff_get.mpr ⟨y, hy⟩

/-- The requests that a run queues turn the old order of the screen into the new one, if
it removes no window. The request that a removal queues turns the old order without the
window into the new one. -/
theorem requests_realize_zOrder (h : Reachable e) :
    (∀ steps : List (Query H × Op H), (∀ step ∈ steps, ∀ w, step.2 ≠ .remove w) →
      ∃ rs, (e.performAll steps).queue = e.queue ++ rs ∧
        rs.foldl FlatStack.apply ⟨e.zOrder⟩ = ⟨(e.performAll steps).zOrder⟩) ∧
    ∀ (q : Query H) (w : H), e.isStacked w = true →
      ∃ r, (e.perform q (.remove w)).2.queue = e.queue ++ [r] ∧
        FlatStack.apply ⟨e.zOrder.filter (· ≠ w)⟩ r = ⟨(e.perform q (.remove w)).2.zOrder⟩ := by
  constructor
  · intro steps hsteps
    obtain ⟨rs, hqueue, hrs⟩ := performAll_delivers h.sound hsteps
    exact ⟨rs, hqueue, hrs.order_eq⟩
  · intro q w hw
    obtain ⟨r, hqueue, hgone, hr⟩ := remove_delivers h.sound hw
    refine ⟨r, hqueue, ?_⟩
    rw [← hgone]
    exact hr.order_eq

/-- A window below another one goes to a higher band; a window with one above it goes. -/
theorem requests_realize_zOrder_two_windows :
    (∃ rs, ((ofSettings {}).performAll [(.blank, .add 1), (.blank, .add 2),
          (.blank, .toLayer 1 .top .top)]).queue = rs ∧
        rs.foldl FlatStack.apply ⟨[]⟩ = ⟨[2, 1]⟩) ∧
      ∃ r, (((ofSettings {}).performAll [(.blank, .add 1), (.blank, .add 2)]).perform .blank
          (.remove 1)).2.queue =
            ((ofSettings {}).performAll [(.blank, .add 1), (.blank, .add 2)]).queue ++ [r] ∧
        FlatStack.apply ⟨[2]⟩ r = ⟨[2]⟩ :=
  ⟨(requests_realize_zOrder (.start {})).1 _ (by simp),
    (requests_realize_zOrder (Reachable.performAll (.start {}) _)).2 .blank 1 rfl⟩

end Engine

end ZOrder
