/-
  ZOrder.Proofs.X11.Restack

  Calls of an X server that carry out requests. A server that answers calls by the rule
  of `Configures` ends up with the order that a flat stack shows after the same requests.
  No call fails on the way: each window is placed against another one that is there. The
  windows of a request need not be on the screen for this, as long as its anchor is.
-/

import ZOrder.Proofs.FlatStack.Placements
import ZOrder.X11.Restack

namespace ZOrder.X11

variable {H : Type} [DecidableEq H]

/-- The rule of an X server. A window on the screen that is placed against another one goes
directly above or below it, one that is placed without a sibling goes below all others, and
the other windows keep their order. Nothing is said about other calls. -/
structure Configures (configure : List H → Restack H → List H) : Prop where
  above : ∀ (order below above : List H) (w s : H), order.Nodup → w ∈ order →
    order.filter (· ≠ w) = below ++ s :: above →
    configure order ⟨w, some s, .above⟩ = below ++ s :: w :: above
  below : ∀ (order below above : List H) (w s : H), order.Nodup → w ∈ order →
    order.filter (· ≠ w) = below ++ s :: above →
    configure order ⟨w, some s, .below⟩ = below ++ w :: s :: above
  bottom : ∀ (order : List H) (w : H), order.Nodup → w ∈ order →
    configure order ⟨w, none, .below⟩ = w :: order.filter (· ≠ w)

theorem notMem_of_others {order below above : List H} {w s : H} (hnodup : order.Nodup)
    (hothers : order.filter (· ≠ w) = below ++ s :: above) : s ∉ below := by
  have hrest := hnodup.filter (· ≠ w)
  rw [hothers] at hrest
  have hs := (List.nodup_cons.mp (List.nodup_middle.mp hrest)).1
  exact fun hmem => hs (List.mem_append_left above hmem)

/-- What the rule says of calls for one window on one order. -/
structure Places (configure : List H → Restack H → List H) (order : List H) (w : H) : Prop where
  above : ∀ below above s, s ∉ below → order.filter (· ≠ w) = below ++ s :: above →
    configure order ⟨w, some s, .above⟩ = below ++ s :: w :: above
  below : ∀ below above s, s ∉ below → order.filter (· ≠ w) = below ++ s :: above →
    configure order ⟨w, some s, .below⟩ = below ++ w :: s :: above
  bottom : configure order ⟨w, none, .below⟩ = w :: order.filter (· ≠ w)

/-- The calls as they are carried out here follow the rule for windows on the screen and for
those that are not there yet. -/
theorem places_apply (order : List H) (w : H) : Places Restack.apply order w where
  above below above s hs hothers := by
    simp only [Restack.apply, hothers, idxOf?_append_cons hs, if_true]
    rw [insertIdx_eq_take_append w (by simp)]
    simp [List.take_append]
  below below above s hs hothers := by
    simp only [Restack.apply, hothers, idxOf?_append_cons hs, reduceCtorEq, if_false]
    rw [insertIdx_eq_take_append w (by simp)]
    simp
  bottom := rfl

theorem configures_apply : Configures (Restack.apply (H := H)) where
  above order below above w s hnodup _ hothers :=
    (places_apply order w).above below above s (notMem_of_others hnodup hothers) hothers
  below order below above w s hnodup _ hothers :=
    (places_apply order w).below below above s (notMem_of_others hnodup hothers) hothers
  bottom order w _ _ := (places_apply order w).bottom

variable {configure : List H → Restack H → List H}

theorem Configures.places (hX : Configures configure) {order : List H} (horder : order.Nodup)
    {w : H} (hw : w ∈ order) : Places configure order w where
  above below above s _ hothers := hX.above order below above w s horder hw hothers
  below below above s _ hothers := hX.below order below above w s horder hw hothers
  bottom := hX.bottom order w horder hw

/-- A call for one window does what a request for that window does to a flat stack. -/
theorem Places.ofPlacement_eq {order : List H} {placement : H × Anchor H}
    (h : Places configure order placement.1)
    (hanchor : ∀ v, placement.2 = .above v ∨ placement.2 = .below v →
      v ∈ order ∧ v ≠ placement.1) :
    configure order (.ofPlacement placement) =
      (FlatStack.apply ⟨order⟩ (.single placement)).order := by
  obtain ⟨w, a⟩ := placement
  -- An anchor splits the other windows in those below it and those above it.
  have hsplit : ∀ s, a = .above s ∨ a = .below s →
      ∃ below above, order.filter (· ≠ w) = below ++ s :: above ∧ s ∉ below := by
    intro s hs
    obtain ⟨hmem, hne⟩ := hanchor s hs
    exact List.eq_append_cons_of_mem (List.mem_filter.mpr ⟨hmem, by simpa using hne⟩)
  rw [FlatStack.apply_single]
  cases a with
  | floor => exact h.bottom
  | above s =>
    obtain ⟨below, above, heq, hs⟩ := hsplit s (.inl rfl)
    rw [Restack.ofPlacement, h.above below above s hs heq, heq, FlatStack.slot_above hs]
    simp [List.take_append]
  | below s =>
    obtain ⟨below, above, heq, hs⟩ := hsplit s (.inr rfl)
    rw [Restack.ofPlacement, h.below below above s hs heq, heq, FlatStack.slot_below hs]
    simp

/-- The calls for some placements do what the requests for them do to a flat stack. -/
theorem Configures.foldl_ofPlacement (hX : Configures configure) {order : List H}
    (horder : order.Nodup) {placements : List (H × Anchor H)}
    (hplacements : ∀ p ∈ placements, p.1 ∈ order ∧
      ∀ v, p.2 = .above v ∨ p.2 = .below v → v ∈ order ∧ v ≠ p.1) :
    (placements.map Restack.ofPlacement).foldl configure order =
      ((placements.map Request.single).foldl FlatStack.apply ⟨order⟩).order := by
  induction placements generalizing order with
  | nil => rfl
  | cons p rest ih =>
    obtain ⟨hw, hanchor⟩ := hplacements p List.mem_cons_self
    rw [List.map_cons, List.map_cons, List.foldl_cons, List.foldl_cons,
      (hX.places horder hw).ofPlacement_eq hanchor]
    -- A call moves a window and takes none off the screen.
    refine ih (FlatStack.nodup_apply horder (List.nodup_singleton p.1)) fun p' hp' => ?_
    have hmem : ∀ v ∈ order, v ∈ (FlatStack.apply ⟨order⟩ (.single p)).order :=
      fun v hv => FlatStack.mem_apply.mpr (.inl hv)
    obtain ⟨hw', hanchor'⟩ := hplacements p' (List.mem_cons_of_mem p hp')
    exact ⟨hmem _ hw', fun v hv => ⟨hmem v (hanchor' v hv).1, (hanchor' v hv).2⟩⟩

/-- The calls for a request do what the request does to a flat stack. -/
theorem Configures.foldl_plan (hX : Configures configure) {order : List H}
    (horder : order.Nodup) {r : Request H} (hr : r.Tidy) (hnames : ∀ v, r.Names v → v ∈ order) :
    (plan r).foldl configure order = (FlatStack.apply ⟨order⟩ r).order := by
  rw [← FlatStack.foldl_placements hr, plan]
  refine hX.foldl_ofPlacement horder fun p hp => ⟨hnames p.1 (.inl ?_), fun v hv => ?_⟩
  · rw [← r.map_fst_placements]
    exact List.mem_map_of_mem hp
  · obtain ⟨hv, hne⟩ := hr.names_single hp hv
    exact ⟨hnames v hv, hne⟩

/-- The same for the calls for several requests. -/
theorem Configures.foldl_plans (hX : Configures configure) {order : List H}
    (horder : order.Nodup) {rs : List (Request H)} (hrs : ∀ r ∈ rs, r.Tidy)
    (hnames : ∀ r ∈ rs, ∀ v, r.Names v → v ∈ order) :
    (rs.flatMap plan).foldl configure order = (rs.foldl FlatStack.apply ⟨order⟩).order := by
  induction rs generalizing order with
  | nil => rfl
  | cons r rest ih =>
    have hr := hrs r List.mem_cons_self
    rw [List.flatMap_cons, List.foldl_append, List.foldl_cons,
      hX.foldl_plan horder hr (hnames r List.mem_cons_self)]
    refine ih (FlatStack.nodup_apply horder hr.nodup)
      (fun r' hr' => hrs r' (List.mem_cons_of_mem r hr')) fun r' hr' v hv => ?_
    exact FlatStack.mem_apply.mpr (.inl (hnames r' (List.mem_cons_of_mem r hr') v hv))

/-! ## Windows that are not on the screen yet -/

/-- Each call brings the sibling of the next one, so only the anchor has to be there. -/
theorem Restack.foldl_apply_plan {order : List H} {r : Request H} (hr : r.Tidy)
    (hanchor : ∀ v, r.anchor = .above v ∨ r.anchor = .below v → v ∈ order) :
    (plan r).foldl apply order = (FlatStack.apply ⟨order⟩ r).order := by
  obtain ⟨windows, a⟩ := r
  induction windows generalizing a order with
  | nil => exact congrArg FlatStack.order (FlatStack.apply_of_nil order rfl).symm
  | cons w rest ih =>
    have hfirst : apply order (.ofPlacement (w, a)) =
        (FlatStack.apply ⟨order⟩ (.single (w, a))).order := by
      refine (places_apply order w).ofPlacement_eq fun v hv => ⟨hanchor v hv, ?_⟩
      rintro rfl
      exact hr.anchor _ hv List.mem_cons_self
    have hplan : plan (⟨w :: rest, a⟩ : Request H) =
        .ofPlacement (w, a) :: plan ⟨rest, .above w⟩ := by
      rw [plan, Request.placements_cons, List.map_cons, plan]
    have hw : ∀ v, (Anchor.above w = .above v ∨ Anchor.above w = .below v) →
        v ∈ (FlatStack.apply ⟨order⟩ (.single (w, a))).order := by
      rintro v (hv | hv)
      · exact FlatStack.mem_apply.mpr (.inr (Anchor.above.inj hv ▸ List.mem_cons_self))
      · cases hv
    rw [hplan, List.foldl_cons, hfirst, ih _ hr.tail hw]
    exact congrArg FlatStack.order (FlatStack.apply_single_apply order hr)

/-- One window at a time, a request is carried out as it is at once: on a flat stack whatever
windows are there, and call by call where its anchor is on the screen. A server that goes by
the rule does the same with the windows on its screen. -/
theorem stepwise_restack {order : List H} (horder : order.Nodup) {r : Request H} (hr : r.Tidy) :
    (r.placements.map Request.single).foldl FlatStack.apply ⟨order⟩ = FlatStack.apply ⟨order⟩ r ∧
      ((∀ v, r.anchor = .above v ∨ r.anchor = .below v → v ∈ order) →
        (plan r).foldl Restack.apply order = (FlatStack.apply ⟨order⟩ r).order) ∧
      ∀ configure, Configures configure → (∀ v, r.Names v → v ∈ order) →
        (plan r).foldl configure order = (FlatStack.apply ⟨order⟩ r).order :=
  ⟨FlatStack.foldl_placements hr ⟨order⟩, Restack.foldl_apply_plan hr,
    fun _ hX hnames => hX.foldl_plan horder hr hnames⟩

/-- The windows 2 and 4 move from both sides of 5, first with a new window 9 between them and
then, for a server that goes by the rule, on their own. -/
theorem stepwise_restack_below_five :
    ((⟨[4, 9, 2], .below 5⟩ : Request Nat).placements.map Request.single).foldl
        FlatStack.apply ⟨[1, 2, 3, 5, 4]⟩ = ⟨[1, 3, 4, 9, 2, 5]⟩ ∧
      (plan ⟨[4, 9, 2], .below 5⟩).foldl Restack.apply [1, 2, 3, 5, 4] = [1, 3, 4, 9, 2, 5] ∧
      Configures (Restack.apply (H := Nat)) ∧
      (plan ⟨[4, 2], .below 5⟩).foldl Restack.apply [1, 2, 3, 5, 4] = [1, 3, 4, 2, 5] := by
  have horder : [1, 2, 3, 5, 4].Nodup := by decide
  have htidy : ∀ windows : List Nat, windows.Nodup → 5 ∉ windows →
      (⟨windows, .below 5⟩ : Request Nat).Tidy := by
    refine fun windows hnodup hmem => ⟨hnodup, fun v hv => ?_⟩
    rcases hv with hv | hv
    · cases hv
    · exact Anchor.below.inj hv ▸ hmem
  obtain ⟨hsteps, hcalls, -⟩ :=
    stepwise_restack horder (htidy [4, 9, 2] (by decide) (by decide))
  obtain ⟨-, -, hserver⟩ := stepwise_restack horder (htidy [4, 2] (by decide) (by decide))
  have hnew : FlatStack.apply ⟨[1, 2, 3, 5, 4]⟩ ⟨[4, 9, 2], .below 5⟩ = ⟨[1, 3, 4, 9, 2, 5]⟩ := by
    decide
  have hold : FlatStack.apply ⟨[1, 2, 3, 5, 4]⟩ ⟨[4, 2], .below 5⟩ = ⟨[1, 3, 4, 2, 5]⟩ := by
    decide
  have hnames : ∀ v, (⟨[4, 2], .below 5⟩ : Request Nat).Names v → v ∈ [1, 2, 3, 5, 4] := by
    intro v hv
    simp [Request.Names] at hv ⊢
    omega
  exact ⟨hsteps.trans hnew, (hcalls (by simp)).trans (congrArg FlatStack.order hnew),
    configures_apply, (hserver _ configures_apply hnames).trans (congrArg FlatStack.order hold)⟩

end ZOrder.X11
