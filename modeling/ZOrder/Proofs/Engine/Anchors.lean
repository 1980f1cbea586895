/-
  ZOrder.Proofs.Engine.Anchors

  Where the requests of an operation belong. A request is computed from the first window
  of a run and the length of the run, as if the run filled that many places of the order
  from there on; it does, since the walk that lists a family and the walk that lists a
  band visit the family alike. So a request lists a slice of the order of the screen, as
  the order is at the moment when the request is queued, and is anchored on the window
  next to the slice.

  An operation changes the forest and then queues. Only when the focus moves does it do
  so several times over: `stages` lists the engine after each family that goes back.
-/

import ZOrder.Proofs.Engine.Reachable
import ZOrder.Proofs.Engine.Requests

namespace ZOrder

/-! ## Slices of an order -/

/-- A request lists the windows of an order from place `i` up to place `j`, and is anchored
on the window directly below them, else on the one directly above them. -/
structure Request.FitsAt {H : Type} (r : Request H) (z : List H) (i j : Nat) : Prop where
  le : i ≤ j
  le_length : j ≤ z.length
  windows : r.windows = z.extract i j
  nodup : r.windows.Nodup
  /-- Something is below the slice. -/
  above : i < j → 0 < i → ∃ w, z[i - 1]? = some w ∧ r.anchor = .above w
  /-- Nothing is below the slice, but something is above it. -/
  below : i < j → i = 0 → j < z.length → ∃ w, z[j]? = some w ∧ r.anchor = .below w
  /-- The slice is all there is. -/
  floor_iff : i < j → (r.anchor = .floor ↔ r.windows = z)
  floor : i = j → r.anchor = .floor
  notMem : ∀ v, r.anchor = .above v ∨ r.anchor = .below v → v ∉ r.windows

variable {H : Type}

/-- Only a run with nothing around it goes to the bottom of the screen. -/
theorem Anchor.between_eq_floor_iff {below above : List H} :
    Anchor.between below above = .floor ↔ below = [] ∧ above = [] := by
  rcases List.eq_nil_or_concat below with rfl | ⟨rest, v, rfl⟩
  · cases above with
    | nil => simp [between]
    | cons v above => simp [between_nil_cons]
  · simp [List.concat_eq_append, between_concat]

/-- A block of an order, anchored between the parts around it, fits where it is. -/
theorem Request.FitsAt.of_between {below ws above : List H} (hnodup : (below ++ ws ++ above).Nodup)
    (hws : ws ≠ []) :
    (⟨ws, .between below above⟩ : Request H).FitsAt (below ++ ws ++ above) below.length
      (below.length + ws.length) := by
  have hpos : 0 < ws.length := List.length_pos_iff.mpr hws
  obtain ⟨hbelow, habove, -⟩ := disjoint_of_nodup_block hnodup
  refine ⟨Nat.le_add_right _ _, ?_, ?_, hnodup.of_append_left.of_append_right, ?_, ?_, ?_, ?_, ?_⟩
  · simp only [List.length_append]
    omega
  · simp [List.extract_eq_take_drop]
  · intro _ hi
    obtain ⟨rest, w, rfl⟩ := (List.eq_nil_or_concat below).resolve_left (List.length_pos_iff.mp hi)
    exact ⟨w, by simp, by rw [List.concat_eq_append, Anchor.between_concat]⟩
  · intro _ hi hj
    obtain rfl := List.length_eq_zero_iff.mp hi
    cases above with
    | nil => simp at hj
    | cons w above => exact ⟨w, by simp, Anchor.between_nil_cons w above⟩
  · intro _
    rw [Anchor.between_eq_floor_iff]
    constructor
    · rintro ⟨rfl, rfl⟩
      simp
    · intro hall
      have hlength := congrArg List.length hall
      simp only [List.length_append] at hlength
      exact ⟨List.length_eq_zero_iff.mp (by omega), List.length_eq_zero_iff.mp (by omega)⟩
  · intro hij
    omega
  · intro v hv hmem
    rcases Anchor.mem_of_between hv with hv | hv
    · exact hbelow hv hmem
    · exact habove hv hmem

/-- A request without windows fits in below everything. -/
theorem Request.FitsAt.of_nil (z : List H) : (⟨[], .floor⟩ : Request H).FitsAt z 0 0 where
  le := Nat.le_refl 0
  le_length := Nat.zero_le _
  windows := by simp [List.extract_eq_take_drop]
  nodup := List.nodup_nil
  above hlt := absurd hlt (Nat.lt_irrefl 0)
  below hlt := absurd hlt (Nat.lt_irrefl 0)
  floor_iff hlt := absurd hlt (Nat.lt_irrefl 0)
  floor _ := rfl
  notMem _ _ := List.not_mem_nil

/-- The request for any node of a sound forest fits the order of the screen. -/
theorem Tree.Sound.fitsAt_request [DecidableEq H] {t : Tree H} (h : t.Sound none) (x : NodeId) :
    ∃ i j, (t.request x).FitsAt (t.handles t.order) i j := by
  by_cases hrun : t.run x = []
  · rw [request_of_run_nil hrun]
    exact ⟨0, 0, .of_nil _⟩
  · obtain ⟨below, above, horder⟩ := h.exists_around hrun
    have hnodup := h.nodup_zOrder
    -- The nodes of a run are windows, so it lists some window.
    have hwindows : t.handles (t.run x) ≠ [] := by
      obtain ⟨y, hy⟩ := List.exists_mem_of_ne_nil _ hrun
      obtain ⟨w, hw⟩ := (h.mem_run.mp hy).2.2
      exact List.ne_nil_of_mem (mem_handles.mpr ⟨y, hy, hw⟩)
    rw [horder, handles_append, handles_append] at hnodup
    rw [h.request_eq horder hrun, horder, handles_append, handles_append]
    exact ⟨_, _, .of_between hnodup hwindows⟩

/-! ## Moments of an operation -/

namespace Engine

open ZOrder.Tree (root)

variable [DecidableEq H] {e : Engine H}

/-- The engines that an operation goes through, from the one that it is carried out on to the
one that it leaves. When the focus moves, each family that goes back is a step of its own. -/
def stages (e : Engine H) (q : Query H) (op : Op H) : List (Engine H) :=
  match op with
  | .focus w =>
    match e.demoteOnFocus, e.tree.get w with
    | true, some focused =>
      (demoted e.tree focused).scanl (fun e family => e.demote focused family) e
    | _, _ => [e]
  | op => [e, (e.perform q op).2]

/-- From one moment to the next, only requests have been queued that fit the order of the screen
as it is then. -/
def QueuesFitting (e e' : Engine H) : Prop :=
  ∃ rs, e'.queue = e.queue ++ rs ∧ ∀ r ∈ rs, ∃ i j, r.FitsAt e'.zOrder i j

theorem queuesFitting_sync {t' : Tree H} (ht' : t'.Sound none) (ids : List NodeId) :
    QueuesFitting e ({ e with tree := t' }.sync ids) := by
  refine ⟨ids.map t'.request, rfl, fun r hr => ?_⟩
  obtain ⟨x, -, rfl⟩ := List.mem_map.mp hr
  exact ht'.fitsAt_request x

/-- An operation that completes its change before it queues does so once. -/
theorem Effect.queuesFitting {q : Query H} {op : Op H} {result : Bool × Engine H}
    (h : Effect e q op result) (hop : ∀ w, op ≠ .focus w) : QueuesFitting e result.2 := by
  cases h with
  | refused untaken => exact ⟨[], (List.append_nil _).symm, fun r hr => absurd hr List.not_mem_nil⟩
  | added adds untracked place creates loose grafts sound => exact queuesFitting_sync sound _
  | removed removes get parent destroys sound => exact queuesFitting_sync sound _
  | moved slides takes get relocates sound => exact queuesFitting_sync sound _
  | @sent w origin l pos id family t' sends get below relocates sound =>
    exact queuesFitting_sync ((Tree.sameShape_sent t' family l).sound sound) _
  | demoted focuses on get nonempty demotes => exact absurd focuses (hop _)

/-- Families that go back one after the other queue one fitting request each. -/
theorem isChain_scanl_demote (h : e.tree.Sound none) (focused : NodeId) {families : List NodeId}
    (hnodup : families.Nodup) (hpar : ∀ x ∈ families, ∃ p, e.tree.parent x = some p) :
    (families.scanl (fun e family => e.demote focused family) e).IsChain fun e e' =>
      QueuesFitting e e' ∧ e'.queue.length = e.queue.length + 1 := by
  induction families generalizing e with
  | nil => exact .singleton e
  | cons family rest ih =>
    obtain ⟨hfamily, hrest⟩ := List.nodup_cons.mp hnodup
    obtain ⟨p, hp⟩ := hpar family List.mem_cons_self
    obtain ⟨t', slot, hmove, ht', heq⟩ := demote_eq h hp focused
    have hstep : QueuesFitting e (e.demote focused family) ∧
        (e.demote focused family).queue.length = e.queue.length + 1 := by
      rw [heq]
      exact ⟨queuesFitting_sync ht' [family], by simp [sync]⟩
    -- The families that follow are attached where they were.
    have hlater := ih (e := e.demote focused family) (by rw [heq]; exact ht') hrest fun x hx => by
      obtain ⟨p', hp'⟩ := hpar x (List.mem_cons_of_mem family hx)
      have hne : x ≠ family := fun he => hfamily (he ▸ hx)
      exact ⟨p', by rw [heq, ← hp']; exact (hmove.parent x).trans (if_neg hne)⟩
    rw [List.scanl_cons]
    cases rest with
    | nil => exact .cons_cons hstep hlater
    | cons x xs =>
      rw [List.scanl_cons] at hlater ⊢
      exact .cons_cons hstep hlater

theorem stages_of_ne_focus (e : Engine H) (q : Query H) {op : Op H} (hop : ∀ w, op ≠ .focus w) :
    e.stages q op = [e, (e.perform q op).2] := by
  cases op with
  | focus w => exact absurd rfl (hop w)
  | _ => rfl

/-- When the focus moves, the last of the families to go back leads to what the operation
leaves. -/
theorem stages_focus (h : e.tree.Sound none) (q : Query H) (w : H) :
    (e.stages q (.focus w)).head? = some e ∧
      (e.stages q (.focus w)).getLast? = some (e.focus w).2 ∧
      (e.stages q (.focus w)).IsChain fun e e' =>
        QueuesFitting e e' ∧ e'.queue.length = e.queue.length + 1 := by
  cases hon : e.demoteOnFocus with
  | false =>
    have hstages : e.stages q (.focus w) = [e] := by simp only [stages, hon]
    rw [hstages, focus_of_off hon]
    exact ⟨rfl, rfl, .singleton e⟩
  | true =>
    cases hget : e.tree.get w with
    | none =>
      have hstages : e.stages q (.focus w) = [e] := by simp only [stages, hon, hget]
      rw [hstages, focus_of_untracked hget]
      exact ⟨rfl, rfl, .singleton e⟩
    | some focused =>
      have hstages : e.stages q (.focus w) =
          (demoted e.tree focused).scanl (fun e family => e.demote focused family) e := by
        simp only [stages, hon, hget]
      rw [hstages, focus_eq_foldl hon hget]
      refine ⟨List.head?_scanl, List.getLast?_scanl, ?_⟩
      refine isChain_scanl_demote h focused (nodup_demoted h focused) fun x hx => ?_
      obtain ⟨⟨l, -, hpar⟩, -⟩ := (mem_demoted_iff h).mp hx
      exact ⟨root l, hpar⟩

/-- Each request fits the order of the screen at the moment when it is queued: its windows are a
slice of the order, and it is anchored on the window next to the slice, if there is one. An
operation queues once its change is complete, and when the focus moves there is such a moment,
and one request, for each family that goes back. -/
theorem requests_fit_order (h : Reachable e) (q : Query H) (op : Op H) :
    (e.stages q op).head? = some e ∧ (e.stages q op).getLast? = some (e.perform q op).2 ∧
    ((e.stages q op).IsChain fun before after => ∃ rs, after.queue = before.queue ++ rs ∧
      ∀ r ∈ rs, ∃ i j, r.FitsAt after.zOrder i j) ∧
    ∀ w, op = .focus w → (e.stages q op).IsChain fun before after =>
      after.queue.length = before.queue.length + 1 := by
  by_cases hop : ∀ w, op ≠ .focus w
  · rw [stages_of_ne_focus e q hop]
    have hqueues := (perform_effect h.sound q op).queuesFitting hop
    exact ⟨rfl, rfl, .cons_cons hqueues (.singleton _), fun w hw => absurd hw (hop w)⟩
  · obtain ⟨w, hw⟩ := not_forall.mp hop
    obtain rfl := not_not.mp hw
    obtain ⟨hhead, hlast, hchain⟩ := stages_focus h.sound q w
    exact ⟨hhead, hlast, hchain.imp fun _ _ hstep => hstep.1,
      fun _ _ => hchain.imp fun _ _ hstep => hstep.2⟩

/-- Windows 1 and 2 have left their band when 3 takes the focus; they go back one after the
other, and 2 is still in front when 1 is requested. -/
theorem requests_fit_order_of_focus :
    ∃ e : Engine Nat, e.Reachable ∧ (e.stages .blank (.focus 3)).map zOrder =
        [[3, 1, 2], [1, 3, 2], [1, 2, 3]] ∧
      (e.stages .blank (.focus 3)).IsChain (fun before after =>
        ∃ rs, after.queue = before.queue ++ rs ∧ ∀ r ∈ rs, ∃ i j, r.FitsAt after.zOrder i j) ∧
      (e.stages .blank (.focus 3)).IsChain fun before after =>
        after.queue.length = before.queue.length + 1 := by
  have hreach : Reachable ((ofSettings {}).performAll [(.blank, .add 1), (.blank, .add 2),
      (.blank, .add 3), (.blank, .fullscreen 1 true), (.blank, .toFront 2)]) :=
    .performAll (.start {}) _
  have hfit := requests_fit_order hreach .blank (.focus 3)
  exact ⟨_, hreach, by decide, hfit.2.2.1, hfit.2.2.2 3 rfl⟩

end Engine

end ZOrder
