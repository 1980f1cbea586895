/-
  ZOrder.Proofs.X11.Screen

  The screen of an X server that a manager drives. The server hears of windows only
  through calls, one window at a time. Windows that nobody tracks, and windows that are
  no longer tracked, stay on the screen among the others; the tracked windows are always
  in the order of the engine.
-/

import ZOrder.Proofs.Engine.Delivery
import ZOrder.Proofs.Engine.Shape
import ZOrder.Proofs.Manager.Drops
import ZOrder.Proofs.X11.Restack
import ZOrder.X11.Connection

namespace ZOrder

/-- The window that a call is about. -/
def Call.window {H : Type} : Call H → H
  | .op operation => operation.window
  | .event (.focusChanged w) | .event (.windowDestroyed w) => w

namespace Manager

variable {S H : Type} [DecidableEq H]

/-- The first step of a call carries out one operation on the engine. -/
theorem start_engine (d : DisplayServer S H) (m : Manager S H) (c : Call H) :
    ∃ (q : Query H) (op : Op H), op.window = c.window ∧
      (m.start d c).engine = (m.engine.perform q op).2 := by
  cases c with
  | op op =>
    refine ⟨d.query m.server, op, rfl, ?_⟩
    cases op <;> rfl
  | event event =>
    cases event with
    | focusChanged w => exact ⟨.blank, .focus w, rfl, rfl⟩
    | windowDestroyed w => exact ⟨.blank, .remove w, rfl, rfl⟩

/-- Where nothing is reported, emptying the queue takes one round. -/
theorem flush_of_silent {d : DisplayServer S H} {m : Manager S H} (h : (m.deliver d).2 = []) :
    m.flush d = (m.deliver d).1 := by
  rw [flush]
  cases m.settings.maxEventDepth.toNat with
  | zero => rfl
  | succ rounds =>
    rw [flushFor]
    cases hm : m.deliver d with
    | mk m' events =>
      rw [hm] at h
      obtain rfl : events = [] := h
      rfl

end Manager

namespace X11

/-! ## The adapter -/

/-- A client that is connected makes the calls for each request, and nothing is reported. -/
theorem send_server {c : Connection} (hc : c.link = .connected) (rs : List (Request UInt32)) :
    Manager.send Connection.server c rs =
      ({ c with calls := c.calls ++ rs.flatMap plan }, []) := by
  induction rs generalizing c with
  | nil => simp [Manager.send]
  | cons r rest ih =>
    have hstack : Connection.server.stack c r =
        ({ c with calls := c.calls ++ plan r }, .ok none) := by
      show c.stack r = _
      rw [Connection.stack, if_pos hc]
    have hrest := ih (c := { c with calls := c.calls ++ plan r }) hc
    rw [Manager.send, hstack]
    dsimp only
    rw [hrest, List.flatMap_cons, List.append_assoc]

/-- Neither questions nor windows that go are noticed by a client that is connected. -/
theorem start_server {m : Manager Connection UInt32} (hm : m.server.link = .connected)
    (c : Call UInt32) : (m.start Connection.server c).server = m.server := by
  have hasked : Connection.server.asked m.server = m.server := by
    show m.server.asked = m.server
    rw [Connection.asked, if_pos hm, ← hm]
  have huntrack : ∀ w, (m.untrack Connection.server w).2.server = m.server := by
    intro w
    rw [Manager.untrack]
    exact ite_self m.server
  cases c with
  | event event =>
    cases event with
    | focusChanged w => rfl
    | windowDestroyed w => exact huntrack w
  | op op =>
    have hqueued : (m.performQueued Connection.server op).2.server = m.server := by
      rw [Manager.performQueued]
      dsimp only
      rw [hasked, ite_self]
    cases op with
    | remove w => exact huntrack w
    | _ => exact hqueued

/-! ## Runs -/

/-- Answers calls in turn, each with the windows of the server as they are by then. -/
def session (m : Manager Connection UInt32)
    (steps : List (List (UInt32 × Window) × Call UInt32)) : Manager Connection UInt32 :=
  steps.foldl (fun m step =>
    { m with server := { m.server with windows := step.1 } }.call Connection.server step.2) m

/-- What the calls made so far have made of an order of the screen. -/
def screen (configure : List UInt32 → Restack UInt32 → List UInt32) (order : List UInt32)
    (m : Manager Connection UInt32) : List UInt32 :=
  m.server.calls.foldl configure order

/-- What holds between calls: the windows on the screen never change, and the tracked ones
are in the order of the engine. -/
structure Shows (configure : List UInt32 → Restack UInt32 → List UInt32) (order : List UInt32)
    (m : Manager Connection UInt32) : Prop where
  sound : m.engine.tree.Sound none
  queue : m.engine.queue = []
  link : m.server.link = .connected
  nodup : (screen configure order m).Nodup
  mem_iff : ∀ w, w ∈ screen configure order m ↔ w ∈ order
  known : ∀ w, m.engine.isStacked w = true → w ∈ order
  filter : (screen configure order m).filter (· ∈ m.engine.zOrder) = m.engine.zOrder

variable {configure : List UInt32 → Restack UInt32 → List UInt32} {order : List UInt32}
  {m : Manager Connection UInt32}

/-- A call keeps the tracked windows in order. -/
theorem Shows.call (hX : Configures configure) (h : Shows configure order m) {c : Call UInt32}
    (hc : c.window ∈ order) : Shows configure order (m.call Connection.server c) := by
  obtain ⟨q, op, hop, hengine⟩ := Manager.start_engine Connection.server m c
  have hserver := start_server h.link c
  generalize hm' : m.start Connection.server c = m' at hengine hserver
  have hsend := send_server (hserver ▸ h.link) m'.engine.queue
  -- The requests of the call are sent in one round, since nothing is reported.
  have hcall : m.call Connection.server c = (m'.deliver Connection.server).1 := by
    rw [Manager.call_eq, hm']
    refine Manager.flush_of_silent ?_
    rw [Manager.deliver, hsend]
  have hknown : ∀ w, m'.engine.isStacked w = true → w ∈ order := by
    intro w hw
    rw [hengine, Engine.isStacked, Tree.contains] at hw
    rcases (Engine.perform_effect h.sound q op).get_cases w with heq | ⟨heq, -⟩
    · rw [heq] at hw
      exact h.known w hw
    · exact heq ▸ hop ▸ hc
  obtain ⟨rs, hqueue, hrs⟩ := Engine.perform_shows h.sound q op
  rw [h.queue, List.nil_append] at hqueue
  have htidy : ∀ r ∈ rs, r.Tidy ∧ ∀ v, r.Names v → v ∈ screen configure order m := by
    intro r hr
    rcases Engine.tidy_of_perform h.sound q op (hqueue ▸ hr) with hold | ⟨htidy, hnames⟩
    · rw [h.queue] at hold
      cases hold
    · exact ⟨htidy, fun v hv => (h.mem_iff v).mpr (hknown v (hengine ▸ hnames v hv))⟩
  -- Call by call, the server does what the requests do to a flat stack.
  have hscreen : screen configure order (m.call Connection.server c) =
      (rs.foldl FlatStack.apply ⟨screen configure order m⟩).order := by
    rw [hcall, Manager.deliver, hsend, hengine, hqueue, hserver, screen]
    dsimp only
    rw [List.foldl_append]
    exact hX.foldl_plans h.nodup (fun r hr => (htidy r hr).1) fun r hr => (htidy r hr).2
  have hafter : (m.call Connection.server c).engine = { m'.engine with queue := [] } := by
    rw [hcall]
    rfl
  refine ⟨?_, ?_, ?_, ?_, ?_, ?_, ?_⟩
  · rw [hafter, hengine]
    exact Engine.perform_sound h.sound q op
  · rw [hafter]
  · rw [hcall, Manager.deliver, hsend]
    exact hserver ▸ h.link
  · rw [hscreen]
    exact FlatStack.nodup_foldl_apply h.nodup fun r hr => (htidy r hr).1.nodup
  · intro w
    rw [hscreen, FlatStack.mem_foldl_apply, ← h.mem_iff w]
    refine or_iff_left_of_imp ?_
    rintro ⟨r, hr, hw⟩
    exact (htidy r hr).2 w (.inl hw)
  · rw [hafter]
    exact hknown
  · rw [hscreen, hafter, hengine]
    exact hrs _ h.filter

theorem Shows.session (hX : Configures configure) (h : Shows configure order m)
    {steps : List (List (UInt32 × Window) × Call UInt32)}
    (hsteps : ∀ step ∈ steps, step.2.window ∈ order) :
    Shows configure order (session m steps) := by
  induction steps generalizing m with
  | nil => exact h
  | cons step rest ih =>
    -- The server may have changed its windows, but neither their order nor the calls.
    have hwindows : Shows configure order
        { m with server := { m.server with windows := step.1 } } :=
      ⟨h.sound, h.queue, h.link, h.nodup, h.mem_iff, h.known, h.filter⟩
    exact ih (hwindows.call hX (hsteps step List.mem_cons_self))
      fun s hs => hsteps s (List.mem_cons_of_mem step hs)

/-- Among the windows on the screen of an X server, the tracked ones are in the order of the
engine each time a call returns. -/
theorem screen_of_session (hX : Configures configure) (settings : Settings) (root : UInt32)
    (horder : order.Nodup) {steps : List (List (UInt32 × Window) × Call UInt32)}
    (hsteps : ∀ step ∈ steps, step.2.window ∈ order) :
    (screen configure order (session (.new settings { root }) steps)).filter
        (session (.new settings { root }) steps).engine.isStacked =
      (session (.new settings { root }) steps).engine.zOrder ∧
    (screen configure order (session (.new settings { root }) steps)).Nodup ∧
    ∀ w, w ∈ screen configure order (session (.new settings { root }) steps) ↔ w ∈ order := by
  have hnone : (Engine.ofSettings settings : Engine UInt32).zOrder = [] := rfl
  have hstart : Shows configure order (.new settings { root }) := by
    refine ⟨Tree.sound_empty, rfl, rfl, horder, fun _ => Iff.rfl, fun w hw => ?_, ?_⟩
    · cases hw
    · show order.filter (· ∈ (Engine.ofSettings settings).zOrder) =
        (Engine.ofSettings settings).zOrder
      rw [hnone]
      simp
  have hrun := hstart.session hX hsteps
  refine ⟨?_, hrun.nodup, hrun.mem_iff⟩
  conv_rhs => rw [← hrun.filter]
  refine List.filter_congr fun w _ => ?_
  rw [Bool.eq_iff_iff, decide_eq_true_iff, Engine.mem_zOrder_iff hrun.sound]

/-- Three windows are tracked for a time, among two that are not. One of the three goes, and
stays on the screen where it was. -/
theorem screen_of_session_with_strangers :
    ∃ steps : List (List (UInt32 × Window) × Call UInt32),
      steps.map Prod.snd = [.op (.add 1), .op (.add 2), .op (.addAt 3 .top .top),
        .op (.toLayer 1 .system .top), .event (.windowDestroyed 3)] ∧
      (∀ step ∈ steps, step.2.window ∈ [8, 3, 9, 2, 1]) ∧
      screen Restack.apply [8, 3, 9, 2, 1] (session (.new {} { root := 0 }) steps) =
        [2, 3, 1, 8, 9] ∧
      (screen Restack.apply [8, 3, 9, 2, 1] (session (.new {} { root := 0 }) steps)).filter
          (session (.new {} { root := 0 }) steps).engine.isStacked =
        (session (.new {} { root := 0 }) steps).engine.zOrder := by
  have hsteps : ∀ step ∈ ([([], .op (.add 1)), ([], .op (.add 2)), ([], .op (.addAt 3 .top .top)),
      ([], .op (.toLayer 1 .system .top)), ([], .event (.windowDestroyed 3))] :
        List (List (UInt32 × Window) × Call UInt32)), step.2.window ∈ [8, 3, 9, 2, 1] := by
    decide
  exact ⟨_, rfl, hsteps, by decide,
    (screen_of_session configures_apply {} 0 (by decide) hsteps).1⟩

end X11

end ZOrder
