/-
  ZOrder.Proofs.Manager.Mirror

  A display server that keeps a flat stack, and how far the stack follows the engine
  it belongs to. The stack lags behind by the requests that are still queued, so what
  every step keeps is said of its outlook: the stack that shows once they are sent.

  A window that goes is forgotten at once, while the requests queued before are sent
  later. Where none of them names the window, the two can be exchanged and the stack
  stays in step. A request that lists the window brings it back onto the stack, where
  it stays until it is tracked again.
-/

import ZOrder.Proofs.Engine.Delivery
import ZOrder.Proofs.Engine.Shape
import ZOrder.Proofs.Manager.Drops

namespace ZOrder

variable {S H : Type} [DecidableEq H]

/-- The display server `d` keeps a flat stack: each request changes it, whatever the
answer, and a window that goes is taken off. Events and answers about windows are free. -/
structure Mirrors (d : DisplayServer S H) (screen : S → FlatStack H) : Prop where
  stack : ∀ s r, screen (d.stack s r).1 = (screen s).apply r
  forget : ∀ s w, screen (d.forget s w) = (screen s).forget w
  asked : ∀ s, screen (d.asked s) = screen s

/-- When the window was last dropped, a request that lists it was still queued. -/
def Lingers (log : List (Drop H)) (w : H) : Prop :=
  ∃ drop, (log.filter (·.window = w)).getLast? = some drop ∧ ∃ r ∈ drop.pending, w ∈ r.windows

theorem not_lingers_nil (w : H) : ¬ Lingers ([] : List (Drop H)) w := by
  rintro ⟨drop, hdrop, -⟩
  cases hdrop

theorem lingers_append_self {log : List (Drop H)} {w : H} {pending : List (Request H)} :
    Lingers (log ++ [⟨w, pending⟩]) w ↔ ∃ r ∈ pending, w ∈ r.windows := by
  simp [Lingers, List.filter_append]

theorem lingers_append_of_ne {log : List (Drop H)} {v w : H} (hne : v ≠ w)
    (pending : List (Request H)) : Lingers (log ++ [⟨w, pending⟩]) v ↔ Lingers log v := by
  simp [Lingers, List.filter_append, Ne.symm hne]

namespace Manager

variable {d : DisplayServer S H} {screen : S → FlatStack H} {m : Manager S H}
  {log : List (Drop H)}

/-! ## The outlook -/

/-- What the display server will show once the queue is sent. -/
def outlook (screen : S → FlatStack H) (m : Manager S H) : FlatStack H :=
  m.engine.queue.foldl FlatStack.apply (screen m.server)

theorem screen_send (hd : Mirrors d screen) (s : S) (rs : List (Request H)) :
    screen (send d s rs).1 = rs.foldl FlatStack.apply (screen s) := by
  induction rs generalizing s with
  | nil => rfl
  | cons r rest ih =>
    have hrest := ih (d.stack s r).1
    rw [hd.stack] at hrest
    rw [send, List.foldl_cons, ← hrest]
    dsimp only
    split <;> rfl

theorem outlook_deliver (hd : Mirrors d screen) (m : Manager S H) :
    (m.deliver d).1.outlook screen = m.outlook screen :=
  screen_send hd m.server m.engine.queue

/-- What every step of a run keeps: the windows that the stack will show, and their order
unless a window was dropped while a queued request was anchored on it. -/
structure InStep (screen : S → FlatStack H) (m : Manager S H) (log : List (Drop H)) : Prop where
  sound : m.engine.tree.Sound none
  mem_outlook : ∀ w, w ∈ (m.outlook screen).order ↔ w ∈ m.engine.zOrder ∨ Lingers log w
  filter_outlook : (∀ drop ∈ log, ¬ Exposed drop.pending drop.window) →
    (m.outlook screen).order.filter (· ∈ m.engine.zOrder) = m.engine.zOrder

/-! ## The steps of a run -/

/-- A series of changes of the engine queues what the stack has to know about it. -/
theorem InStep.changes (h : InStep screen m log) {e : Engine H} {s : S}
    (he : Engine.Changes m.engine e) (hs : screen s = screen m.server) :
    InStep screen { m with engine := e, server := s } log := by
  obtain ⟨rs, hqueue, hrs⟩ := he.delivers h.sound
  have hout : outlook screen { m with engine := e, server := s } =
      rs.foldl FlatStack.apply (m.outlook screen) := by
    rw [outlook, outlook, hqueue, hs, List.foldl_append]
  refine ⟨he.tree_sound h.sound, fun w => ?_, fun hlog => ?_⟩
  · rw [hout, FlatStack.mem_foldl_apply, h.mem_outlook]
    show _ ↔ w ∈ e.zOrder ∨ Lingers log w
    rw [hrs.mem_iff, or_right_comm]
  · rw [hout]
    exact hrs.filter_eq _ (h.filter_outlook hlog)

theorem untrack_of_tracked (d : DisplayServer S H) (h : m.engine.tree.Sound none) {w : H}
    (hw : m.engine.isStacked w = true) :
    (m.untrack d w).2 =
      { m with engine := (m.engine.remove w).2, server := d.forget m.server w } := by
  obtain ⟨id, hget⟩ := Option.isSome_iff_exists.mp hw
  obtain ⟨p, below, above, t', -, -, -, heq⟩ := Engine.remove_eq h hget
  simp only [untrack, heq, if_true]

/-- A window that goes is taken off the stack, and the requests still queued are carried
out without it. -/
theorem InStep.drop (hd : Mirrors d screen) (h : InStep screen m log) {w : H}
    (hw : m.engine.isStacked w = true) :
    InStep screen (m.untrack d w).2 (log ++ [⟨w, m.engine.queue⟩]) := by
  obtain ⟨r, hqueue, hgone, hr⟩ := Engine.remove_delivers h.sound hw
  rw [untrack_of_tracked d h.sound hw]
  have hout : outlook screen
      { m with engine := (m.engine.remove w).2, server := d.forget m.server w } =
      (m.engine.queue.foldl FlatStack.apply ((screen m.server).forget w)).apply r := by
    rw [outlook, hqueue, hd.forget, List.foldl_append]
    rfl
  have hstay : ∀ v, v ∈ (m.engine.remove w).2.zOrder ↔ v ∈ m.engine.zOrder ∧ v ≠ w := by
    intro v
    simp [hgone]
  have hlisted : ∀ v ∈ r.windows, v ∈ (m.engine.remove w).2.zOrder :=
    fun v hv => hr.mem_iff.mpr (.inr ⟨r, List.mem_singleton_self r, hv⟩)
  refine ⟨Engine.remove_sound h.sound w, fun v => ?_, fun hlog => ?_⟩
  · -- The window itself comes back exactly if a request lists it; the others stay.
    rw [hout, FlatStack.mem_apply, FlatStack.mem_foldl_apply, FlatStack.forget, hstay]
    by_cases hv : v = w
    · subst hv
      have hnot : v ∉ r.windows := fun hmem => ((hstay v).mp (hlisted v hmem)).2 rfl
      simp [hnot, lingers_append_self]
    · have hold := h.mem_outlook v
      rw [outlook, FlatStack.mem_foldl_apply] at hold
      have hkept : v ∈ (screen m.server).order.filter (· ≠ w) ↔ v ∈ (screen m.server).order := by
        simp [hv]
      rw [hkept, hold, lingers_append_of_ne hv, and_iff_left hv]
      exact or_iff_left_of_imp fun hmem => .inl ((hstay v).mp (hlisted v hmem)).1
  · -- The windows that stay are in order before the last request, which keeps it so.
    have hexposed : ¬ Exposed m.engine.queue w := hlog ⟨w, m.engine.queue⟩ (by simp)
    have hbefore := h.filter_outlook fun drop hdrop => hlog drop (List.mem_append_left _ hdrop)
    have hrest : (m.outlook screen).order.filter (· ∈ (m.engine.remove w).2.zOrder) =
        (m.engine.remove w).2.zOrder := by
      rw [hgone]
      exact filter_mem_filter _ hbefore
    rw [hout]
    refine hr.filter_eq _ ?_
    rcases FlatStack.foldl_apply_forget hexposed (screen m.server) with hforget | hforget
    · rw [hforget, ← outlook, FlatStack.forget, List.filter_filter]
      refine (List.filter_congr fun v _ => ?_).trans hrest
      by_cases hv : v = w <;> simp [hstay, hv]
    · rw [hforget, ← outlook]
      exact hrest

/-- No step of a run breaks what `InStep` says. -/
theorem kept_inStep (hd : Mirrors d screen) : Kept d (InStep screen) where
  perform m log op hop h := by
    -- Asking about windows leaves the stack alone.
    have hscreen : screen (m.performQueued d op).2.server = screen m.server := by
      rw [performQueued]
      dsimp only
      split
      · exact hd.asked m.server
      · rfl
    exact h.changes (Engine.perform_changes h.sound (d.query m.server) hop) hscreen
  focus m log w h := h.changes (Engine.focus_changes h.sound w) rfl
  drop m log w hw h := h.drop hd hw
  deliver m log h := by
    refine ⟨h.sound, fun w => ?_, fun hlog => ?_⟩
    · rw [outlook_deliver hd m]
      exact h.mem_outlook w
    · rw [outlook_deliver hd m]
      exact h.filter_outlook hlog

theorem inStep_new (settings : Settings) {server : S} (hserver : screen server = ⟨[]⟩) :
    InStep (H := H) screen (.new settings server) [] := by
  have horder : (Manager.new settings server : Manager S H).outlook screen = ⟨[]⟩ := hserver
  refine ⟨Tree.sound_empty, fun w => ?_, fun _ => ?_⟩
  · rw [horder]
    exact iff_of_false List.not_mem_nil fun h => h.elim List.not_mem_nil (not_lingers_nil w)
  · rw [horder]
    rfl

/-! ## Runs -/

/-- How far the stack of a display server follows the engine, each time a call returns.
It holds the tracked windows and those that a request, queued when they were last dropped,
has brought back. If the first queued request that names a dropped window never just
anchors on it, the stack is the order of the screen unless one of those windows is not
tracked. -/
theorem screen_of_calls (hd : Mirrors d screen) (settings : Settings) (server : S)
    (hserver : screen server = ⟨[]⟩) (calls : List (Call H)) :
    (∀ w, w ∈ (screen ((Manager.new settings server).callAll d calls).server).order ↔
      ((Manager.new settings server).callAll d calls).engine.isStacked w = true ∨
        Lingers ((Manager.new settings server).dropsAll d calls) w) ∧
    ((∀ drop ∈ (Manager.new settings server).dropsAll d calls,
        ¬ Exposed drop.pending drop.window) →
      (screen ((Manager.new settings server).callAll d calls).server =
          ⟨((Manager.new settings server).callAll d calls).engine.zOrder⟩ ↔
        ∀ w, Lingers ((Manager.new settings server).dropsAll d calls) w →
          ((Manager.new settings server).callAll d calls).engine.isStacked w = true)) := by
  have hrun := (kept_inStep hd).callAll calls (inStep_new settings hserver)
  -- Nothing is queued between calls, so the outlook is what the server shows.
  have hout : ((Manager.new settings server).callAll d calls).outlook screen =
      screen ((Manager.new settings server).callAll d calls).server := by
    rw [outlook, queue_callAll rfl calls]
    rfl
  rw [List.nil_append] at hrun
  generalize (Manager.new settings server).callAll d calls = m at hrun hout ⊢
  generalize (Manager.new settings server).dropsAll d calls = log at hrun ⊢
  rw [← hout]
  constructor
  · intro w
    rw [hrun.mem_outlook, Engine.mem_zOrder_iff hrun.sound]
  · intro hlog
    constructor
    · intro heq w hw
      have hmem := (hrun.mem_outlook w).mpr (.inr hw)
      rw [heq] at hmem
      exact (Engine.mem_zOrder_iff hrun.sound).mp hmem
    · intro hlingers
      -- Every window on the stack is tracked, so the stack is the part that is in order.
      have hall : ∀ w ∈ (m.outlook screen).order, w ∈ m.engine.zOrder := by
        intro w hw
        rcases (hrun.mem_outlook w).mp hw with hmem | hmem
        · exact hmem
        · exact (Engine.mem_zOrder_iff hrun.sound).mpr (hlingers w hmem)
      have hfilter := hrun.filter_outlook hlog
      rw [List.filter_eq_self.mpr fun w hw => by simpa using hall w hw] at hfilter
      exact congrArg FlatStack.mk hfilter

/-! ## A display server with a script -/

/-- A display server that keeps a flat stack and answers each request with the next entry
of a script. -/
def scripted : DisplayServer (FlatStack H × List (Option (Event H))) H where
  query _ := .blank
  stack s r := ((s.1.apply r, s.2.tail), .ok s.2.head?.join)
  forget s w := (s.1.forget w, s.2)

theorem mirrors_scripted : Mirrors (scripted (H := H)) Prod.fst :=
  ⟨fun _ _ => rfl, fun _ _ => rfl, fun _ => rfl⟩

/-- A window that is destroyed when nothing is queued is off the stack. -/
theorem screen_of_calls_empty_queue :
    ((Manager.new {} (⟨[]⟩, [none, none, some (.windowDestroyed 1)])).callAll scripted
      [.op (.add 1), .op (.add 2), .op (.toTop 1)]).server.1 = ⟨[2]⟩ := by
  have hrun := screen_of_calls mirrors_scripted {}
    (⟨[]⟩, [none, none, some (.windowDestroyed 1)]) rfl [.op (.add 1), .op (.add 2), .op (.toTop 1)]
  have hdrops : (Manager.new {} (⟨[]⟩, [none, none, some (.windowDestroyed 1)])).dropsAll scripted
      [.op (.add 1), .op (.add 2), .op (.toTop 1)] = [⟨1, []⟩] := by decide
  rw [hdrops] at hrun
  refine (hrun.2 ?_).mpr ?_
  · rintro drop hdrop ⟨before, r, after, hsplit, -⟩
    rw [List.mem_singleton.mp hdrop] at hsplit
    simp at hsplit
  · rintro w ⟨drop, hdrop, r, hr, -⟩
    have hmem := List.mem_of_mem_filter (List.mem_of_getLast? hdrop)
    rw [List.mem_singleton.mp hmem] at hr
    cases hr

/-- One batch reports that 2 has the focus and that 1 is gone. The request for the first
lists 1, and is carried out once 1 is forgotten. -/
theorem screen_keeps_destroyed_window :
    ((Manager.new {} (⟨[]⟩, [none, none, some (.focusChanged 2),
        some (.windowDestroyed 1)])).callAll scripted
      [.op (.add 1), .op (.add 2), .op (.fullscreen 1 true)]).server.1 = ⟨[2, 1]⟩ ∧
    ((Manager.new {} (⟨[]⟩, [none, none, some (.focusChanged 2),
        some (.windowDestroyed 1)])).callAll scripted
      [.op (.add 1), .op (.add 2), .op (.fullscreen 1 true)]).engine.zOrder = [2] := by
  decide

-- The request that takes 2 out of the fullscreen band is anchored on 1, which is gone when
-- the request is carried out: no window lingers, and yet 2 ends up above 3.
example :
    ((Manager.new {} (⟨[]⟩, [none, none, none, some (.focusChanged 3),
        some (.windowDestroyed 1)])).callAll scripted
      [.op (.add 1), .op (.addAt 2 .keepAbove .top), .op (.addAt 3 .top .top),
        .op (.fullscreen 2 true)]).server.1 = ⟨[3, 2]⟩ ∧
    ((Manager.new {} (⟨[]⟩, [none, none, none, some (.focusChanged 3),
        some (.windowDestroyed 1)])).callAll scripted
      [.op (.add 1), .op (.addAt 2 .keepAbove .top), .op (.addAt 3 .top .top),
        .op (.fullscreen 2 true)]).engine.zOrder = [2, 3] := by
  decide

end Manager

end ZOrder
