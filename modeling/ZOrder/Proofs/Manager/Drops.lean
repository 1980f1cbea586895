/-
  ZOrder.Proofs.Manager.Drops

  Runs of a manager, cut into steps. A call of the manager starts with one step, an
  operation or an event, and then empties the queue; the events reported meanwhile
  are further steps. What each kind of step keeps, every run of calls keeps.

  A run also has a record of its drops: each window that stopped being tracked, with
  the requests that were queued at that moment and had yet to be sent.
-/

import ZOrder.Manager
import ZOrder.Proofs.Engine.Steps

namespace ZOrder

/-- What a caller can ask of a manager. -/
inductive Call (H : Type) where
  | op (op : Op H)
  | event (event : Event H)
  deriving DecidableEq, Repr

/-- A window that stops being tracked, and the requests still queued at that moment. -/
structure Drop (H : Type) where
  window : H
  pending : List (Request H)
  deriving DecidableEq, Repr

namespace Manager

variable {S H : Type} [DecidableEq H]

/-! ## Runs -/

/-- Answers one call. -/
def call (d : DisplayServer S H) (m : Manager S H) : Call H → Manager S H
  | .op op => (m.perform d op).2
  | .event event => (m.handle d event).2

/-- Answers calls in turn. -/
def callAll (d : DisplayServer S H) (m : Manager S H) (calls : List (Call H)) : Manager S H :=
  calls.foldl (call d) m

/-- The first step of a call, before the queue is emptied. -/
def start (d : DisplayServer S H) (m : Manager S H) : Call H → Manager S H
  | .op op => (m.change d op).2
  | .event event => (m.dispatch d event).2

theorem call_eq (d : DisplayServer S H) (m : Manager S H) (c : Call H) :
    m.call d c = (m.start d c).flush d := by
  cases c <;> rfl

/-! ## The record of drops -/

/-- The drop that an event causes, if any. -/
def dropsOf (m : Manager S H) : Event H → List (Drop H)
  | .windowDestroyed w => if m.engine.isStacked w then [⟨w, m.engine.queue⟩] else []
  | .focusChanged _ => []

/-- The drops while events are dispatched. -/
def dropsIn (d : DisplayServer S H) (m : Manager S H) : List (Event H) → List (Drop H)
  | [] => []
  | event :: rest => m.dropsOf event ++ dropsIn d (m.dispatch d event).2 rest

/-- The drops while the queue is emptied. -/
def dropsFor (d : DisplayServer S H) : (rounds : Nat) → Manager S H → List (Drop H)
  | 0, _ => []
  | rounds + 1, m =>
    match m.deliver d with
    | (_, []) => []
    | (m, events) => m.dropsIn d events ++ dropsFor d rounds (m.dispatchAll d events)

/-- The drop that the first step of a call causes, if any. -/
def startDrops (m : Manager S H) : Call H → List (Drop H)
  | .op (.remove w) => m.dropsOf (.windowDestroyed w)
  | .op _ => []
  | .event event => m.dropsOf event

/-- The drops of one call. -/
def drops (d : DisplayServer S H) (m : Manager S H) (c : Call H) : List (Drop H) :=
  m.startDrops c ++ dropsFor d (m.start d c).settings.maxEventDepth.toNat (m.start d c)

/-- The drops of a run, the earliest first. -/
def dropsAll (d : DisplayServer S H) (m : Manager S H) : List (Call H) → List (Drop H)
  | [] => []
  | c :: rest => m.drops d c ++ dropsAll d (m.call d c) rest

/-! ## What every step keeps -/

/-- A property of a manager and the drops so far that no step of a run breaks. -/
structure Kept (d : DisplayServer S H) (P : Manager S H → List (Drop H) → Prop) : Prop where
  perform : ∀ m log op, (∀ w, op ≠ .remove w) → P m log → P (m.performQueued d op).2 log
  focus : ∀ m log w, P m log → P (m.dispatch d (.focusChanged w)).2 log
  drop : ∀ m log w, m.engine.isStacked w = true → P m log →
    P (m.untrack d w).2 (log ++ [⟨w, m.engine.queue⟩])
  deliver : ∀ m log, P m log → P (m.deliver d).1 log

variable {d : DisplayServer S H} {P : Manager S H → List (Drop H) → Prop} {m : Manager S H}
  {log : List (Drop H)}

theorem untrack_of_untracked {w : H} (hw : m.engine.isStacked w = false) :
    m.untrack d w = (false, m) := by
  have hget : m.engine.tree.get w = none := by
    rwa [Engine.isStacked, Tree.contains, Option.isSome_eq_false_iff, Option.isNone_iff_eq_none]
      at hw
  simp only [untrack, Engine.remove_of_untracked hget, Bool.false_eq_true, if_false]

namespace Kept

theorem untrack (hP : Kept d P) (w : H) (h : P m log) :
    P (m.untrack d w).2 (log ++ m.dropsOf (.windowDestroyed w)) := by
  cases hw : m.engine.isStacked w with
  | true =>
    rw [dropsOf, if_pos hw]
    exact hP.drop m log w hw h
  | false =>
    rw [dropsOf, if_neg (by simp [hw]), untrack_of_untracked hw, List.append_nil]
    exact h

theorem dispatch (hP : Kept d P) (event : Event H) (h : P m log) :
    P (m.dispatch d event).2 (log ++ m.dropsOf event) := by
  cases event with
  | focusChanged w =>
    rw [dropsOf, List.append_nil]
    exact hP.focus m log w h
  | windowDestroyed w => exact hP.untrack w h

theorem dispatchAll (hP : Kept d P) (events : List (Event H)) (h : P m log) :
    P (m.dispatchAll d events) (log ++ m.dropsIn d events) := by
  induction events generalizing m log with
  | nil => rwa [dropsIn, List.append_nil]
  | cons event rest ih =>
    rw [dropsIn, ← List.append_assoc]
    exact ih (hP.dispatch event h)

theorem flushFor (hP : Kept d P) (rounds : Nat) (h : P m log) :
    P (flushFor d rounds m) (log ++ m.dropsFor d rounds) := by
  induction rounds generalizing m log with
  | zero =>
    rw [dropsFor, List.append_nil]
    exact hP.deliver m log h
  | succ rounds ih =>
    -- One round: the queue is sent, then the events reported meanwhile are dispatched.
    have hsent := hP.deliver m log h
    rw [Manager.flushFor, dropsFor]
    cases hm : m.deliver d with
    | mk m' events =>
      rw [hm] at hsent
      cases events with
      | nil => simpa using hsent
      | cons event rest =>
        rw [← List.append_assoc]
        exact ih (hP.dispatchAll (event :: rest) hsent)

theorem start (hP : Kept d P) (c : Call H) (h : P m log) :
    P (m.start d c) (log ++ m.startDrops c) := by
  cases c with
  | event event => exact hP.dispatch event h
  | op op =>
    by_cases hop : ∀ w, op ≠ .remove w
    · -- An operation that removes nothing drops nothing.
      have hstart : m.start d (.op op) = (m.performQueued d op).2 ∧ m.startDrops (.op op) = [] := by
        cases op with
        | remove w => exact absurd rfl (hop w)
        | _ => exact ⟨rfl, rfl⟩
      rw [hstart.1, hstart.2, List.append_nil]
      exact hP.perform m log op hop h
    · obtain ⟨w, hw⟩ := not_forall.mp hop
      rw [not_not.mp hw]
      exact hP.untrack w h

theorem call (hP : Kept d P) (c : Call H) (h : P m log) :
    P (m.call d c) (log ++ m.drops d c) := by
  rw [call_eq, drops, ← List.append_assoc]
  exact hP.flushFor _ (hP.start c h)

/-- What no step breaks holds after every run of calls. -/
theorem callAll (hP : Kept d P) (calls : List (Call H)) (h : P m log) :
    P (m.callAll d calls) (log ++ m.dropsAll d calls) := by
  induction calls generalizing m log with
  | nil => rwa [dropsAll, List.append_nil]
  | cons c rest ih =>
    rw [dropsAll, ← List.append_assoc]
    exact ih (hP.call c h)

end Kept

/-! ## The queue between calls -/

theorem queue_flushFor (rounds : Nat) (m : Manager S H) :
    (flushFor d rounds m).engine.queue = [] := by
  induction rounds generalizing m with
  | zero => rfl
  | succ rounds ih =>
    -- A round without events ends the call right after everything was sent.
    have hsent : (m.deliver d).1.engine.queue = [] := rfl
    rw [flushFor]
    cases hm : m.deliver d with
    | mk m' events =>
      rw [hm] at hsent
      cases events with
      | nil => exact hsent
      | cons event rest => exact ih _

/-- No request is left when a call returns. -/
theorem queue_callAll (hm : m.engine.queue = []) (calls : List (Call H)) :
    (m.callAll d calls).engine.queue = [] := by
  induction calls generalizing m with
  | nil => exact hm
  | cons c rest ih =>
    refine ih ?_
    rw [call_eq]
    exact queue_flushFor _ _

end Manager

end ZOrder
