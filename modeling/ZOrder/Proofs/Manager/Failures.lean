/-
  ZOrder.Proofs.Manager.Failures

  A display server that fails leaves no trace in the engine. All that a manager takes from
  its server are the answers about windows and the events that are reported; an answer to a
  request matters only for the event that it brings.

  `Simulates` says when two servers are alike in these respects, for states that belong
  together. Then managers that drive them take the same steps. Two servers that answer
  alike and never report anything are such servers, whichever requests they fail on.
-/

import ZOrder.Proofs.Manager.Drops

namespace ZOrder

/-! ## What a display server hears -/

/-- What a display server hears from its manager. -/
inductive Message (H : Type) where
  /-- It has been asked about windows. -/
  | asked
  /-- It is to carry out a request. -/
  | stack (r : Request H)
  /-- A window is not tracked any more. -/
  | forget (w : H)
  deriving DecidableEq, Repr

/-- The event that an answer to a request reports, if any. -/
def reported {H : Type} : Except SyncError (Option (Event H)) → Option (Event H)
  | .ok event => event
  | .error _ => none

namespace DisplayServer

variable {S S' H : Type}

/-- The state of a display server once it has heard a message. -/
def hear (d : DisplayServer S H) (s : S) : Message H → S
  | .asked => d.asked s
  | .stack r => (d.stack s r).1
  | .forget w => d.forget s w

/-- The state of a display server once it has heard some messages. -/
def hearAll (d : DisplayServer S H) (s : S) (heard : List (Message H)) : S :=
  heard.foldl d.hear s

/-- A display server that also notes what it hears. -/
def noting (d : DisplayServer S H) : DisplayServer (S × List (Message H)) H where
  query s := d.query s.1
  asked s := (d.asked s.1, s.2 ++ [.asked])
  stack s r := (((d.stack s.1 r).1, s.2 ++ [.stack r]), (d.stack s.1 r).2)
  forget s w := (d.forget s.1 w, s.2 ++ [.forget w])

/-- Two display servers answer alike about windows as long as they hear the same. The answers
may change with anything that is heard, questions included. -/
def AnswersAlike (d : DisplayServer S H) (s : S) (d' : DisplayServer S' H) (s' : S') : Prop :=
  ∀ heard, d.query (d.hearAll s heard) = d'.query (d'.hearAll s' heard)

/-- A display server never reports an event, whatever it hears. It may fail. -/
def Silent (d : DisplayServer S H) (s : S) : Prop :=
  ∀ heard r event, (d.stack (d.hearAll s heard) r).2 ≠ .ok (some event)

theorem hearAll_concat (d : DisplayServer S H) (s : S) (heard : List (Message H))
    (m : Message H) : d.hearAll s (heard ++ [m]) = d.hear (d.hearAll s heard) m := by
  simp [hearAll]

theorem Silent.reported_eq {d : DisplayServer S H} {s : S} (h : d.Silent s)
    (heard : List (Message H)) (r : Request H) :
    reported (d.stack (d.hearAll s heard) r).2 = none := by
  have hnone := h heard r
  cases hanswer : (d.stack (d.hearAll s heard) r).2 with
  | error _ => rfl
  | ok event =>
    cases event with
    | none => rfl
    | some event => exact absurd hanswer (hnone event)

/-- A display server that can not be reached: it fails on every request, and knows nothing
about its windows. -/
def unreachable (H : Type) : DisplayServer Unit H where
  query _ := Query.blank
  stack _ _ := ((), .error (.connection "unreachable"))
  forget _ _ := ()

/-! ## Display servers alike -/

/-- Two display servers are alike in states that `R` relates: they answer the same, report
the same, and hearing the same leads to related states. -/
structure Simulates (d : DisplayServer S H) (d' : DisplayServer S' H) (R : S → S' → Prop) :
    Prop where
  query : ∀ {s s'}, R s s' → d.query s = d'.query s'
  reports : ∀ {s s'}, R s s' → ∀ r, reported (d.stack s r).2 = reported (d'.stack s' r).2
  hear : ∀ {s s'}, R s s' → ∀ m, R (d.hear s m) (d'.hear s' m)

/-- A display server that takes notes is like the one that does not. -/
theorem simulates_noting (d : DisplayServer S H) :
    Simulates d.noting d fun s s' => s.1 = s' where
  query := by
    rintro s s' rfl
    rfl
  reports := by
    rintro s s' rfl r
    rfl
  hear := by
    rintro s s' rfl m
    cases m <;> rfl

/-- Silent display servers that answer alike are alike while their notes are the same. -/
theorem simulates_of_silent {d : DisplayServer S H} {d' : DisplayServer S' H} {s : S} {s' : S'}
    (halike : AnswersAlike d s d' s') (hd : d.Silent s) (hd' : d'.Silent s') :
    Simulates d.noting d'.noting fun a b =>
      ∃ heard, a = (d.hearAll s heard, heard) ∧ b = (d'.hearAll s' heard, heard) where
  query := by
    rintro _ _ ⟨heard, rfl, rfl⟩
    exact halike heard
  reports := by
    rintro _ _ ⟨heard, rfl, rfl⟩ r
    exact (hd.reported_eq heard r).trans (hd'.reported_eq heard r).symm
  hear := by
    rintro _ _ ⟨heard, rfl, rfl⟩ m
    refine ⟨heard ++ [m], ?_, ?_⟩
    · rw [hearAll_concat]
      cases m <;> rfl
    · rw [hearAll_concat]
      cases m <;> rfl

end DisplayServer

namespace Manager

open DisplayServer (Simulates AnswersAlike Silent)

variable {S S' H : Type}

/-- Two managers agree but for their servers, which are in related states. -/
structure Agree (R : S → S' → Prop) (m : Manager S H) (m' : Manager S' H) : Prop where
  engine : m.engine = m'.engine
  settings : m.settings = m'.settings
  server : R m.server m'.server

variable {d : DisplayServer S H} {d' : DisplayServer S' H} {R : S → S' → Prop}
  {m : Manager S H} {m' : Manager S' H}

/-! ## Sending requests -/

theorem send_cons (d : DisplayServer S H) (s : S) (r : Request H) (rest : List (Request H)) :
    send d s (r :: rest) =
      ((send d (d.hear s (.stack r)) rest).1,
        (reported (d.stack s r).2).toList ++ (send d (d.hear s (.stack r)) rest).2) := by
  rw [send, DisplayServer.hear]
  obtain ⟨s', answer⟩ := d.stack s r
  rcases answer with error | event
  · rfl
  · cases event <;> rfl

theorem send_agree (hsim : Simulates d d' R) {s : S} {s' : S'} (h : R s s')
    (rs : List (Request H)) :
    R (send d s rs).1 (send d' s' rs).1 ∧ (send d s rs).2 = (send d' s' rs).2 := by
  induction rs generalizing s s' with
  | nil => exact ⟨h, rfl⟩
  | cons r rest ih =>
    have hrest := ih (hsim.hear h (.stack r))
    rw [send_cons, send_cons, hsim.reports h r, hrest.2]
    exact ⟨hrest.1, rfl⟩

theorem deliver_agree (hsim : Simulates d d' R) (h : Agree R m m') :
    Agree R (m.deliver d).1 (m'.deliver d').1 ∧ (m.deliver d).2 = (m'.deliver d').2 := by
  have hsend := send_agree hsim h.server m.engine.queue
  simp only [deliver]
  rw [← h.engine]
  exact ⟨⟨rfl, h.settings, hsend.1⟩, hsend.2⟩

/-! ## Steps and rounds -/

variable [DecidableEq H]

theorem untrack_agree (hsim : Simulates d d' R) (h : Agree R m m') (w : H) :
    (m.untrack d w).1 = (m'.untrack d' w).1 ∧
      Agree R (m.untrack d w).2 (m'.untrack d' w).2 := by
  simp only [untrack]
  rw [← h.engine]
  refine ⟨rfl, rfl, h.settings, ?_⟩
  dsimp only
  split
  · exact hsim.hear h.server (.forget w)
  · exact h.server

theorem dispatch_agree (hsim : Simulates d d' R) (h : Agree R m m') (event : Event H) :
    (m.dispatch d event).1 = (m'.dispatch d' event).1 ∧
      Agree R (m.dispatch d event).2 (m'.dispatch d' event).2 := by
  cases event with
  | focusChanged w =>
    simp only [dispatch]
    rw [← h.engine]
    exact ⟨rfl, rfl, h.settings, h.server⟩
  | windowDestroyed w => exact untrack_agree hsim h w

theorem dispatchAll_agree (hsim : Simulates d d' R) (h : Agree R m m')
    (events : List (Event H)) : Agree R (m.dispatchAll d events) (m'.dispatchAll d' events) := by
  induction events generalizing m m' with
  | nil => exact h
  | cons event rest ih => exact ih (dispatch_agree hsim h event).2

theorem flushFor_agree (hsim : Simulates d d' R) (rounds : Nat) (h : Agree R m m') :
    Agree R (flushFor d rounds m) (flushFor d' rounds m') := by
  induction rounds generalizing m m' with
  | zero => exact (deliver_agree hsim h).1
  | succ rounds ih =>
    -- Both drains report the same, so both go on, or neither does.
    obtain ⟨hsent, hevents⟩ := deliver_agree hsim h
    rw [flushFor, flushFor]
    generalize m.deliver d = drained at hsent hevents
    generalize m'.deliver d' = drained' at hsent hevents
    obtain ⟨n, events⟩ := drained
    obtain ⟨n', events'⟩ := drained'
    obtain rfl : events = events' := hevents
    cases events with
    | nil => exact hsent
    | cons event rest => exact ih (dispatchAll_agree hsim hsent _)

theorem flush_agree (hsim : Simulates d d' R) (h : Agree R m m') :
    Agree R (m.flush d) (m'.flush d') := by
  rw [flush, flush, h.settings]
  exact flushFor_agree hsim _ h

theorem performQueued_agree (hsim : Simulates d d' R) (h : Agree R m m') (op : Op H) :
    (m.performQueued d op).1 = (m'.performQueued d' op).1 ∧
      Agree R (m.performQueued d op).2 (m'.performQueued d' op).2 := by
  simp only [performQueued]
  rw [← h.engine, ← hsim.query h.server]
  refine ⟨rfl, rfl, h.settings, ?_⟩
  dsimp only
  split
  · exact hsim.hear h.server .asked
  · exact h.server

theorem change_agree (hsim : Simulates d d' R) (h : Agree R m m') (op : Op H) :
    (m.change d op).1 = (m'.change d' op).1 ∧
      Agree R (m.change d op).2 (m'.change d' op).2 := by
  cases op with
  | remove w => exact untrack_agree hsim h w
  | _ => exact performQueued_agree hsim h _

/-! ## Runs -/

/-- What a caller can do with a manager: change the stacking, report an event, or look at the
stacking with the names and places that the display server knows. -/
inductive Use (H : Type) where
  | call (c : Call H)
  | inspect

/-- What a caller is told. -/
inductive Reply (H : Type) where
  | changed (b : Bool)
  | stacking (i : Info H)

/-- What the caller is told, and the manager afterwards. -/
def use (d : DisplayServer S H) (m : Manager S H) : Use H → Reply H × Manager S H
  | .call (.op op) =>
    let (changed, m) := m.perform d op
    (.changed changed, m)
  | .call (.event event) =>
    let (changed, m) := m.handle d event
    (.changed changed, m)
  | .inspect =>
    let (info, m) := m.inspect d
    (.stacking info, m)

/-- The manager after some uses. -/
def useAll (d : DisplayServer S H) (m : Manager S H) (uses : List (Use H)) : Manager S H :=
  uses.foldl (fun m u => (m.use d u).2) m

/-- What the caller is told, use by use. -/
def replies (d : DisplayServer S H) (m : Manager S H) : List (Use H) → List (Reply H)
  | [] => []
  | u :: rest => (m.use d u).1 :: replies d (m.use d u).2 rest

/-- A manager whose display server takes notes from now on. -/
def withNotes (m : Manager S H) : Manager (S × List (Message H)) H :=
  ⟨m.engine, (m.server, []), m.settings⟩

/-- What the display server hears in the course of some uses. -/
def heard (d : DisplayServer S H) (m : Manager S H) (uses : List (Use H)) : List (Message H) :=
  (m.withNotes.useAll d.noting uses).server.2

theorem use_agree (hsim : Simulates d d' R) (h : Agree R m m') (u : Use H) :
    (m.use d u).1 = (m'.use d' u).1 ∧ Agree R (m.use d u).2 (m'.use d' u).2 := by
  cases u with
  | call c =>
    cases c with
    | op op =>
      obtain ⟨hreply, hagree⟩ := change_agree hsim h op
      exact ⟨congrArg Reply.changed hreply, flush_agree hsim hagree⟩
    | event event =>
      obtain ⟨hreply, hagree⟩ := dispatch_agree hsim h event
      exact ⟨congrArg Reply.changed hreply, flush_agree hsim hagree⟩
  | inspect =>
    simp only [use, inspect]
    rw [← h.engine, ← hsim.query h.server]
    refine ⟨rfl, rfl, h.settings, ?_⟩
    dsimp only
    split
    · exact h.server
    · exact hsim.hear h.server .asked

theorem useAll_agree (hsim : Simulates d d' R) (h : Agree R m m') (uses : List (Use H)) :
    Agree R (m.useAll d uses) (m'.useAll d' uses) := by
  induction uses generalizing m m' with
  | nil => exact h
  | cons u rest ih => exact ih (use_agree hsim h u).2

theorem replies_agree (hsim : Simulates d d' R) (h : Agree R m m') (uses : List (Use H)) :
    replies d m uses = replies d' m' uses := by
  induction uses generalizing m m' with
  | nil => rfl
  | cons u rest ih =>
    obtain ⟨hreply, hagree⟩ := use_agree hsim h u
    rw [replies, replies, hreply, ih hagree]

theorem queue_useAll (hm : m.engine.queue = []) (uses : List (Use H)) :
    (m.useAll d uses).engine.queue = [] := by
  induction uses generalizing m with
  | nil => exact hm
  | cons u rest ih =>
    refine ih ?_
    cases u with
    | call c => cases c <;> exact queue_flushFor _ _
    | inspect => exact hm

/-- Notes change nothing: a manager whose server takes notes is in the state that it would be
in otherwise. -/
theorem useAll_noting (d : DisplayServer S H) (m : Manager S H) (uses : List (Use H)) :
    Agree (fun s s' => s.1 = s') (m.withNotes.useAll d.noting uses) (m.useAll d uses) :=
  useAll_agree d.simulates_noting ⟨rfl, rfl, rfl⟩ uses

/-- Failures stay outside: whichever requests two display servers fail on, as long as they
answer alike about windows and report nothing, a caller is told the same by a manager of
either, both hear the same requests and the same windows that go, and the engines are the
same after every use, with nothing left in the queue. -/
theorem failures_stay_outside (settings : Settings) {d : DisplayServer S H}
    {d' : DisplayServer S' H} {s : S} {s' : S'} (halike : AnswersAlike d s d' s')
    (hd : d.Silent s) (hd' : d'.Silent s') (uses : List (Use H)) :
    replies d (.new settings s) uses = replies d' (.new settings s') uses ∧
      heard d (.new settings s) uses = heard d' (.new settings s') uses ∧
      ((Manager.new settings s).useAll d uses).engine =
        ((Manager.new settings s').useAll d' uses).engine ∧
      ((Manager.new settings s).useAll d uses).engine.queue = [] := by
  have hsim := DisplayServer.simulates_of_silent halike hd hd'
  have hstart : Agree (fun a b => ∃ heard, a = (d.hearAll s heard, heard) ∧
      b = (d'.hearAll s' heard, heard)) (Manager.new settings s : Manager S H).withNotes
      (Manager.new settings s').withNotes := ⟨rfl, rfl, [], rfl, rfl⟩
  have hend := useAll_agree hsim hstart uses
  -- The run with notes is followed by the run without them, on either side.
  have hnotes := useAll_noting d (.new settings s) uses
  have hnotes' := useAll_noting d' (.new settings s') uses
  refine ⟨?_, ?_, ?_, queue_useAll rfl uses⟩
  · have hreplies := replies_agree d.simulates_noting
      (m := (Manager.new settings s).withNotes) ⟨rfl, rfl, rfl⟩ uses
    have hreplies' := replies_agree d'.simulates_noting
      (m := (Manager.new settings s').withNotes) ⟨rfl, rfl, rfl⟩ uses
    rw [← hreplies, ← hreplies']
    exact replies_agree hsim hstart uses
  · obtain ⟨notes, hleft, hright⟩ := hend.server
    rw [heard, heard, hleft, hright]
  · rw [← hnotes.engine, ← hnotes'.engine]
    exact hend.engine

/-- A flat stack that carries out everything, and a server that carries out nothing. -/
theorem failures_stay_outside_of_unreachable :
    let uses : List (Use Nat) := [.call (.op (.add 1)), .call (.op (.add 2)),
      .call (.op (.toTop 1)), .call (.event (.windowDestroyed 2)), .inspect]
    heard FlatStack.server (.new {} .empty) uses =
        heard (DisplayServer.unreachable Nat) (.new {} ()) uses ∧
      ((Manager.new {} FlatStack.empty).useAll FlatStack.server uses).engine =
        ((Manager.new {} ()).useAll (DisplayServer.unreachable Nat) uses).engine := by
  intro uses
  have halike : AnswersAlike FlatStack.server .empty (DisplayServer.unreachable Nat) () :=
    fun _ => rfl
  have hflat : Silent (FlatStack.server (H := Nat)) .empty := fun _ _ _ hanswer => by cases hanswer
  have hgone : Silent (DisplayServer.unreachable Nat) () := fun _ _ _ hanswer => by cases hanswer
  have hsame := failures_stay_outside {} halike hflat hgone uses
  exact ⟨hsame.2.1, hsame.2.2.1⟩

end Manager

end ZOrder
