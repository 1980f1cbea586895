/-
  ZOrder.Proofs.Manager.Flush

  Emptying the queue, step by step. A step either sends the oldest request, whatever the
  display server answers, or dispatches an event, which may queue requests. A run of such
  steps alternates between drains, which send requests until none is left, and the events
  that were reported meanwhile; `flush` is such a run, cut short once the settings allow
  no more events.

  Nothing is assumed of the display server or of the engine. Requests are never lost
  because every step keeps the balance of what was queued and what was sent.
-/

import ZOrder.Proofs.Manager.Drops

namespace ZOrder

/-! ## What an event queues -/

namespace Engine

variable {H : Type}

theorem queue_prefix_demote (e : Engine H) (focused family : NodeId) :
    e.queue <+: (e.demote focused family).queue := by
  unfold demote
  dsimp only
  split
  · exact List.prefix_rfl
  · split
    · exact List.prefix_rfl
    · split
      · exact List.prefix_rfl
      · exact List.prefix_append _ _

variable [DecidableEq H]

theorem queue_prefix_focus (e : Engine H) (w : H) : e.queue <+: (e.focus w).2.queue := by
  have hall : ∀ (focused : NodeId) (families : List NodeId) (e : Engine H),
      e.queue <+: (families.foldl (fun e family => e.demote focused family) e).queue := by
    intro focused families
    induction families with
    | nil => exact fun e => List.prefix_rfl
    | cons family rest ih =>
      exact fun e => (queue_prefix_demote e focused family).trans (ih _)
  unfold focus
  split
  · exact List.prefix_rfl
  · split
    · exact List.prefix_rfl
    · dsimp only
      split
      · exact List.prefix_rfl
      · exact hall _ _ e

theorem queue_prefix_remove (e : Engine H) (w : H) : e.queue <+: (e.remove w).2.queue := by
  unfold remove
  split
  · exact List.prefix_rfl
  · exact List.prefix_rfl
  · exact List.prefix_append _ _

end Engine

/-! ## Steps -/

/-- What a display server answers to a request. -/
abbrev Answer (H : Type) := Except SyncError (Option (Event H))

/-- One step on the way to an empty queue. -/
inductive Step (H : Type) where
  /-- The oldest request is sent, and answered. -/
  | sent (r : Request H) (answer : Answer H)
  /-- An event is dispatched, which queues these requests. -/
  | dispatched (event : Event H) (queued : List (Request H))

/-- One round: requests that are sent with their answers, and then events that are dispatched
with the requests that they queue. -/
structure Round (H : Type) where
  drain : List (Request H × Answer H)
  handled : List (Event H × List (Request H))

namespace Step

variable {H : Type}

/-- The requests sent, in turn. -/
def requests (steps : List (Step H)) : List (Request H) :=
  steps.filterMap fun
    | .sent r _ => some r
    | .dispatched _ _ => none

/-- The requests queued by events, in turn. -/
def queued (steps : List (Step H)) : List (Request H) :=
  steps.flatMap fun
    | .sent _ _ => []
    | .dispatched _ rs => rs

/-- The steps of a drain. -/
def ofDrain (drain : List (Request H × Answer H)) : List (Step H) :=
  drain.map fun c => .sent c.1 c.2

/-- The steps that dispatch some events. -/
def ofHandled (handled : List (Event H × List (Request H))) : List (Step H) :=
  handled.map fun c => .dispatched c.1 c.2

theorem queued_append (steps steps' : List (Step H)) :
    queued (steps ++ steps') = queued steps ++ queued steps' :=
  List.flatMap_append

/-- Sending requests queues none. -/
theorem queued_ofDrain (drain : List (Request H × Answer H)) : queued (ofDrain drain) = [] := by
  induction drain with
  | nil => rfl
  | cons c rest ih => exact ih

end Step

/-- The steps of a round. -/
def Round.steps {H : Type} (round : Round H) : List (Step H) :=
  Step.ofDrain round.drain ++ Step.ofHandled round.handled

/-- The events reported during a drain, in turn. -/
def reports {H : Type} (drain : List (Request H × Answer H)) : List (Event H) :=
  drain.filterMap fun c =>
    match c.2 with
    | .ok event => event
    | .error _ => none

namespace Manager

variable {S H : Type} [DecidableEq H] {d : DisplayServer S H} {m m' m'' : Manager S H}

/-- Some steps lead from one manager to another: each request is the oldest one when it is
sent and gets the answer of the display server, each event queues what it says. -/
inductive Leads (d : DisplayServer S H) : Manager S H → List (Step H) → Manager S H → Prop where
  | nil (m : Manager S H) : Leads d m [] m
  | sent {m m' : Manager S H} {r : Request H} {rest : List (Request H)} {s : S}
      {answer : Answer H} {steps : List (Step H)} (oldest : m.engine.queue = r :: rest)
      (answers : d.stack m.server r = (s, answer))
      (leads : Leads d { m with server := s, engine := { m.engine with queue := rest } } steps m') :
      Leads d m (.sent r answer :: steps) m'
  | dispatched {m m' : Manager S H} {event : Event H} {queued : List (Request H)}
      {steps : List (Step H)}
      (queues : (m.dispatch d event).2.engine.queue = m.engine.queue ++ queued)
      (leads : Leads d (m.dispatch d event).2 steps m') :
      Leads d m (.dispatched event queued :: steps) m'

theorem Leads.trans {steps steps' : List (Step H)} (h : Leads d m steps m')
    (h' : Leads d m' steps' m'') : Leads d m (steps ++ steps') m'' := by
  induction h with
  | nil m => exact h'
  | sent oldest answers _ ih => exact .sent oldest answers (ih h')
  | dispatched queues _ ih => exact .dispatched queues (ih h')

/-- What was queued is sent or still queued, in the same order. -/
theorem Leads.balance {steps : List (Step H)} (h : Leads d m steps m') :
    m.engine.queue ++ Step.queued steps = Step.requests steps ++ m'.engine.queue := by
  induction h with
  | nil m => simp [Step.queued, Step.requests]
  | sent oldest answers _ ih =>
    rw [oldest]
    exact congrArg (_ :: ·) ih
  | @dispatched m m' event queued steps queues _ ih =>
    rw [queues, List.append_assoc] at ih
    exact ih

/-! ## Drains -/

/-- The answers that a display server gives to requests sent in turn. -/
def answersTo (d : DisplayServer S H) (s : S) : List (Request H) → List (Request H × Answer H)
  | [] => []
  | r :: rest => (r, (d.stack s r).2) :: answersTo d (d.stack s r).1 rest

omit [DecidableEq H] in
theorem reports_answersTo (d : DisplayServer S H) (s : S) (rs : List (Request H)) :
    reports (answersTo d s rs) = (send d s rs).2 := by
  induction rs generalizing s with
  | nil => rfl
  | cons r rest ih =>
    rw [answersTo, send]
    obtain ⟨s', answer⟩ := d.stack s r
    have hrest := ih s'
    rw [reports] at hrest ⊢
    rw [List.filterMap_cons, hrest]
    rcases answer with error | event
    · rfl
    · cases event <;> rfl

/-- A drain sends all requests, whatever the answers. -/
theorem leads_send {rs : List (Request H)} (hrs : m.engine.queue = rs) :
    Leads d m (Step.ofDrain (answersTo d m.server rs))
      { m with server := (send d m.server rs).1, engine := { m.engine with queue := [] } } := by
  induction rs generalizing m with
  | nil =>
    have hself : ({ m with engine := { m.engine with queue := [] } } : Manager S H) = m := by
      rw [← hrs]
    show Leads d m [] { m with engine := { m.engine with queue := [] } }
    rw [hself]
    exact .nil m
  | cons r rest ih =>
    refine .sent hrs rfl ?_
    have hrest := ih (m := { m with
      server := (d.stack m.server r).1, engine := { m.engine with queue := rest } }) rfl
    have hserver : (send d m.server (r :: rest)).1 = (send d (d.stack m.server r).1 rest).1 := by
      rw [send]
      dsimp only
      split <;> rfl
    rwa [hserver]

theorem leads_deliver (d : DisplayServer S H) (m : Manager S H) :
    ∃ drain, Leads d m (Step.ofDrain drain) (m.deliver d).1 ∧ reports drain = (m.deliver d).2 :=
  ⟨answersTo d m.server m.engine.queue, leads_send rfl, reports_answersTo d _ _⟩

/-! ## Events -/

/-- An event adds requests at the end of the queue. -/
theorem exists_queued (d : DisplayServer S H) (m : Manager S H) (event : Event H) :
    ∃ queued, (m.dispatch d event).2.engine.queue = m.engine.queue ++ queued := by
  have hprefix : m.engine.queue <+: (m.dispatch d event).2.engine.queue := by
    cases event with
    | focusChanged w => exact m.engine.queue_prefix_focus w
    | windowDestroyed w => exact m.engine.queue_prefix_remove w
  obtain ⟨queued, hqueued⟩ := hprefix
  exact ⟨queued, hqueued.symm⟩

theorem leads_dispatchAll (d : DisplayServer S H) (m : Manager S H) (events : List (Event H)) :
    ∃ handled, handled.map Prod.fst = events ∧
      Leads d m (Step.ofHandled handled) (m.dispatchAll d events) := by
  induction events generalizing m with
  | nil => exact ⟨[], rfl, .nil m⟩
  | cons event rest ih =>
    obtain ⟨queued, hqueued⟩ := exists_queued d m event
    obtain ⟨handled, hhandled, hleads⟩ := ih (m.dispatch d event).2
    exact ⟨(event, queued) :: handled, congrArg (event :: ·) hhandled, .dispatched hqueued hleads⟩

/-! ## Rounds -/

/-- The events of a round are those that its drain reported, and they are dispatched once the
drain has emptied the queue. -/
structure Orderly (d : DisplayServer S H) (m : Manager S H) (before : List (Round H))
    (round : Round H) : Prop where
  handled : round.handled.map Prod.fst = reports round.drain
  nonempty : round.handled ≠ []
  drained : ∃ m', Leads d m (before.flatMap Round.steps ++ Step.ofDrain round.drain) m' ∧
    m'.engine.queue = []

/-- Emptying the queue is a run of orderly rounds and a last drain. There are as many rounds
as allowed, or else the last drain reports nothing. -/
theorem leads_flushFor (d : DisplayServer S H) (n : Nat) (m : Manager S H) :
    ∃ (rounds : List (Round H)) (last : List (Request H × Answer H)) (m' : Manager S H),
      Leads d m (rounds.flatMap Round.steps) m' ∧
      Leads d m' (Step.ofDrain last) (flushFor d n m) ∧
      (flushFor d n m).engine = { m'.engine with queue := [] } ∧
      (∀ before round after, rounds = before ++ round :: after → Orderly d m before round) ∧
      rounds.length ≤ n ∧ (rounds.length = n ∨ reports last = []) := by
  induction n generalizing m with
  | zero =>
    obtain ⟨drain, hleads, -⟩ := leads_deliver d m
    exact ⟨[], drain, m, .nil m, hleads, rfl, by simp, Nat.le_refl 0, .inl rfl⟩
  | succ n ih =>
    obtain ⟨drain, hleads, hreports⟩ := leads_deliver d m
    have hsent : (m.deliver d).1.engine = { m.engine with queue := [] } := rfl
    rw [flushFor]
    generalize hm : m.deliver d = result at hleads hreports hsent
    obtain ⟨m₁, events⟩ := result
    cases events with
    | nil =>
      -- Nothing is reported: this drain is the last.
      exact ⟨[], drain, m, .nil m, hleads, hsent, by simp, Nat.zero_le _, .inr hreports⟩
    | cons event rest =>
      obtain ⟨handled, hhandled, hdispatch⟩ := leads_dispatchAll d m₁ (event :: rest)
      obtain ⟨rounds, last, m', hrounds, hlast, hengine, horderly, hle, hend⟩ :=
        ih (m₁.dispatchAll d (event :: rest))
      have hround : Leads d m (Round.steps ⟨drain, handled⟩) (m₁.dispatchAll d (event :: rest)) :=
        hleads.trans hdispatch
      refine ⟨⟨drain, handled⟩ :: rounds, last, m', ?_, hlast, hengine, ?_, ?_, ?_⟩
      · exact hround.trans hrounds
      · intro before round after hsplit
        cases before with
        | nil =>
          obtain ⟨rfl, -⟩ := List.cons.inj hsplit
          refine ⟨hhandled.trans hreports.symm, ?_, m₁, hleads, by rw [hsent]⟩
          rintro rfl
          cases hhandled
        | cons first before =>
          obtain ⟨rfl, hrest⟩ := List.cons.inj hsplit
          obtain ⟨hevents, hne, m₂, hleads₂, hqueue⟩ := horderly before round after hrest
          refine ⟨hevents, hne, m₂, ?_, hqueue⟩
          rw [List.flatMap_cons, List.append_assoc]
          exact hround.trans hleads₂
      · exact Nat.succ_le_succ hle
      · exact hend.imp_left (congrArg (· + 1))

/-- How a queue is emptied, whatever the display server does: in rounds, at most as many as
the settings allow, each of which sends all requests and then dispatches, in turn, the events
reported meanwhile; and in a last drain, whose reports are dropped. Every request that was
queued, at the start or by an event, is sent once and in turn. -/
theorem flush_protocol (d : DisplayServer S H) (m : Manager S H) :
    ∃ (rounds : List (Round H)) (last : List (Request H × Answer H)) (m' : Manager S H),
      (Leads d m (rounds.flatMap Round.steps) m' ∧
        Leads d m' (Step.ofDrain last) (m.flush d)) ∧
      (m.flush d).engine.queue = [] ∧
      Step.requests (rounds.flatMap Round.steps ++ Step.ofDrain last) =
        m.engine.queue ++ Step.queued (rounds.flatMap Round.steps) ∧
      (∀ before round after, rounds = before ++ round :: after → Orderly d m before round) ∧
      rounds.length ≤ m.settings.maxEventDepth.toNat ∧
      (rounds.length < m.settings.maxEventDepth.toNat → reports last = []) ∧
      (m.flush d).engine = { m'.engine with queue := [] } := by
  obtain ⟨rounds, last, m', hrounds, hlast, hengine, horderly, hle, hend⟩ :=
    leads_flushFor d m.settings.maxEventDepth.toNat m
  refine ⟨rounds, last, m', ⟨hrounds, hlast⟩, queue_flushFor _ m, ?_, horderly, hle, ?_, hengine⟩
  · have hbalance := (hrounds.trans hlast).balance
    rw [queue_flushFor, List.append_nil, Step.queued_append, Step.queued_ofDrain,
      List.append_nil] at hbalance
    exact hbalance.symm
  · intro hlt
    exact hend.resolve_left (Nat.ne_of_lt hlt)

end Manager

end ZOrder
