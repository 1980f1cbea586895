/-
  ZOrder.Proofs.FlatStack.Realizes

  Requests on stacks that are not quite what they were computed for. A stack may show
  windows that no order lists: requests move the listed windows as they should as long
  as they name none of the others. A window may have been forgotten early: requests
  that do not name it do not notice.
-/

import ZOrder.Proofs.FlatStack.Apply

namespace ZOrder

variable {H : Type}

/-- Whether a request lists a window or is anchored on it. -/
def Request.Names (r : Request H) (w : H) : Prop :=
  w ∈ r.windows ∨ r.anchor = .above w ∨ r.anchor = .below w

/-- A request that lists each window once, and not its anchor. -/
structure Request.Tidy (r : Request H) : Prop where
  nodup : r.windows.Nodup
  anchor : ∀ v, r.anchor = .above v ∨ r.anchor = .below v → v ∉ r.windows

/-- The first of some requests that names a window is anchored on it. -/
def Exposed (rs : List (Request H)) (w : H) : Prop :=
  ∃ before r after, rs = before ++ r :: after ∧ (∀ r' ∈ before, ¬ r'.Names w) ∧
    r.Names w ∧ w ∉ r.windows

namespace FlatStack

variable [DecidableEq H]

/-! ## Windows on the stack -/

/-- A request brings its windows onto the stack and takes none off. -/
theorem mem_apply {s : FlatStack H} {r : Request H} {w : H} :
    w ∈ (s.apply r).order ↔ w ∈ s.order ∨ w ∈ r.windows := by
  obtain ⟨M⟩ := s
  by_cases hr : r.windows = []
  · simp [apply_of_nil M hr, hr]
  · rw [apply_eq M hr]
    generalize slot (M.filter (· ∉ r.windows)) r.anchor = k
    -- The windows left and right of the slot are those that the request does not list.
    have hrest : w ∈ (M.filter (· ∉ r.windows)).take k ∨ w ∈ (M.filter (· ∉ r.windows)).drop k ↔
        w ∈ M ∧ w ∉ r.windows := by
      rw [← List.mem_append, List.take_append_drop, List.mem_filter, decide_eq_true_eq]
    simp only [List.mem_append]
    tauto

theorem mem_foldl_apply {rs : List (Request H)} {s : FlatStack H} {w : H} :
    w ∈ (rs.foldl apply s).order ↔ w ∈ s.order ∨ ∃ r ∈ rs, w ∈ r.windows := by
  induction rs generalizing s with
  | nil => simp
  | cons r rest ih =>
    rw [List.foldl_cons, ih, mem_apply]
    simp [or_assoc]

/-- Where the windows of a request were before does not matter. -/
theorem apply_congr {M N : List H} {r : Request H} (hr : r.windows ≠ [])
    (h : M.filter (· ∉ r.windows) = N.filter (· ∉ r.windows)) : apply ⟨M⟩ r = apply ⟨N⟩ r := by
  rw [apply_eq M hr, apply_eq N hr, h]

/-! ## Leaving windows out -/

theorem slot_of_not_mem {ws : List H} {v : H} (hv : v ∉ ws) :
    slot ws (.above v) = ws.length ∧ slot ws (.below v) = ws.length := by
  rw [slot, slot, List.idxOf?_eq_none_iff.mpr hv]
  exact ⟨rfl, rfl⟩

/-- Windows other than the anchor are on one side of the slot, and do not matter for where
the slot is. -/
theorem exists_slot_split (ws : List H) {a : Anchor H} {p : H → Bool}
    (hp : ∀ v, a = .above v ∨ a = .below v → p v = true) :
    ∃ left right, ws = left ++ right ∧ slot ws a = left.length ∧
      slot (ws.filter p) a = (left.filter p).length := by
  -- Cut at an anchor that is there, the list keeps its cut when other windows are left out.
  have hsplit : ∀ v, p v = true → v ∈ ws → ∃ left right, ws = left ++ v :: right ∧ v ∉ left ∧
      ws.filter p = left.filter p ++ v :: right.filter p ∧ v ∉ left.filter p := by
    intro v hpv hv
    obtain ⟨left, right, hcut, hleft⟩ := List.eq_append_cons_of_mem hv
    refine ⟨left, right, hcut, hleft, ?_, ?_⟩
    · rw [hcut, List.filter_append, List.filter_cons_of_pos hpv]
    · exact fun hmem => hleft (List.mem_of_mem_filter hmem)
  have hnone : ∀ v, v ∉ ws → v ∉ ws.filter p :=
    fun v hv hmem => hv (List.mem_of_mem_filter hmem)
  cases a with
  | floor => exact ⟨[], ws, rfl, rfl, rfl⟩
  | above v =>
    have hpv := hp v (.inl rfl)
    by_cases hv : v ∈ ws
    · obtain ⟨left, right, heq, hleft, hfilter, hleft'⟩ := hsplit v hpv hv
      refine ⟨left ++ [v], right, by simp [heq], ?_, ?_⟩
      · rw [heq, slot_above hleft, List.length_append, List.length_singleton]
      · rw [hfilter, slot_above hleft', List.filter_append, List.length_append,
          List.filter_cons_of_pos hpv]
        rfl
    · exact ⟨ws, [], (List.append_nil ws).symm, (slot_of_not_mem hv).1,
        (slot_of_not_mem (hnone v hv)).1⟩
  | below v =>
    have hpv := hp v (.inr rfl)
    by_cases hv : v ∈ ws
    · obtain ⟨left, right, heq, hleft, hfilter, hleft'⟩ := hsplit v hpv hv
      refine ⟨left, v :: right, heq, ?_, ?_⟩
      · rw [heq, slot_below hleft]
      · rw [hfilter, slot_below hleft']
    · exact ⟨ws, [], (List.append_nil ws).symm, (slot_of_not_mem hv).2,
        (slot_of_not_mem (hnone v hv)).2⟩

/-- Windows that a request does not name can be left out before or after it. -/
theorem apply_filter {p : H → Bool} {r : Request H} (hp : ∀ v, r.Names v → p v = true)
    (M : List H) : apply ⟨M.filter p⟩ r = ⟨(apply ⟨M⟩ r).order.filter p⟩ := by
  by_cases hr : r.windows = []
  · rw [apply_of_nil _ hr, apply_of_nil _ hr]
  · have hcomm : (M.filter p).filter (· ∉ r.windows) = (M.filter (· ∉ r.windows)).filter p := by
      rw [List.filter_filter, List.filter_filter]
      exact List.filter_congr fun v _ => Bool.and_comm _ _
    have hrun : r.windows.filter p = r.windows :=
      List.filter_eq_self.mpr fun v hv => hp v (.inl hv)
    obtain ⟨left, right, heq, hslot, hslot'⟩ :=
      exists_slot_split (M.filter (· ∉ r.windows)) fun v hv => hp v (.inr hv)
    rw [apply_eq _ hr, apply_eq _ hr, hcomm, hslot, hslot', heq, List.filter_append,
      List.take_left, List.drop_left, List.take_left, List.drop_left, List.filter_append,
      List.filter_append, hrun]

theorem foldl_apply_filter {p : H → Bool} {rs : List (Request H)}
    (hp : ∀ r ∈ rs, ∀ v, r.Names v → p v = true) (M : List H) :
    rs.foldl apply ⟨M.filter p⟩ = ⟨(rs.foldl apply ⟨M⟩).order.filter p⟩ := by
  induction rs generalizing M with
  | nil => rfl
  | cons r rest ih =>
    rw [List.foldl_cons, List.foldl_cons, apply_filter (hp r List.mem_cons_self)]
    exact ih (fun r' hr' => hp r' (List.mem_cons_of_mem r hr')) (apply ⟨M⟩ r).order

/-- A window is forgotten early. If the requests name it at all, and the first of them to
do so lists it, they show what they would have shown. -/
theorem foldl_apply_forget {rs : List (Request H)} {w : H} (hw : ¬ Exposed rs w) (s : FlatStack H) :
    rs.foldl apply (s.forget w) = (rs.foldl apply s).forget w ∨
      rs.foldl apply (s.forget w) = rs.foldl apply s := by
  induction rs generalizing s with
  | nil => exact .inl rfl
  | cons r rest ih =>
    rw [List.foldl_cons, List.foldl_cons]
    by_cases hr : r.Names w
    · -- The request takes the window out of the stack itself, so it may be gone already.
      have hlisted : w ∈ r.windows := by
        by_contra hlisted
        exact hw ⟨[], r, rest, rfl, fun _ h => absurd h List.not_mem_nil, hr, hlisted⟩
      refine .inr (congrArg (rest.foldl apply ·) ?_)
      refine apply_congr (List.ne_nil_of_mem hlisted) ?_
      rw [List.filter_filter]
      refine List.filter_congr fun v _ => ?_
      by_cases hv : v ∈ r.windows
      · simp [hv]
      · simpa [hv] using fun he : v = w => hv (he ▸ hlisted)
    · -- The request leaves the window alone, and the next one is looked at.
      have hcomm : (s.forget w).apply r = (s.apply r).forget w := by
        refine apply_filter (fun v hv => ?_) s.order
        simpa using fun he : v = w => hr (he ▸ hv)
      have hrest : ¬ Exposed rest w := by
        rintro ⟨before, r', after, hsplit, hbefore, hr'⟩
        refine hw ⟨r :: before, r', after, by rw [hsplit, List.cons_append], ?_, hr'⟩
        intro r'' hr''
        rcases List.mem_cons.mp hr'' with rfl | hmem
        · exact hr
        · exact hbefore r'' hmem
      rw [hcomm]
      exact ih hrest (s.apply r)

/-! ## From one order to another -/

/-- The requests turn the order `ws` into `ws'`, also on a stack that shows more windows. -/
structure Realizes (rs : List (Request H)) (ws ws' : List H) : Prop where
  order_eq : rs.foldl apply ⟨ws⟩ = ⟨ws'⟩
  filter_eq : ∀ s : FlatStack H, s.order.filter (· ∈ ws) = ws →
    (rs.foldl apply s).order.filter (· ∈ ws') = ws'

namespace Realizes

variable {rs rs' : List (Request H)} {ws ws' ws'' : List H}

theorem refl (ws : List H) : Realizes [] ws ws := ⟨rfl, fun _ h => h⟩

theorem trans (h : Realizes rs ws ws') (h' : Realizes rs' ws' ws'') :
    Realizes (rs ++ rs') ws ws'' := by
  refine ⟨?_, fun s hs => ?_⟩
  · rw [List.foldl_append, h.order_eq, h'.order_eq]
  · rw [List.foldl_append]
    exact h'.filter_eq _ (h.filter_eq s hs)

theorem mem_iff (h : Realizes rs ws ws') {w : H} :
    w ∈ ws' ↔ w ∈ ws ∨ ∃ r ∈ rs, w ∈ r.windows := by
  rw [← mem_foldl_apply (s := ⟨ws⟩), h.order_eq]

/-- Requests that name windows of the new order only do not care for others on the stack. -/
theorem of_names (h : rs.foldl apply ⟨ws⟩ = ⟨ws'⟩) (hnames : ∀ r ∈ rs, ∀ v, r.Names v → v ∈ ws')
    (hsub : ws' ⊆ ws) : Realizes rs ws ws' := by
  refine ⟨h, fun s hs => ?_⟩
  have hmem : ∀ v, v ∈ ws' ↔ v ∈ ws := by
    intro v
    constructor
    · intro hv
      exact hsub hv
    · intro hv
      have hv' : v ∈ (rs.foldl apply ⟨ws⟩).order := mem_foldl_apply.mpr (.inl hv)
      rwa [h] at hv'
  -- Without the further windows the stack shows the old order, and the requests do not
  -- notice that they are gone.
  have hfilter : s.order.filter (· ∈ ws') = ws := by
    rw [← hs]
    exact List.filter_congr fun v _ => by simp [hmem]
  have hleft := foldl_apply_filter (p := fun v => decide (v ∈ ws'))
    (fun r hr v hv => by simpa using hnames r hr v hv) s.order
  rw [hfilter, h] at hleft
  exact (congrArg FlatStack.order hleft).symm

/-- The same for one request, which may list a window that is new. -/
theorem of_names_single {r : Request H} (h : apply ⟨ws⟩ r = ⟨ws'⟩)
    (hnames : ∀ v, r.Names v → v ∈ ws') : Realizes [r] ws ws' := by
  have hmem : ∀ v, v ∈ ws' ↔ v ∈ ws ∨ v ∈ r.windows := by
    intro v
    rw [← mem_apply (s := ⟨ws⟩), h]
  by_cases hr : r.windows = []
  · refine of_names h (fun r' hr' => ?_) fun v hv => ?_
    · obtain rfl := List.mem_singleton.mp hr'
      exact hnames
    · simpa [hr] using (hmem v).mp hv
  · -- The stack agrees with the old order about the windows that the request does not list.
    refine ⟨h, fun s hs => ?_⟩
    have hagree : (s.order.filter (· ∈ ws')).filter (· ∉ r.windows) =
        ws.filter (· ∉ r.windows) := by
      rw [← hs, List.filter_filter, List.filter_filter]
      refine List.filter_congr fun v _ => ?_
      by_cases hv : v ∈ r.windows <;> simp [hmem, hv]
    have hleft := apply_filter (p := fun v => decide (v ∈ ws'))
      (fun v hv => by simpa using hnames v hv) s.order
    rw [apply_congr hr hagree, h] at hleft
    exact (congrArg FlatStack.order hleft).symm

end Realizes

end FlatStack

end ZOrder
