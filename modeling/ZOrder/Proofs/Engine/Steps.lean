/-
  ZOrder.Proofs.Engine.Steps

  What an operation can do to an engine with a sound forest, said once for each.
  None of the refusals inside an operation is ever met: a window that was taken out
  or created is always attached again.
-/

import ZOrder.Engine.Op
import ZOrder.Proofs.Tree.Relocate

namespace ZOrder.Engine

open ZOrder.Tree (Relocates SameShape Creates Grafts Destroys root)

variable {H : Type} [DecidableEq H] {e : Engine H} {q : Query H}

/-! ## Moves among siblings -/

/-- The sibling that a window is to pass is another child of its parent. -/
theorem passing_cases (h : e.tree.Sound none) {w : H} {d : Direction} {id p target : NodeId}
    (hpass : e.passing q w d = some (id, p, target)) :
    e.tree.get w = some id ∧ e.tree.parent id = some p ∧ target ∈ e.tree.children p ∧
      target ≠ id := by
  obtain ⟨id', hget, hpass⟩ := Option.bind_eq_some_iff.mp hpass
  obtain ⟨p', hpar, hpass⟩ := Option.bind_eq_some_iff.mp hpass
  obtain ⟨place, hplace, hpass⟩ := Option.bind_eq_some_iff.mp hpass
  obtain ⟨hlt, hid, -⟩ := List.idxOf?_eq_some_iff.mp hplace
  have hnodup : (e.candidates q w id' p').Nodup := (h.children_nodup p').filter _
  -- The window stands at `place`; what stands elsewhere is another sibling.
  have hother : ∀ k, k ≠ place → ∀ c, (e.candidates q w id' p')[k]? = some c →
      c ∈ e.tree.children p' ∧ c ≠ id' := by
    intro k hne c hk
    obtain ⟨hklt, hkeq⟩ := List.getElem?_eq_some_iff.mp hk
    refine ⟨(List.mem_filter.mp (List.mem_of_getElem? hk)).1, ?_⟩
    rintro rfl
    exact hne ((hnodup.getElem_inj_iff).mp (hkeq.trans hid.symm))
  cases d with
  | up =>
    obtain ⟨c, hc, hpure⟩ := Option.bind_eq_some_iff.mp hpass
    cases hpure
    exact ⟨hget, hpar, hother (place + 1) (by omega) _ hc⟩
  | down =>
    cases place with
    | zero => cases hpass
    | succ place =>
      obtain ⟨c, hc, hpure⟩ := Option.bind_eq_some_iff.mp hpass
      cases hpure
      exact ⟨hget, hpar, hother place (by omega) _ hc⟩

/-- A window that has a sibling to pass passes it. -/
theorem shift_eq (h : e.tree.Sound none) {w : H} {d : Direction} {id p target : NodeId}
    (hpass : e.passing q w d = some (id, p, target)) :
    ∃ k t', ((e.tree.children p).erase id).idxOf? target = some k ∧
      Relocates e.tree t' p p id (if d = .up then k + 1 else k) ∧ t'.Sound none ∧
      e.shift q w d = (true, { e with tree := t' }.sync [id]) := by
  obtain ⟨hget, hpar, htarget, hne⟩ := passing_cases h hpass
  obtain ⟨t₀, below, above, hdetach, hfrom, ht₀⟩ := h.exists_detach hpar
  have hw : t₀.handle id = some w := by rw [← hfrom.handle, ← h.get_iff, hget]
  have hcs : t₀.children p = (e.tree.children p).erase id := hfrom.children_eq_erase ht₀.toLinked p
  -- The sibling keeps its parent while the window is out.
  have htpar : t₀.parent target = some p := by
    have hp := (h.parent_iff target p).mpr htarget
    rwa [hfrom.parent, if_neg hne] at hp
  obtain ⟨k, hk⟩ : ∃ k, (t₀.children p).idxOf? target = some k := by
    rw [← Option.isSome_iff_exists, List.isSome_idxOf?]
    exact (ht₀.parent_iff target p).mp htpar
  have hpos : t₀.position target = some k := by rw [Tree.position, htpar, Option.bind_some, hk]
  have hklt : k < (t₀.children p).length := (List.idxOf?_eq_some_iff.mp hk).1
  obtain ⟨t', hattach, hto, ht'⟩ := ht₀.exists_attach hw (ht₀.live_parent htpar)
    (hfrom.not_below h.toLinked) (if d = .up then k + 1 else k)
  have hmin : min (if d = .up then k + 1 else k) (t₀.children p).length =
      if d = .up then k + 1 else k := Nat.min_eq_left (by split <;> omega)
  rw [hmin] at hattach hto
  refine ⟨k, t', hcs ▸ hk, ⟨t₀, below, above, hfrom, hto⟩, ht', ?_⟩
  simp only [shift, hpass, hdetach, hpos, hattach]

/-- A tracked window can be moved to any place among its siblings. -/
theorem moveTo_eq (h : e.tree.Sound none) {w : H} {id p : NodeId} (hget : e.tree.get w = some id)
    (hpar : e.tree.parent id = some p) (pos : Position) :
    ∃ t', Relocates e.tree t' p p id (pos.slot ((e.tree.children p).erase id).length) ∧
      t'.Sound none ∧ e.moveTo w pos = (true, { e with tree := t' }.sync [id]) := by
  obtain ⟨t₀, below, above, hdetach, hfrom, ht₀⟩ := h.exists_detach hpar
  have hw : t₀.handle id = some w := by rw [← hfrom.handle, ← h.get_iff, hget]
  have hp : t₀.Live p := (hfrom.live p).mp (h.live_parent hpar)
  -- Taken out, the window is put back among the siblings that are left.
  obtain ⟨t', hattach, hto, ht'⟩ := ht₀.exists_attach hw hp
    (hfrom.not_below h.toLinked) (pos.slot (t₀.children p).length)
  rw [Nat.min_eq_left (pos.slot_le _)] at hattach hto
  rw [← hfrom.children_eq_erase ht₀.toLinked]
  refine ⟨t', ⟨t₀, below, above, hfrom, hto⟩, ht', ?_⟩
  simp only [moveTo, hget, hdetach, Tree.addChild, hattach]

/-! ## Moves between bands -/

/-- The root of a band lies below no window. -/
theorem not_below_root {t : Tree H} {loose : Option NodeId} (h : t.Sound loose) {id : NodeId}
    {w : H} (hid : t.handle id = some w) (l : Layer) : ¬ t.Below id (root l) := by
  intro hb
  have hroot : root l = id := hb.eq_of_parentless (h.parent_root l)
  exact h.ne_root hid l hroot.symm

/-- A family that stands on its own can be moved to any band. -/
theorem moveFamily_eq (h : e.tree.Sound none) {family : NodeId} {origin : Layer}
    (hpar : e.tree.parent family = some (root origin)) (l : Layer) (pos : Position) :
    ∃ t', Relocates e.tree t' (root origin) (root l) family
        (pos.slot ((e.tree.children (root l)).erase family).length) ∧ t'.Sound none ∧
      e.moveFamily family l pos =
        (true, { e with tree := if l.isTemporary then t' else settle t' family l }.sync
          (if root origin = root l then [root origin] else [root origin, root l])) := by
  obtain ⟨t₀, below, above, hdetach, hfrom, ht₀⟩ := h.exists_detach hpar
  obtain ⟨w, hw⟩ := h.exists_handle hpar
  rw [hfrom.handle] at hw
  -- The root of the new band is there, and not in the family.
  obtain ⟨t', hattach, hto, ht'⟩ := ht₀.exists_attach hw (ht₀.live_root l)
    (not_below_root ht₀ hw l) (pos.slot (t₀.children (root l)).length)
  rw [Nat.min_eq_left (pos.slot_le _)] at hattach hto
  rw [← hfrom.children_eq_erase ht₀.toLinked]
  refine ⟨t', ⟨t₀, below, above, hfrom, hto⟩, ht', ?_⟩
  simp only [moveFamily, hdetach, Tree.addChild, hattach]

/-- A tracked window belongs to a family that can be moved. -/
theorem exists_family (h : e.tree.Sound none) {w : H} {id : NodeId}
    (hget : e.tree.get w = some id) :
    ∃ family origin, (e.tree.get w).bind e.tree.topLevel = some family ∧
      e.tree.Below family id ∧ e.tree.parent family = some (root origin) := by
  obtain ⟨family, htop⟩ := h.exists_topLevel ((h.get_iff w id).mp hget)
  obtain ⟨hbelow, origin, hpar⟩ := h.topLevel_eq_some_iff.mp htop
  exact ⟨family, origin, by rw [hget, Option.bind_some, htop], hbelow, hpar⟩

/-! ## Focus -/

/-- There is always a place for a family that goes back to its band. -/
theorem exists_returnSlot {t : Tree H} {loose : Option NodeId} (h : t.Sound loose)
    (home : Layer) (focused : NodeId) : ∃ slot, returnSlot t home focused = some slot := by
  rw [returnSlot]
  split
  · next family htop =>
    obtain ⟨-, l, hpar⟩ := h.topLevel_eq_some_iff.mp htop
    split
    · rw [← Option.isSome_iff_exists, Tree.position, hpar, Option.bind_some, List.isSome_idxOf?]
      exact (h.parent_iff family (root l)).mp hpar
    · exact ⟨_, rfl⟩
  · exact ⟨_, rfl⟩

/-- A family that has a place is taken out, and then attached to the root of its permanent
band, where the forest without it has a place for it. -/
theorem exists_demote (h : e.tree.Sound none) {family p : NodeId}
    (hpar : e.tree.parent family = some p) (focused : NodeId) {home : Layer}
    (hhome : (e.tree.home family).getD e.defaultLayer = home) :
    ∃ t₀ below above slot t', Grafts t₀ e.tree p family below above ∧
      returnSlot t₀ home focused = some slot ∧
      Grafts t₀ t' (root home) family
        ((t₀.children (root home)).take (min slot (t₀.children (root home)).length))
        ((t₀.children (root home)).drop (min slot (t₀.children (root home)).length)) ∧
      t'.Sound none ∧ e.demote focused family = { e with tree := t' }.sync [family] := by
  obtain ⟨t₀, below, above, hdetach, hfrom, ht₀⟩ := h.exists_detach hpar
  obtain ⟨w, hw⟩ := h.exists_handle hpar
  rw [hfrom.handle] at hw
  -- The band and the place are looked up once the family is out.
  obtain ⟨slot, hslot⟩ := exists_returnSlot ht₀ home focused
  obtain ⟨t', hattach, hto, ht'⟩ :=
    ht₀.exists_attach hw (ht₀.live_root _) (not_below_root ht₀ hw _) slot
  refine ⟨t₀, below, above, slot, t', hfrom, hslot, hto, ht', ?_⟩
  simp only [demote, hdetach, hhome, hslot, hattach]

/-- A family that has a place goes back to its permanent band. -/
theorem demote_eq (h : e.tree.Sound none) {family p : NodeId}
    (hpar : e.tree.parent family = some p) (focused : NodeId) :
    ∃ t' slot, Relocates e.tree t' p (root ((e.tree.home family).getD e.defaultLayer)) family slot ∧
      t'.Sound none ∧ e.demote focused family = { e with tree := t' }.sync [family] := by
  obtain ⟨t₀, below, above, slot, t', hfrom, -, hto, ht', heq⟩ := exists_demote h hpar focused rfl
  exact ⟨t', _, ⟨t₀, below, above, hfrom, hto⟩, ht', heq⟩

/-- When a tracked window takes the focus, the families that do not hold it go back in turn. -/
theorem focus_eq_foldl (hon : e.demoteOnFocus = true) {w : H} {focused : NodeId}
    (hget : e.tree.get w = some focused) :
    e.focus w = (!(demoted e.tree focused).isEmpty,
      (demoted e.tree focused).foldl (fun e family => e.demote focused family) e) := by
  simp only [focus, hon, hget, Bool.not_true, Bool.false_eq_true, if_false]
  cases demoted e.tree focused <;> rfl

theorem focus_of_off (hoff : e.demoteOnFocus = false) (w : H) : e.focus w = (false, e) := by
  simp [focus, hoff]

theorem focus_of_untracked {w : H} (hget : e.tree.get w = none) : e.focus w = (false, e) := by
  simp [focus, hget]

/-! ## Windows come and go -/

/-- A window that is not tracked can be added. -/
theorem addAt_eq (h : e.tree.Sound none) {w : H} (hw : e.tree.get w = none) (l : Layer)
    (pos : Position) :
    ∃ p home pos' t₀ id t', e.placeFor q w l pos = (p, home, pos') ∧
      Creates e.tree t₀ w home id ∧ t₀.Sound (some id) ∧
      Grafts t₀ t' p id ((t₀.children p).take (pos'.slot (t₀.children p).length))
        ((t₀.children p).drop (pos'.slot (t₀.children p).length)) ∧
      t'.Sound none ∧ e.addAt q w l pos = (true, { e with tree := t' }.sync [id]) := by
  obtain ⟨p, home, pos', hplace⟩ : ∃ p home pos', e.placeFor q w l pos = (p, home, pos') :=
    ⟨_, _, _, rfl⟩
  -- Both owners and roots are nodes of the forest already.
  have hp : e.tree.Live p := by
    rw [placeFor] at hplace
    split at hplace
    · next owner howner =>
      obtain ⟨v, -, hv⟩ := Option.bind_eq_some_iff.mp howner
      cases hplace
      exact Tree.live_of_handle ((h.get_iff v _).mp hv)
    · cases hplace
      exact h.live_root l
  have hcreate := Tree.creates_create w home fun x hx => (h.mem_free x).mp hx
  generalize hres : e.tree.create w home = res at hcreate
  obtain ⟨t₀, id⟩ := res
  have ht₀ : t₀.Sound (some id) := hcreate.sound h hw
  have hid : t₀.handle id = some w := by rw [hcreate.handle, if_pos rfl]
  have hnot : ¬ t₀.Below id p := by
    -- The new node has no children, so only itself lies below it.
    intro hb
    rcases Relation.ReflTransGen.cases_tail hb with he | ⟨c, -, hc⟩
    · exact hcreate.fresh (he ▸ hp)
    · rw [hcreate.parent] at hc
      exact hcreate.fresh (h.live_parent hc)
  obtain ⟨t', hattach, hto, ht'⟩ := ht₀.exists_attach hid
    ((hcreate.live_iff p).mpr (.inr hp)) hnot (pos'.slot (t₀.children p).length)
  rw [Nat.min_eq_left (pos'.slot_le _)] at hattach hto
  refine ⟨p, home, pos', t₀, id, t', hplace, hcreate, ht₀, hto, ht', ?_⟩
  have hcontains : e.tree.contains w = false := by rw [Tree.contains, hw]; rfl
  simp only [addAt, hcontains, hplace, hres, Tree.addChild, hattach]
  rfl

/-- A tracked window can be removed. -/
theorem remove_eq (h : e.tree.Sound none) {w : H} {id : NodeId} (hget : e.tree.get w = some id) :
    ∃ p below above t', e.tree.parent id = some p ∧ Destroys e.tree t' w p id below above ∧
      t'.Sound none ∧ e.remove w = (true, { e with tree := t' }.sync [p]) := by
  have hid := (h.get_iff w id).mp hget
  obtain ⟨p, hpar⟩ := h.exists_parent hid
  obtain ⟨below, above, hcs, hbelow, -⟩ := h.exists_split hpar
  obtain ⟨t', hdestroy, hdes⟩ := Tree.exists_destroy hget hpar (h.parent_ne hpar) hcs hbelow
    fun c hc => h.live_child hc
  refine ⟨p, below, above, t', hpar, hdes, hdes.sound h hid hpar, ?_⟩
  simp only [remove, hdestroy]

theorem remove_of_untracked {w : H} (hw : e.tree.get w = none) : e.remove w = (false, e) := by
  simp only [remove, Tree.destroy, hw]

end ZOrder.Engine
