/-
  ZOrder.Proofs.Tree.WellFormed

  What the slots of a forest look like between two operations, said of the slots
  themselves: where the roots are, what the index and the free list hold, and that
  parents and lists of children tell the same story. A sound forest in which no
  family is between two places has this form.
-/

import ZOrder.Proofs.Tree.Walk

namespace ZOrder.Tree

variable {H : Type} [DecidableEq H] {t : Tree H}

/-- The form of a forest: the roots of the eleven bands come first, in the order of the
bands, every other node is a window, and the four ways to look at the windows agree. -/
structure WellFormed (t : Tree H) : Prop where
  /-- The first slots hold the roots, without parents. -/
  root_slot : ∀ (i : NodeId) (l : Layer), Layer.all[i]? = some l →
    ∃ cs, t.nodes[i]? = some (some ⟨.layer l, none, cs⟩)
  /-- Every other slot in use holds a window. -/
  window_slot : ∀ (i : NodeId) (n : Node H), Layer.all.length ≤ i → t.nodes[i]? = some (some n) →
    ∃ w home, n.kind = .window w home
  /-- The index finds the slot of each window, and nothing else. -/
  index_iff : ∀ (w : H) (i : NodeId), t.get w = some i ↔
    ∃ home p cs, t.nodes[i]? = some (some ⟨.window w home, p, cs⟩)
  /-- A node has the parent that lists it. -/
  parent_iff : ∀ c p, t.parent c = some p ↔ c ∈ t.children p
  /-- A node is listed once, and by its parent only. -/
  listed_once : ∀ c p, t.parent c = some p →
    (t.children p).count c = 1 ∧ ∀ q, q ≠ p → (t.children q).count c = 0
  /-- A window is attached, and the way up from it ends at the root of a band. -/
  attached : ∀ x w, t.handle x = some w →
    (∃ p, t.parent x = some p) ∧ ∃ l, t.Below (root l) x
  /-- No node lies below itself. -/
  acyclic : ∀ x, ¬ Relation.TransGen (fun c p => t.parent c = some p) x x
  /-- The free list holds each empty slot once. -/
  free_nodup : t.free.Nodup
  mem_free : ∀ i : NodeId, i ∈ t.free ↔ t.nodes[i]? = some none
  /-- Every slot holds a root or a window, or is free. -/
  size_eq : t.nodes.size = Layer.all.length + t.size + t.free.length

/-! ## Slots by what they hold -/

omit [DecidableEq H] in
theorem node_eq_some_iff {i : NodeId} {n : Node H} :
    t.node i = some n ↔ t.nodes[i]? = some (some n) := by
  rw [node, Option.join_eq_some_iff]

omit [DecidableEq H] in
theorem getElem?_eq_some_none_iff {i : NodeId} :
    t.nodes[i]? = some none ↔ i < t.nodes.size ∧ ¬ t.Live i := by
  rw [Live, not_not, ← node_eq_none_iff, node, Array.getElem?_eq_some_iff]
  by_cases hi : i < t.nodes.size <;> simp [hi]

theorem Slotted.node_root (h : t.Slotted) (l : Layer) :
    ∃ p cs, t.node (root l) = some ⟨.layer l, p, cs⟩ := by
  obtain ⟨⟨k, p, cs⟩, hn, hk⟩ := Option.map_eq_some_iff.mp (h.kind_root l)
  dsimp only at hk
  exact ⟨p, cs, hk ▸ hn⟩

theorem Slotted.find?_of_mem (h : t.Slotted) {e : H × NodeId} (he : e ∈ t.index.entries) :
    t.get e.1 = some e.2 := by
  obtain ⟨found, hfound⟩ : ∃ found, t.index.entries.find? (fun d => d.1 = e.1) = some found := by
    rw [← Option.isSome_iff_exists, List.find?_isSome]
    exact ⟨e, he, by simp⟩
  have hkey : found.1 = e.1 := by simpa using List.find?_some hfound
  have heq := List.inj_on_of_nodup_map h.keys_nodup (List.mem_of_find?_eq_some hfound) he hkey
  rw [get, Index.find?, hfound, heq, Option.map_some]

/-- The nodes that the index lists are the windows. -/
theorem Slotted.mem_entries (h : t.Slotted) {x : NodeId} :
    x ∈ t.index.entries.map Prod.snd ↔ ∃ w, t.handle x = some w := by
  constructor
  · intro hx
    obtain ⟨e, he, rfl⟩ := List.mem_map.mp hx
    exact ⟨e.1, (h.get_iff e.1 e.2).mp (h.find?_of_mem he)⟩
  · rintro ⟨w, hw⟩
    obtain ⟨e, he, rfl⟩ := Option.map_eq_some_iff.mp ((h.get_iff w x).mpr hw)
    exact List.mem_map_of_mem (List.mem_of_find?_eq_some he)

theorem Slotted.nodup_entries (h : t.Slotted) : (t.index.entries.map Prod.snd).Nodup := by
  refine (List.Nodup.of_map _ h.keys_nodup).map_on fun d hd e he hde => ?_
  have hd' := (h.get_iff _ _).mp (h.find?_of_mem hd)
  have he' := (h.get_iff _ _).mp (h.find?_of_mem he)
  rw [hde, he'] at hd'
  exact Prod.ext (Option.some.inj hd').symm hde

omit [DecidableEq H] in
theorem map_root_all : Layer.all.map root = List.range Layer.all.length := by decide

/-- Roots, windows and empty slots are all the slots, each met once. -/
theorem Slotted.perm_slots (h : t.Slotted) :
    (Layer.all.map root ++ t.index.entries.map Prod.snd ++ t.free).Perm
      (List.range t.nodes.size) := by
  -- No slot is of two kinds, and every slot is of one.
  have hroots : (Layer.all.map root).Nodup := map_root_all ▸ List.nodup_range
  have hnodup : (Layer.all.map root ++ t.index.entries.map Prod.snd ++ t.free).Nodup := by
    refine List.nodup_append'.mpr ⟨List.nodup_append'.mpr ⟨hroots, h.nodup_entries, ?_⟩,
      h.free_nodup, ?_⟩
    · intro x hx hx'
      obtain ⟨l, -, rfl⟩ := List.mem_map.mp hx
      obtain ⟨w, hw⟩ := h.mem_entries.mp hx'
      exact h.ne_root hw l rfl
    · intro x hx hfree
      refine ((h.mem_free x).mp hfree).2 ?_
      rcases List.mem_append.mp hx with hx | hx
      · obtain ⟨l, -, rfl⟩ := List.mem_map.mp hx
        exact h.live_root l
      · obtain ⟨w, hw⟩ := h.mem_entries.mp hx
        exact live_of_handle hw
  refine (List.perm_ext_iff_of_nodup hnodup List.nodup_range).mpr fun x => ?_
  rw [List.mem_range, List.mem_append, List.mem_append, h.mem_entries, h.mem_free]
  constructor
  · rintro ((hx | ⟨w, hw⟩) | ⟨hx, -⟩)
    · obtain ⟨l, -, rfl⟩ := List.mem_map.mp hx
      exact (h.live_root l).lt_size
    · exact (live_of_handle hw).lt_size
    · exact hx
  · intro hx
    by_cases hlive : t.Live x
    · rcases hlive.layerAt_or_handle with ⟨l, hl⟩ | hw
      · have hroot := h.eq_root x l (layerAt_eq_some_iff.mp hl)
        exact .inl (.inl (List.mem_map.mpr ⟨l, Layer.mem_all l, hroot.symm⟩))
      · exact .inl (.inr hw)
    · exact .inr ⟨hx, hlive⟩

theorem Slotted.size_eq (h : t.Slotted) :
    t.nodes.size = Layer.all.length + t.size + t.free.length := by
  have hlen := h.perm_slots.length_eq
  rw [List.length_range, List.length_append, List.length_append, List.length_map,
    List.length_map] at hlen
  exact hlen.symm

/-! ## A sound forest is well formed -/

theorem Sound.wellFormed (h : t.Sound none) : t.WellFormed where
  root_slot i l hi := by
    obtain rfl : i = root l := eq_root_of_getElem? hi
    obtain ⟨p, cs, hn⟩ := h.node_root l
    have hp := h.parent_root l
    rw [parent, hn, Option.bind_some] at hp
    exact ⟨cs, node_eq_some_iff.mp (hn.trans (by rw [show p = none from hp]))⟩
  window_slot i n hi hn := by
    rw [← node_eq_some_iff] at hn
    cases hk : n.kind with
    | window w home => exact ⟨w, home, rfl⟩
    | layer l =>
      have hroot : i = root l := h.eq_root i l (by rw [kind, hn, Option.map_some, hk])
      exact absurd (hroot ▸ l.index_lt : i < 11) (Nat.not_lt.mpr hi)
  index_iff w i := by
    rw [h.get_iff, handle]
    constructor
    · intro hw
      obtain ⟨⟨k, p, cs⟩, hn, hk⟩ := Option.bind_eq_some_iff.mp hw
      cases k with
      | layer l => cases hk
      | window v home =>
        obtain rfl : v = w := Option.some.inj hk
        exact ⟨home, p, cs, node_eq_some_iff.mp hn⟩
    · rintro ⟨home, p, cs, hn⟩
      rw [node_eq_some_iff.mpr hn]
      rfl
  parent_iff := h.parent_iff
  listed_once c p hp := by
    refine ⟨List.count_eq_one_of_mem (h.children_nodup p) ((h.parent_iff c p).mp hp), ?_⟩
    intro q hq
    rw [List.count_eq_zero, ← h.parent_iff, hp]
    exact fun he => hq (Option.some.inj he).symm
  attached x w hx := ⟨h.exists_parent hx, h.exists_root (live_of_handle hx)⟩
  acyclic x hx := by
    obtain ⟨p, hp, hpx⟩ := Relation.TransGen.head'_iff.mp hx
    exact h.not_below_parent hp hpx
  free_nodup := h.free_nodup
  mem_free i := by rw [h.mem_free, getElem?_eq_some_none_iff]
  size_eq := h.size_eq

end ZOrder.Tree
