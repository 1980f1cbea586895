/-
  ZOrder.Proofs.Engine.Slots

  Which slots the windows are in does not matter. Two engines whose forests differ in
  their slots only answer every operation alike, queue the same requests and are left
  with forests that again differ in their slots only, whatever slots the operation gives
  up or uses again. Since a forest is its families up to the names of its slots, the
  engine refines the forest of families: equal families stay equal over every run, and
  nothing that a caller can see tells the histories of the slots apart.
-/

import ZOrder.Info
import ZOrder.Proofs.Engine.Reachable
import ZOrder.Proofs.Tree.Families

namespace ZOrder.Engine

open ZOrder.Tree (root)

variable {H : Type} [DecidableEq H] {e e' : Engine H} {q : Query H} {σ : NodeId → NodeId}

/-- The engine `e'` is `e` with the slots of its forest renamed; the requests that are not
sent yet may be others. -/
structure Renames (σ : NodeId → NodeId) (e e' : Engine H) : Prop where
  tree : e.tree.Renames σ e'.tree
  sound : e.tree.Sound none
  sound' : e'.tree.Sound none
  defaultLayer : e'.defaultLayer = e.defaultLayer
  defaultPosition : e'.defaultPosition = e.defaultPosition
  demoteOnFocus : e'.demoteOnFocus = e.demoteOnFocus

/-- Two engines became two others with the same new requests, and differ in their slots
only. -/
def Keeps (e e' f f' : Engine H) : Prop :=
  ∃ σ rs, f.queue = e.queue ++ rs ∧ f'.queue = e'.queue ++ rs ∧ Renames σ f f'

/-- The same with two answers, which are the same. -/
def Matches (e e' : Engine H) (result result' : Bool × Engine H) : Prop :=
  result'.1 = result.1 ∧ Keeps e e' result.2 result'.2

namespace Renames

theorem get (h : Renames σ e e') (w : H) : e'.tree.get w = (e.tree.get w).map σ :=
  h.tree.get h.sound.toSlotted h.sound'.toSlotted w

theorem live_of_get (h : Renames σ e e') {w : H} {x : NodeId} (hget : e.tree.get w = some x) :
    e.tree.Live x :=
  Tree.live_of_handle ((h.sound.get_iff w x).mp hget)

theorem get_of_get (h : Renames σ e e') {w : H} {x : NodeId} (hget : e.tree.get w = some x) :
    e'.tree.get w = some (σ x) := by
  rw [h.get, hget, Option.map_some]

theorem get_of_untracked (h : Renames σ e e') {w : H} (hget : e.tree.get w = none) :
    e'.tree.get w = none := by
  rw [h.get, hget, Option.map_none]

theorem parent_of_parent (h : Renames σ e e') {x p : NodeId} (hp : e.tree.parent x = some p) :
    e'.tree.parent (σ x) = some (σ p) := by
  rw [h.tree.parent x (Tree.live_of_parent hp), hp, Option.map_some]

/-! ## What a caller can see -/

theorem isStacked (h : Renames σ e e') (w : H) : e'.isStacked w = e.isStacked w := by
  rw [Engine.isStacked, Engine.isStacked, Tree.contains, Tree.contains, h.get, Option.isSome_map]

theorem layerOf (h : Renames σ e e') (w : H) : e'.layerOf w = e.layerOf w := by
  rw [Engine.layerOf, Engine.layerOf, h.get]
  cases hget : e.tree.get w with
  | none => rfl
  | some x => exact h.tree.layerOf h.sound.toLinked h.sound'.toLinked (h.live_of_get hget)

theorem homeOf (h : Renames σ e e') (w : H) : e'.homeOf w = e.homeOf w := by
  rw [Engine.homeOf, Engine.homeOf, h.get]
  cases hget : e.tree.get w with
  | none => rfl
  | some x => exact h.tree.home (h.live_of_get hget)

theorem zOrder (h : Renames σ e e') : e'.zOrder = e.zOrder := by
  rw [Engine.zOrder, Engine.zOrder, h.tree.order h.sound h.sound']
  exact h.tree.handles fun x hx => h.sound.live_of_mem_order hx

theorem windowsIn (h : Renames σ e e') (l : Layer) : e'.windowsIn l = e.windowsIn l := by
  have hroot := h.tree.descendants h.sound.toLinked h.sound'.toLinked (h.sound.live_root l)
  rw [h.tree.root] at hroot
  rw [Engine.windowsIn, Engine.windowsIn, hroot]
  exact h.tree.handles fun x hx => h.sound.live_of_mem_descendants hx

/-- The window at a place among the children of a node. -/
theorem handle_child (h : Renames σ e e') {p : NodeId} (hp : e.tree.Live p) (k : Nat) :
    (e'.tree.children (σ p))[k]?.bind e'.tree.handle =
      (e.tree.children p)[k]?.bind e.tree.handle := by
  rw [h.tree.children p hp, List.getElem?_map]
  cases hk : (e.tree.children p)[k]? with
  | none => rfl
  | some c => exact h.tree.handle (h.sound.live_child (List.mem_of_getElem? hk))

theorem siblingAbove (h : Renames σ e e') (w : H) : e'.siblingAbove w = e.siblingAbove w := by
  simp only [Engine.siblingAbove, Option.bind_eq_bind, h.get]
  cases hget : e.tree.get w with
  | none => rfl
  | some x =>
    have hx := h.live_of_get hget
    simp only [Option.map_some, Option.bind_some, h.tree.parent x hx,
      h.tree.position h.sound.toLinked hx]
    cases hp : e.tree.parent x with
    | none => rfl
    | some p =>
      simp only [Option.map_some, Option.bind_some, h.handle_child (h.sound.live_parent hp)]

theorem siblingBelow (h : Renames σ e e') (w : H) : e'.siblingBelow w = e.siblingBelow w := by
  simp only [Engine.siblingBelow, Option.bind_eq_bind, h.get]
  cases hget : e.tree.get w with
  | none => rfl
  | some x =>
    have hx := h.live_of_get hget
    simp only [Option.map_some, Option.bind_some, h.tree.parent x hx,
      h.tree.position h.sound.toLinked hx]
    cases hp : e.tree.parent x with
    | none => rfl
    | some p =>
      simp only [Option.map_some, Option.bind_some, h.handle_child (h.sound.live_parent hp)]

/-! ## Requests -/

/-- What is queued after the same edit of both forests. -/
theorem keeps_sync {u u' : Tree H} (h : Renames σ e e')
    {τ : NodeId → NodeId} (hedit : u.Renames τ u') (hu : u.Sound none) (hu' : u'.Sound none)
    {ids : List NodeId} (hids : ∀ x ∈ ids, u.Live x) :
    Keeps e e' ({ e with tree := u }.sync ids) ({ e' with tree := u' }.sync (ids.map τ)) := by
  refine ⟨τ, ids.map u.request, rfl, ?_, hedit, hu, hu', h.defaultLayer, h.defaultPosition,
    h.demoteOnFocus⟩
  rw [sync, List.map_map]
  refine congrArg (e'.queue ++ ·) (List.map_congr_left fun x hx => ?_)
  exact hedit.request hu hu' (hids x hx)

theorem keeps_sync_single {u u' : Tree H} (h : Renames σ e e')
    {τ : NodeId → NodeId} (hedit : u.Renames τ u') (hu : u.Sound none) (hu' : u'.Sound none)
    {x : NodeId} (hx : u.Live x) :
    Keeps e e' ({ e with tree := u }.sync [x]) ({ e' with tree := u' }.sync [τ x]) := by
  have hall : ∀ y ∈ [x], u.Live y := fun y hy => List.mem_singleton.mp hy ▸ hx
  exact h.keeps_sync hedit hu hu' hall

theorem keeps_refl (h : Renames σ e e') : Keeps e e' e e' :=
  ⟨σ, [], (List.append_nil _).symm, (List.append_nil _).symm, h⟩

end Renames

theorem Keeps.trans {f f' g g' : Engine H} (h : Keeps e e' f f') (h' : Keeps f f' g g') :
    Keeps e e' g g' := by
  obtain ⟨-, rs, hqueue, hqueue', -⟩ := h
  obtain ⟨σ, rs', hnext, hnext', hren⟩ := h'
  exact ⟨σ, rs ++ rs', by rw [hnext, hqueue, List.append_assoc],
    by rw [hnext', hqueue', List.append_assoc], hren⟩

namespace Renames

/-! ## Moves among siblings -/

theorem candidates (h : Renames σ e e') (w : H) {x p : NodeId} (hx : e.tree.Live x)
    (hp : e.tree.Live p) :
    e'.candidates q w (σ x) (σ p) = (e.candidates q w x p).map σ := by
  rw [Engine.candidates, Engine.candidates, h.tree.children p hp, List.filter_map]
  congr 1
  refine List.filter_congr fun c hc => ?_
  have hc := h.sound.live_child hc
  have heq : (σ c == σ x) = (c == x) := by
    rw [Bool.eq_iff_iff, beq_iff_eq, beq_iff_eq]
    exact h.tree.eq_iff hc hx
  rw [Function.comp_apply, heq, h.tree.handle hc]

/-- A window is to pass the same sibling in both engines. -/
theorem passing (h : Renames σ e e') (w : H) (d : Direction) :
    e'.passing q w d = (e.passing q w d).map fun (x, p, target) => (σ x, σ p, σ target) := by
  simp only [Engine.passing, Option.bind_eq_bind, Option.pure_def, h.get]
  cases hget : e.tree.get w with
  | none => rfl
  | some x =>
    have hx := h.live_of_get hget
    simp only [Option.map_some, Option.bind_some, h.tree.parent x hx]
    cases hp : e.tree.parent x with
    | none => rfl
    | some p =>
      have hcandidates := h.candidates (q := q) w hx (h.sound.live_parent hp)
      have hplace : ((e.candidates q w x p).map σ).idxOf? (σ x) =
          (e.candidates q w x p).idxOf? x :=
        idxOf?_map_of_inj fun c hc =>
          h.tree.inj c x (h.sound.live_child (List.mem_of_mem_filter hc)) hx
      simp only [Option.map_some, Option.bind_some, hcandidates, hplace]
      cases (e.candidates q w x p).idxOf? x with
      | none => rfl
      | some place =>
        simp only [Option.bind_some]
        cases d with
        | up =>
          simp only [List.getElem?_map]
          cases (e.candidates q w x p)[place + 1]? <;> rfl
        | down =>
          cases place with
          | zero => rfl
          | succ place =>
            simp only [List.getElem?_map]
            cases (e.candidates q w x p)[place]? <;> rfl

/-- The children of a node without one of them. -/
theorem children_erase (h : Renames σ e e') {x p : NodeId} (hx : e.tree.Live x)
    (hp : e.tree.Live p) :
    (e'.tree.children (σ p)).erase (σ x) = ((e.tree.children p).erase x).map σ := by
  rw [h.tree.children p hp, map_erase_of_inj fun c hc => h.tree.inj c x (h.sound.live_child hc) hx]

theorem shift (h : Renames σ e e') (w : H) (d : Direction) :
    Matches e e' (e.shift q w d) (e'.shift q w d) := by
  have hpassing := h.passing (q := q) w d
  cases hpass : e.passing q w d with
  | none =>
    rw [hpass] at hpassing
    have heq : e.shift q w d = (false, e) := by simp only [Engine.shift, hpass]
    have heq' : e'.shift q w d = (false, e') := by simp only [Engine.shift, hpassing]; rfl
    rw [heq, heq']
    exact ⟨rfl, h.keeps_refl⟩
  | some found =>
    obtain ⟨x, p, target⟩ := found
    rw [hpass] at hpassing
    obtain ⟨hget, hpar, htarget, hne⟩ := passing_cases h.sound hpass
    have hx := h.live_of_get hget
    have hp := h.sound.live_parent hpar
    obtain ⟨k, u, hk, hmove, hu, heq⟩ := shift_eq h.sound hpass
    obtain ⟨k', u', hk', hmove', hu', heq'⟩ := shift_eq h.sound' hpassing
    -- The sibling stands at the same place once the window is out.
    have hplace : k' = k := by
      have hinj : ∀ c ∈ (e.tree.children p).erase x, σ c = σ target → c = target := fun c hc =>
        h.tree.inj c target (h.sound.live_child (List.mem_of_mem_erase hc))
          (h.sound.live_child htarget)
      rw [h.children_erase hx hp, idxOf?_map_of_inj hinj, hk] at hk'
      exact (Option.some.inj hk').symm
    rw [hplace] at hmove'
    have hedit := h.tree.relocated hmove hmove' h.sound h.sound' hp rfl rfl
    rw [heq, heq']
    exact ⟨rfl, h.keeps_sync_single hedit hu hu' ((hmove.sameNodes.live x).mpr hx)⟩

theorem moveTo (h : Renames σ e e') (w : H) (pos : Position) :
    Matches e e' (e.moveTo w pos) (e'.moveTo w pos) := by
  cases hget : e.tree.get w with
  | none =>
    have hget' := h.get_of_untracked hget
    simp only [Engine.moveTo, hget, hget']
    exact ⟨rfl, h.keeps_refl⟩
  | some x =>
    have hx := h.live_of_get hget
    obtain ⟨p, hpar⟩ := h.sound.exists_parent ((h.sound.get_iff w x).mp hget)
    have hp := h.sound.live_parent hpar
    obtain ⟨u, hmove, hu, heq⟩ := moveTo_eq h.sound hget hpar pos
    obtain ⟨u', hmove', hu', heq'⟩ :=
      moveTo_eq h.sound' (h.get_of_get hget) (h.parent_of_parent hpar) pos
    rw [h.children_erase hx hp, List.length_map] at hmove'
    have hedit := h.tree.relocated hmove hmove' h.sound h.sound' hp rfl rfl
    rw [heq, heq']
    exact ⟨rfl, h.keeps_sync_single hedit hu hu' ((hmove.sameNodes.live x).mpr hx)⟩

/-! ## Moves between bands -/

theorem moveFamily (h : Renames σ e e') {family : NodeId} {origin : Layer}
    (hpar : e.tree.parent family = some (root origin)) (l : Layer) (pos : Position) :
    Matches e e' (e.moveFamily family l pos) (e'.moveFamily (σ family) l pos) := by
  have hroot := h.tree.root
  have hfamily := Tree.live_of_parent hpar
  have hpar' : e'.tree.parent (σ family) = some (root origin) := by
    rw [h.parent_of_parent hpar, hroot]
  obtain ⟨u, hmove, hu, heq⟩ := moveFamily_eq h.sound hpar l pos
  obtain ⟨u', hmove', hu', heq'⟩ := moveFamily_eq h.sound' hpar' l pos
  have hlen := h.children_erase hfamily (h.sound.live_root l)
  rw [hroot] at hlen
  rw [hlen, List.length_map] at hmove'
  have hedit := h.tree.relocated hmove hmove' h.sound h.sound' (h.sound.live_root l)
    (hroot origin) (hroot l)
  have hlive : u.Live family := (hmove.sameNodes.live family).mpr hfamily
  -- Both bands are restacked, whether or not the family settles.
  obtain ⟨changed, hchanged⟩ : ∃ changed, changed =
      if root origin = root l then [root origin] else [root origin, root l] := ⟨_, rfl⟩
  have hroots : ∀ x ∈ changed, x = root origin ∨ x = root l := by
    rw [hchanged]
    split
    · simp
    · simp
  have hnames : changed.map σ = changed := by
    refine (List.map_congr_left fun x hx => ?_).trans (List.map_id changed)
    rcases hroots x hx with rfl | rfl
    · exact hroot origin
    · exact hroot l
  have hkeeps : Keeps e e'
      ({ e with tree := if l.isTemporary then u else settle u family l }.sync changed)
      ({ e' with tree := if l.isTemporary then u' else settle u' (σ family) l }.sync
        (changed.map σ)) := by
    have hlives : ∀ {s : Tree H}, s.Sound none → ∀ x ∈ changed, s.Live x := by
      intro s hs x hx
      rcases hroots x hx with rfl | rfl
      · exact hs.live_root origin
      · exact hs.live_root l
    cases l.isTemporary with
    | true => exact h.keeps_sync hedit hu hu' (hlives hu)
    | false =>
      have hsettle := (Tree.sameShape_settle u family l).sound hu
      have hsettle' := (Tree.sameShape_settle u' (σ family) l).sound hu'
      exact h.keeps_sync (hedit.settled hu hu' hlive l) hsettle hsettle' (hlives hsettle)
  rw [hnames] at hkeeps
  rw [heq, heq', ← hchanged]
  exact ⟨rfl, hkeeps⟩

theorem moveToLayer (h : Renames σ e e') (w : H) (l : Layer) (pos : Position) :
    Matches e e' (e.moveToLayer w l pos) (e'.moveToLayer w l pos) := by
  cases hget : e.tree.get w with
  | none =>
    have hget' := h.get_of_untracked hget
    simp only [Engine.moveToLayer, hget, hget', Option.bind_none]
    exact ⟨rfl, h.keeps_refl⟩
  | some x =>
    obtain ⟨family, origin, htop, -, hpar⟩ := exists_family h.sound hget
    have htop' : (e'.tree.get w).bind e'.tree.topLevel = some (σ family) := by
      rw [hget, Option.bind_some] at htop
      rw [h.get_of_get hget, Option.bind_some,
        h.tree.topLevel h.sound.toLinked h.sound'.toLinked (h.live_of_get hget), htop,
        Option.map_some]
    simp only [Engine.moveToLayer, htop, htop']
    exact h.moveFamily hpar l pos

theorem setFullscreen (h : Renames σ e e') (w : H) (on : Bool) :
    Matches e e' (e.setFullscreen w on) (e'.setFullscreen w on) := by
  rw [Engine.setFullscreen, Engine.setFullscreen, h.layerOf, h.homeOf]
  split
  · exact h.moveToLayer w .fullscreen .top
  · split
    · exact ⟨rfl, h.keeps_refl⟩
    · cases e.homeOf w with
      | none => exact ⟨rfl, h.keeps_refl⟩
      | some home => exact h.moveToLayer w home .top

/-! ## Focus -/

theorem demoted (h : Renames σ e e') {focused : NodeId} (hx : e.tree.Live focused) :
    Engine.demoted e'.tree (σ focused) = (Engine.demoted e.tree focused).map σ := by
  rw [Engine.demoted, Engine.demoted, h.tree.children_root h.sound.toSlotted,
    h.tree.children_root h.sound.toSlotted, ← List.map_append, List.filter_map]
  congr 1
  refine List.filter_congr fun c hc => ?_
  have hc : e.tree.Live c := by
    rcases List.mem_append.mp hc with hc | hc
    · exact h.sound.live_child hc
    · exact h.sound.live_child hc
  rw [Function.comp_apply, h.tree.isInSubtree h.sound.toLinked h.sound'.toLinked hc hx]

/-- The place of a family that goes back is the same, while the family is out of both
forests. -/
theorem returnSlot {t₀ t₀' : Tree H} {loose loose' : Option NodeId} (h : t₀.Renames σ t₀')
    (ht₀ : t₀.Sound loose) (ht₀' : t₀'.Sound loose') (home : Layer) {focused : NodeId}
    (hx : t₀.Live focused) :
    Engine.returnSlot t₀' home (σ focused) = Engine.returnSlot t₀ home focused := by
  rw [Engine.returnSlot, Engine.returnSlot, h.topLevel ht₀.toLinked ht₀'.toLinked hx,
    h.children_root ht₀.toSlotted, List.length_map]
  cases htop : t₀.topLevel focused with
  | none => rfl
  | some family =>
    have hbelow := (ht₀.topLevel_eq_some_iff.mp htop).1
    have hfamily := ht₀.live_of_below hx hbelow
    simp only [Option.map_some, h.layerOf ht₀.toLinked ht₀'.toLinked hfamily,
      h.position ht₀.toLinked hfamily]

theorem demote (h : Renames σ e e') {focused family p : NodeId} (hx : e.tree.Live focused)
    (hpar : e.tree.parent family = some p) :
    ∃ r, (e.demote focused family).queue = e.queue ++ [r] ∧
      (e'.demote (σ focused) (σ family)).queue = e'.queue ++ [r] ∧
      Renames σ (e.demote focused family) (e'.demote (σ focused) (σ family)) := by
  have hfamily := Tree.live_of_parent hpar
  have hhome : (e'.tree.home (σ family)).getD e'.defaultLayer =
      (e.tree.home family).getD e.defaultLayer := by
    rw [h.tree.home hfamily, h.defaultLayer]
  generalize hl : (e.tree.home family).getD e.defaultLayer = home at hhome
  obtain ⟨t₀, below, above, slot, u, hfrom, hslot, hto, hu, heq⟩ :=
    exists_demote h.sound hpar focused hl
  obtain ⟨t₀', below', above', slot', u', hfrom', hslot', hto', hu', heq'⟩ :=
    exists_demote h.sound' (h.parent_of_parent hpar) (σ focused) hhome
  have ht₀ := hfrom.sound_of_taken h.sound
  have hout := h.tree.taken hfrom hfrom' h.sound h.sound'
  rw [returnSlot hout ht₀ (hfrom'.sound_of_taken h.sound') home ((hfrom.live focused).mp hx),
    hslot] at hslot'
  obtain rfl := Option.some.inj hslot'
  have hlen : (t₀'.children (root home)).length = (t₀.children (root home)).length := by
    rw [hout.children_root ht₀.toSlotted, List.length_map]
  rw [hlen] at hto'
  have hedit := hout.grafted hto hto' (ht₀.live_root home) ((hfrom.live family).mp hfamily)
    (h.tree.root home) rfl
  have hlive : u.Live family := (hto.live family).mpr ((hfrom.live family).mp hfamily)
  rw [heq, heq']
  refine ⟨u.request family, rfl, ?_, hedit, hu, hu', h.defaultLayer, h.defaultPosition,
    h.demoteOnFocus⟩
  exact congrArg (e'.queue ++ [·]) (hedit.request hu hu' hlive)

theorem demoteAll (h : Renames σ e e') {focused : NodeId} (hx : e.tree.Live focused)
    {families : List NodeId} (hnodup : families.Nodup)
    (hpar : ∀ x ∈ families, ∃ p, e.tree.parent x = some p) :
    Keeps e e' (families.foldl (fun e family => e.demote focused family) e)
      ((families.map σ).foldl (fun e family => e.demote (σ focused) family) e') := by
  induction families generalizing e e' with
  | nil => exact h.keeps_refl
  | cons family rest ih =>
    obtain ⟨hfamily, hrest⟩ := List.nodup_cons.mp hnodup
    obtain ⟨p, hp⟩ := hpar family List.mem_cons_self
    obtain ⟨r, hqueue, hqueue', hnext⟩ := h.demote hx hp
    obtain ⟨u, slot, hmove, -, heq⟩ := demote_eq h.sound hp focused
    have htree : (e.demote focused family).tree = u := by rw [heq]; rfl
    rw [List.map_cons, List.foldl_cons, List.foldl_cons]
    refine Keeps.trans ⟨σ, [r], hqueue, hqueue', hnext⟩ (ih hnext ?_ hrest fun x hmem => ?_)
    · rw [htree]
      exact (hmove.sameNodes.live focused).mpr hx
    · -- The families that follow have not moved yet.
      obtain ⟨p', hp'⟩ := hpar x (List.mem_cons_of_mem family hmem)
      have hne : x ≠ family := fun he => hfamily (he ▸ hmem)
      exact ⟨p', by rw [htree, hmove.parent, if_neg hne, hp']⟩

theorem focus (h : Renames σ e e') (w : H) : Matches e e' (e.focus w) (e'.focus w) := by
  rw [Engine.focus, Engine.focus, h.demoteOnFocus]
  split
  · exact ⟨rfl, h.keeps_refl⟩
  · cases hget : e.tree.get w with
    | none =>
      rw [h.get_of_untracked hget]
      exact ⟨rfl, h.keeps_refl⟩
    | some focused =>
      have hx := h.live_of_get hget
      rw [h.get_of_get hget]
      dsimp only
      rw [h.demoted hx, List.isEmpty_map]
      split
      · exact ⟨rfl, h.keeps_refl⟩
      · refine ⟨rfl, h.demoteAll hx (nodup_demoted h.sound focused) fun x hmem => ?_⟩
        obtain ⟨⟨l, -, hpar⟩, -⟩ := (mem_demoted_iff h.sound).mp hmem
        exact ⟨_, hpar⟩

/-! ## Windows come and go -/

theorem placeFor (h : Renames σ e e') {w : H} {l home : Layer} {pos pos' : Position}
    {p : NodeId} (hplace : e.placeFor q w l pos = (p, home, pos')) :
    e'.placeFor q w l pos = (σ p, home, pos') ∧ e.tree.Live p := by
  have howner : e'.ownerNode q w = (e.ownerNode q w).map σ := by
    rw [ownerNode, ownerNode, Option.map_bind]
    exact congrArg _ (funext h.get)
  rw [Engine.placeFor] at hplace ⊢
  rw [howner]
  cases hnode : e.ownerNode q w with
  | none =>
    rw [hnode] at hplace
    cases hplace
    rw [Option.map_none, h.tree.root, h.defaultLayer]
    exact ⟨rfl, h.sound.live_root l⟩
  | some x =>
    rw [hnode] at hplace
    cases hplace
    obtain ⟨v, -, hv⟩ := Option.bind_eq_some_iff.mp hnode
    have hlive := h.live_of_get hv
    rw [Option.map_some, h.defaultLayer]
    dsimp only
    rw [h.tree.home hlive]
    exact ⟨rfl, hlive⟩

theorem addAt (h : Renames σ e e') (w : H) (l : Layer) (pos : Position) :
    Matches e e' (e.addAt q w l pos) (e'.addAt q w l pos) := by
  cases hget : e.tree.get w with
  | some x =>
    have hget' := h.get_of_get hget
    have hcontains : ∀ {s : Tree H} {y : NodeId}, s.get w = some y → s.contains w = true := by
      intro s y hy
      rw [Tree.contains, hy]
      rfl
    rw [Engine.addAt, Engine.addAt, if_pos (hcontains hget), if_pos (hcontains hget')]
    exact ⟨rfl, h.keeps_refl⟩
  | none =>
    have hget' := h.get_of_untracked hget
    obtain ⟨p, home, pos', t₀, id, u, hplace, hnew, ht₀, hto, hu, heq⟩ :=
      addAt_eq (q := q) h.sound hget l pos
    obtain ⟨p', home', pos'', t₀', id', u', hplace', hnew', ht₀', hto', hu', heq'⟩ :=
      addAt_eq (q := q) h.sound' hget' l pos
    obtain ⟨hplace'', hp⟩ := h.placeFor hplace
    rw [hplace''] at hplace'
    cases hplace'
    -- Old slots keep their names, and the slot of the new window gets its own.
    have hcreate := h.tree.created hnew hnew' h.sound
    have hne : p ≠ id := by
      rintro rfl
      exact hnew.fresh hp
    have hold : Function.update σ id id' p = σ p := Function.update_of_ne hne _ _
    have hself : Function.update σ id id' id = id' := Function.update_self id id' σ
    have hp₀ : t₀.Live p := (hnew.live_iff p).mpr (.inr hp)
    have hid₀ : t₀.Live id := (hnew.live_iff id).mpr (.inl rfl)
    have hlen : (t₀'.children (σ p)).length = (t₀.children p).length := by
      rw [← hold, hcreate.children p hp₀, List.length_map]
    rw [hlen] at hto'
    have hedit := hcreate.grafted hto hto' hp₀ hid₀ hold hself
    have hkeeps := h.keeps_sync_single hedit hu hu' ((hto.live id).mpr hid₀)
    rw [hself] at hkeeps
    rw [heq, heq']
    exact ⟨rfl, hkeeps⟩

theorem remove (h : Renames σ e e') (w : H) : Matches e e' (e.remove w) (e'.remove w) := by
  cases hget : e.tree.get w with
  | none =>
    rw [remove_of_untracked hget, remove_of_untracked (h.get_of_untracked hget)]
    exact ⟨rfl, h.keeps_refl⟩
  | some id =>
    obtain ⟨p, below, above, u, hpar, hgone, hu, heq⟩ := remove_eq h.sound hget
    obtain ⟨p', below', above', u', hpar', hgone', hu', heq'⟩ :=
      remove_eq h.sound' (h.get_of_get hget)
    rw [h.parent_of_parent hpar] at hpar'
    obtain rfl := Option.some.inj hpar'
    have hedit := h.tree.destroyed hgone hgone' h.sound h.sound' hpar
    rw [heq, heq']
    have hp : u.Live p :=
      (hgone.live_iff p).mpr ⟨h.sound.parent_ne hpar, h.sound.live_parent hpar⟩
    exact ⟨rfl, h.keeps_sync_single hedit hu hu' hp⟩

/-! ## Every operation -/

theorem perform (h : Renames σ e e') (q : Query H) (op : Op H) :
    Matches e e' (e.perform q op) (e'.perform q op) := by
  cases op with
  | add w =>
    have hadd := h.addAt (q := q) w e.defaultLayer e.defaultPosition
    rw [Engine.perform, Engine.perform, add, add, h.defaultLayer, h.defaultPosition]
    exact hadd
  | addAt w l pos => exact h.addAt w l pos
  | remove w => exact h.remove w
  | up w => exact h.shift w .up
  | down w => exact h.shift w .down
  | toTop w => exact h.moveTo w .top
  | toBottom w => exact h.moveTo w .bottom
  | toLayer w l pos => exact h.moveToLayer w l pos
  | toFront w => exact h.moveToLayer w .bringToFront .top
  | fullscreen w on => exact h.setFullscreen w on
  | focus w => exact h.focus w

theorem performAll (h : Renames σ e e') (steps : List (Query H × Op H)) :
    Keeps e e' (e.performAll steps) (e'.performAll steps) := by
  induction steps generalizing e e' σ with
  | nil => exact h.keeps_refl
  | cons step rest ih =>
    have hstep := (h.perform step.1 step.2).2
    obtain ⟨τ, rs, hqueue, hqueue', hnext⟩ := hstep
    exact Keeps.trans ⟨τ, rs, hqueue, hqueue', hnext⟩ (ih hnext)

end Renames

/-! ## The engine refines the forest of families -/

/-- Two engines with the same families and the same settings. -/
structure Resembles (e e' : Engine H) : Prop where
  forest : e'.tree.forest = e.tree.forest
  defaultLayer : e'.defaultLayer = e.defaultLayer
  defaultPosition : e'.defaultPosition = e.defaultPosition
  demoteOnFocus : e'.demoteOnFocus = e.demoteOnFocus

theorem Renames.resembles (h : Renames σ e e') : Resembles e e' :=
  ⟨h.tree.forest_eq h.sound h.sound', h.defaultLayer, h.defaultPosition, h.demoteOnFocus⟩

theorem Resembles.renames (h : Resembles e e') (he : e.tree.Sound none) (he' : e'.tree.Sound none) :
    Renames (Tree.slotIn e.tree e'.tree) e e' :=
  ⟨Tree.renames_of_forest_eq he he' h.forest, he, he', h.defaultLayer, h.defaultPosition,
    h.demoteOnFocus⟩

/-- All that a caller can see of two engines is the same. -/
structure LooksLike (e e' : Engine H) : Prop where
  zOrder : e'.zOrder = e.zOrder
  info : ∀ q, e'.info q = e.info q
  isStacked : ∀ w, e'.isStacked w = e.isStacked w
  layerOf : ∀ w, e'.layerOf w = e.layerOf w
  homeOf : ∀ w, e'.homeOf w = e.homeOf w
  siblingAbove : ∀ w, e'.siblingAbove w = e.siblingAbove w
  siblingBelow : ∀ w, e'.siblingBelow w = e.siblingBelow w
  windowsIn : ∀ l, e'.windowsIn l = e.windowsIn l

theorem Renames.looksLike (h : Renames σ e e') : LooksLike e e' where
  zOrder := h.zOrder
  info q := by rw [Engine.info, Engine.info, h.resembles.forest]
  isStacked := h.isStacked
  layerOf := h.layerOf
  homeOf := h.homeOf
  siblingAbove := h.siblingAbove
  siblingBelow := h.siblingBelow
  windowsIn := h.windowsIn

/-- The families and the settings decide what an engine does: engines that agree on these
answer every operation alike under the same answers about windows, queue the same requests
and agree again. So all that can be seen of them is the same after any further run,
whatever slots their windows are in. -/
theorem forest_decides (h : Reachable e) (h' : Reachable e') (hsame : Resembles e e') :
    (∀ (q : Query H) (op : Op H),
      (e'.perform q op).1 = (e.perform q op).1 ∧
      (∃ rs, (e.perform q op).2.queue = e.queue ++ rs ∧
        (e'.perform q op).2.queue = e'.queue ++ rs) ∧
      Resembles (e.perform q op).2 (e'.perform q op).2) ∧
    ∀ steps : List (Query H × Op H),
      (∃ rs, (e.performAll steps).queue = e.queue ++ rs ∧
        (e'.performAll steps).queue = e'.queue ++ rs) ∧
      Resembles (e.performAll steps) (e'.performAll steps) ∧
      LooksLike (e.performAll steps) (e'.performAll steps) := by
  have hren := hsame.renames h.sound h'.sound
  refine ⟨fun q op => ?_, fun steps => ?_⟩
  · obtain ⟨hanswer, σ, rs, hqueue, hqueue', hnext⟩ := hren.perform q op
    exact ⟨hanswer, ⟨rs, hqueue, hqueue'⟩, hnext.resembles⟩
  · obtain ⟨σ, rs, hqueue, hqueue', hnext⟩ := hren.performAll steps
    exact ⟨⟨rs, hqueue, hqueue'⟩, hnext.resembles, hnext.looksLike⟩

/-- Two windows, of which the second one took over the slot of a window that is gone. -/
def reusing : Engine Nat :=
  (ofSettings {}).performAll
    [(.blank, .add 1), (.blank, .add 2), (.blank, .remove 1), (.blank, .add 3)]

/-- The same two windows without that history. -/
def pristine : Engine Nat :=
  (ofSettings {}).performAll [(.blank, .add 2), (.blank, .add 3)]

theorem reachable_reusing : reusing.Reachable := .performAll (.start {}) _

theorem reachable_pristine : pristine.Reachable := .performAll (.start {}) _

theorem resembles_reusing_pristine : Resembles reusing pristine := by
  have hreusing := reachable_reusing.sound
  have hpristine := reachable_pristine.sound
  -- Window 2 is in slots 12 and 11, and window 3 the other way round.
  have htwo := hreusing.family_of_leaf (x := 12) (w := 2) (l := .layout) (by decide) (by decide)
  have hthree := hreusing.family_of_leaf (x := 11) (w := 3) (l := .layout) (by decide) (by decide)
  have htwo' := hpristine.family_of_leaf (x := 11) (w := 2) (l := .layout) (by decide) (by decide)
  have hthree' := hpristine.family_of_leaf (x := 12) (w := 3) (l := .layout) (by decide) (by decide)
  refine ⟨?_, by decide, by decide, by decide⟩
  funext l
  show (pristine.tree.children (root l)).filterMap pristine.tree.family =
    (reusing.tree.children (root l)).filterMap reusing.tree.family
  by_cases hl : l = .layout
  · have hcs : reusing.tree.children (root l) = [12, 11] := by subst hl; decide
    have hcs' : pristine.tree.children (root l) = [11, 12] := by subst hl; decide
    rw [hcs, hcs']
    simp only [List.filterMap_cons, List.filterMap_nil, htwo, hthree, htwo', hthree']
  · have hcs : reusing.tree.children (root l) = [] := by
      cases l <;> first | exact absurd rfl hl | decide
    have hcs' : pristine.tree.children (root l) = [] := by
      cases l <;> first | exact absurd rfl hl | decide
    rw [hcs, hcs', List.filterMap_nil, List.filterMap_nil]

/-- The slots differ, but what is done next is the same. -/
theorem forest_decides_of_reused_slot :
    reusing.Reachable ∧ pristine.Reachable ∧ Resembles reusing pristine ∧
      reusing.tree.get 3 = some 11 ∧ pristine.tree.get 3 = some 12 ∧
      (pristine.perform .blank (.up 2)).1 = true ∧
      Resembles (reusing.perform .blank (.up 2)).2 (pristine.perform .blank (.up 2)).2 ∧
      (pristine.performAll [(.blank, .remove 3), (.blank, .add 4), (.blank, .up 2)]).zOrder =
        [4, 2] := by
  have hsame := resembles_reusing_pristine
  have hdecides := forest_decides reachable_reusing reachable_pristine hsame
  refine ⟨reachable_reusing, reachable_pristine, hsame, by decide, by decide, ?_, ?_, ?_⟩
  · exact (hdecides.1 .blank (.up 2)).1.trans (by decide)
  · exact (hdecides.1 .blank (.up 2)).2.2
  · exact (hdecides.2 _).2.2.zOrder.trans (by decide)

end ZOrder.Engine
