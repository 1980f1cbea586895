/-
  ZOrder.Proofs.Engine.Strict

  The operations of an engine with nothing glossed over. A list or an array that is used
  past its end is a fault, where the engine itself would shorten the index; so is a change
  that is given up halfway, with a window taken out and not put back, where the engine
  would leave the forest as it then is.

  On a sound forest no fault is ever met: the strict operations answer what the engine
  answers.
-/

import ZOrder.Proofs.Engine.Change

namespace ZOrder.Strict

/-- What must not happen. -/
inductive Fault where
  /-- A list or an array is used past its end. -/
  | outOfBounds
  /-- A change is given up halfway. -/
  | halfway
  deriving DecidableEq, Repr

variable {α β H : Type}

/-! ## Lists and arrays -/

/-- The entry at a place. -/
def nth (xs : List α) (i : Nat) : Except Fault α :=
  match xs[i]? with
  | some x => .ok x
  | none => .error .outOfBounds

/-- The list with an entry put in at a place. -/
def insertAt (xs : List α) (i : Nat) (x : α) : Except Fault (List α) :=
  if i ≤ xs.length then .ok (xs.insertIdx i x) else .error .outOfBounds

/-- The list without the entry at a place. -/
def removeAt (xs : List α) (i : Nat) : Except Fault (List α) :=
  if i < xs.length then .ok (xs.eraseIdx i) else .error .outOfBounds

/-- The two parts of a list before and after a place. -/
def splitAt (xs : List α) (i : Nat) : Except Fault (List α × List α) :=
  if i ≤ xs.length then .ok (xs.take i, xs.drop i) else .error .outOfBounds

/-- The array with another entry at a place. -/
def setAt (xs : Array α) (i : Nat) (x : α) : Except Fault (Array α) :=
  if i < xs.size then .ok (xs.setIfInBounds i x) else .error .outOfBounds

/-- The result of a step that must not be refused, since a change has begun. -/
def committed (result : Option α) : Except Fault α :=
  match result with
  | some a => .ok a
  | none => .error .halfway

@[simp] theorem ok_bind (a : α) (f : α → Except Fault β) : (Except.ok a >>= f) = f a := rfl

@[simp] theorem pure_eq (a : α) : (pure a : Except Fault α) = .ok a := rfl

@[simp] theorem committed_some (a : α) : committed (some a) = .ok a := rfl

/-! ## Edits of a forest -/

/-- Attaches a node. -/
def attach (t : Tree H) (parent id : NodeId) (slot : Nat) :
    Except Fault (Option (Tree H × Nat)) :=
  match t.node id, t.node parent with
  | some n, some p =>
    if n.isLayer || n.parent.isSome || t.isInSubtree id parent then return none
    else do
      let slot := min slot p.children.length
      let children ← insertAt p.children slot id
      let t := t.update parent fun p => { p with children }
      let _ ← committed (t.node id)
      return some (t.update id fun n => { n with parent := some parent }, slot)
  | _, _ => return none

/-- Takes a node out of its parent. -/
def detach (t : Tree H) (id : NodeId) : Except Fault (Option (Tree H × NodeId × Nat)) :=
  match t.parent id, t.position id with
  | some parent, some slot => do
    let children ← removeAt (t.children parent) slot
    let t := t.update parent fun p => { p with children }
    let _ ← committed (t.node id)
    return some (t.update id fun n => { n with parent := none }, parent, slot)
  | _, _ => return none

/-- Takes a node out of its parent and puts its children in its place. -/
def unlink (t : Tree H) (id : NodeId) : Except Fault (Option (Tree H × NodeId × Nat)) :=
  match t.parent id, t.position id with
  | some parent, some slot => do
    let promoted := t.children id
    let t := (t.update id fun n => { n with children := [] }).adopt parent promoted
    let _ ← committed (t.node parent)
    let (below, above) ← splitAt (t.children parent) (slot + 1)
    let t := t.update parent fun p => { p with children := below.dropLast ++ promoted ++ above }
    let _ ← committed (t.node id)
    return some (t.update id fun n => { n with parent := none }, parent, slot)
  | _, _ => return none

variable [DecidableEq H]

/-- Makes a node for a window. -/
def create (t : Tree H) (w : H) (home : Layer) : Except Fault (Tree H × NodeId) := do
  let node := some (Node.bare (.window w home))
  match t.free with
  | id :: free =>
    let nodes ← setAt t.nodes id node
    return ({ nodes, free, index := t.index.insert w id }, id)
  | [] =>
    let id := t.nodes.size
    return ({ nodes := t.nodes.push node, free := [], index := t.index.insert w id }, id)

/-- Frees the slot of a window. -/
def destroy (t : Tree H) (w : H) : Except Fault (Option (Tree H × Option (NodeId × Nat))) :=
  match t.get w with
  | none => return none
  | some id => do
    let t := { t with index := t.index.erase w }
    let (t, former) ← committed (← unlink t id)
    let nodes ← setAt t.nodes id none
    return some ({ t with nodes, free := id :: t.free }, some former)

/-! ## Operations of an engine -/

/-- The neighbour of a run of nodes: the node below it is looked up in the order. -/
def anchorIn (t : Tree H) (order run : List NodeId) : Except Fault (Anchor H) :=
  match run.head?.bind fun id => order.idxOf? id with
  | none => return .floor
  | some 0 => return match order[run.length]?.bind t.handle with
    | some w => .below w
    | none => .floor
  | some (k + 1) => do
    let below ← nth order k
    return match t.handle below with
      | some w => .above w
      | none => .floor

/-- The request that restacks a node. -/
def requestIn (t : Tree H) (order : List NodeId) (id : NodeId) : Except Fault (Request H) := do
  let anchor ← anchorIn t order (t.run id)
  return ⟨t.handles (t.run id), anchor⟩

/-- Queues one request for each node, in turn. -/
def sync (e : Engine H) (ids : List NodeId) : Except Fault (Engine H) := do
  let requests ← ids.mapM (requestIn e.tree e.tree.order)
  return { e with queue := e.queue ++ requests }

/-- The sibling that a window is to pass: the one below is looked up in the list. -/
def passing (e : Engine H) (q : Query H) (w : H) (d : Engine.Direction) :
    Except Fault (Option (NodeId × NodeId × NodeId)) :=
  match e.tree.get w with
  | none => return none
  | some id =>
    match e.tree.parent id with
    | none => return none
    | some parent =>
      let siblings := e.candidates q w id parent
      match d, siblings.idxOf? id with
      | _, none | .down, some 0 => return none
      | .up, some place => return siblings[place + 1]?.map fun target => (id, parent, target)
      | .down, some (place + 1) => do
        let target ← nth siblings place
        return some (id, parent, target)

/-- Moves a window past the next sibling that counts. -/
def shift (e : Engine H) (q : Query H) (w : H) (d : Engine.Direction) :
    Except Fault (Bool × Engine H) := do
  match ← passing e q w d with
  | none => return (false, e)
  | some (id, parent, target) =>
    match ← detach e.tree id with
    | none => return (false, e)
    | some (tree, _) =>
      let slot ← committed (tree.position target)
      let (tree, _) ← committed (← attach tree parent id (if d = .up then slot + 1 else slot))
      return (true, ← sync { e with tree } [id])

/-- Moves a window to a place among its siblings. -/
def moveTo (e : Engine H) (w : H) (p : Position) : Except Fault (Bool × Engine H) :=
  match e.tree.get w with
  | none => return (false, e)
  | some id => do
    match ← detach e.tree id with
    | none => return (false, e)
    | some (tree, parent, _) =>
      let (tree, _) ← committed (← attach tree parent id (p.slot (tree.children parent).length))
      return (true, ← sync { e with tree } [id])

/-- Moves the family of a window to a band, at a place. -/
def moveToLayer (e : Engine H) (w : H) (l : Layer) (p : Position) :
    Except Fault (Bool × Engine H) :=
  match (e.tree.get w).bind e.tree.topLevel with
  | none => return (false, e)
  | some family => do
    match ← detach e.tree family with
    | none => return (false, e)
    | some (tree, origin, _) =>
      let root := Tree.root l
      let (tree, _) ← committed (← attach tree root family (p.slot (tree.children root).length))
      let tree := if l.isTemporary then tree else Engine.settle tree family l
      return (true, ← sync { e with tree } (if origin = root then [origin] else [origin, root]))

/-- Enters or leaves the fullscreen band. -/
def setFullscreen (e : Engine H) (w : H) (on : Bool) : Except Fault (Bool × Engine H) :=
  if on then moveToLayer e w .fullscreen .top
  else if e.layerOf w ≠ some .fullscreen then return (false, e)
  else
    match e.homeOf w with
    | none => return (false, e)
    | some home => moveToLayer e w home .top

/-- Moves one family back to its permanent band. -/
def demote (focused : NodeId) (e : Engine H) (family : NodeId) : Except Fault (Engine H) := do
  let home := (e.tree.home family).getD e.defaultLayer
  let (tree, _) ← committed (← detach e.tree family)
  let slot ← committed (Engine.returnSlot tree home focused)
  let (tree, _) ← committed (← attach tree (Tree.root home) family slot)
  sync { e with tree } [family]

/-- A window takes the focus. -/
def focus (e : Engine H) (w : H) : Except Fault (Bool × Engine H) :=
  if !e.demoteOnFocus then return (false, e)
  else
    match e.tree.get w with
    | none => return (false, e)
    | some focused => do
      let families := Engine.demoted e.tree focused
      if families.isEmpty then return (false, e)
      else return (true, ← families.foldlM (demote focused) e)

/-- Starts to track a window in a band, at a place. -/
def addAt (e : Engine H) (q : Query H) (w : H) (l : Layer) (p : Position) :
    Except Fault (Bool × Engine H) :=
  if e.tree.contains w then return (false, e)
  else do
    let (parent, home, p) := e.placeFor q w l p
    let (tree, id) ← create e.tree w home
    let (tree, _) ← committed (← attach tree parent id (p.slot (tree.children parent).length))
    return (true, ← sync { e with tree } [id])

/-- Stops tracking a window. -/
def remove (e : Engine H) (w : H) : Except Fault (Bool × Engine H) := do
  match ← destroy e.tree w with
  | none => return (false, e)
  | some (tree, former) =>
    let (parent, _) ← committed former
    return (true, ← sync { e with tree } [parent])

/-- Carries out one operation. -/
def perform (e : Engine H) (q : Query H) : Op H → Except Fault (Bool × Engine H)
  | .add w => addAt e q w e.defaultLayer e.defaultPosition
  | .addAt w l p => addAt e q w l p
  | .remove w => remove e w
  | .up w => shift e q w .up
  | .down w => shift e q w .down
  | .toTop w => moveTo e w .top
  | .toBottom w => moveTo e w .bottom
  | .toLayer w l p => moveToLayer e w l p
  | .toFront w => moveToLayer e w .bringToFront .top
  | .fullscreen w on => setFullscreen e w on
  | .focus w => focus e w

/-! ## No fault in an edit -/

theorem nth_eq {xs : List α} {i : Nat} (h : i < xs.length) : nth xs i = .ok xs[i] := by
  rw [nth, List.getElem?_eq_getElem h]

omit [DecidableEq H] in
/-- New children worked out beforehand are those worked out on the spot. -/
theorem update_children_eq (t : Tree H) (p : NodeId) (f : List NodeId → List NodeId) :
    (t.update p fun m => { m with children := f (t.children p) }) = t.setChildren p f := by
  rw [Tree.setChildren, Tree.update, Tree.update]
  congr 1
  refine Array.ext_getElem? fun i => ?_
  rw [Array.getElem?_modify, Array.getElem?_modify]
  split
  · next hi =>
    subst hi
    rw [Tree.children, Tree.node]
    rcases t.nodes[p]? with _ | _ | n <;> rfl
  · rfl

omit [DecidableEq H] in
theorem committed_node_bind {t : Tree H} {x : NodeId} (h : t.Live x) (next : Except Fault β) :
    (committed (t.node x) >>= fun _ => next) = next := by
  obtain ⟨n, hn⟩ := Tree.live_iff_node.mp h
  rw [hn, committed_some, ok_bind]

omit [DecidableEq H] in
theorem attach_eq (t : Tree H) (parent id : NodeId) (slot : Nat) :
    attach t parent id slot = .ok (t.attach parent id slot) := by
  cases hn : t.node id with
  | none => simp only [attach, Tree.attach, hn, pure_eq]
  | some n =>
    cases hp : t.node parent with
    | none => simp only [attach, Tree.attach, hn, hp, pure_eq]
    | some p =>
      simp only [attach, Tree.attach, hn, hp]
      split
      · rfl
      · -- The place is cut down to the number of siblings before it is used.
        have hle : min slot p.children.length ≤ p.children.length := Nat.min_le_right _ _
        have hcs : t.children parent = p.children := by rw [Tree.children, hp]; rfl
        have hupdate := update_children_eq t parent (·.insertIdx (min slot p.children.length) id)
        rw [hcs] at hupdate
        have hid : (t.setChildren parent (·.insertIdx (min slot p.children.length) id)).Live id :=
          ((Tree.sameNodes_setChildren t parent _).live id).mpr (Tree.live_iff_node.mpr ⟨n, hn⟩)
        rw [insertAt, if_pos hle, ok_bind, hupdate, committed_node_bind hid]
        rfl

omit [DecidableEq H] in
/-- A node with a position is listed there by its parent. -/
theorem lt_of_position {t : Tree H} {id parent : NodeId} {slot : Nat}
    (hparent : t.parent id = some parent) (hslot : t.position id = some slot) :
    slot < (t.children parent).length := by
  rw [Tree.position, hparent, Option.bind_some] at hslot
  exact (List.idxOf?_eq_some_iff.mp hslot).1

omit [DecidableEq H] in
theorem detach_eq (t : Tree H) (id : NodeId) : detach t id = .ok (t.detach id) := by
  cases hparent : t.parent id with
  | none => simp only [detach, Tree.detach, hparent, pure_eq]
  | some parent =>
    cases hslot : t.position id with
    | none => simp only [detach, Tree.detach, hparent, hslot, pure_eq]
    | some slot =>
      have hupdate := update_children_eq t parent (·.eraseIdx slot)
      have hid : (t.setChildren parent (·.eraseIdx slot)).Live id :=
        ((Tree.sameNodes_setChildren t parent _).live id).mpr (Tree.live_of_parent hparent)
      simp only [detach, Tree.detach, hparent, hslot]
      rw [removeAt, if_pos (lt_of_position hparent hslot), ok_bind, hupdate,
        committed_node_bind hid]
      rfl

omit [DecidableEq H] in
/-- A node that is not its own parent is unlinked without a fault. -/
theorem unlink_eq {t : Tree H} {id : NodeId} (hne : ∀ p, t.parent id = some p → p ≠ id) :
    unlink t id = .ok (t.unlink id) := by
  cases hparent : t.parent id with
  | none => simp only [unlink, Tree.unlink, hparent, pure_eq]
  | some parent =>
    cases hslot : t.position id with
    | none => simp only [unlink, Tree.unlink, hparent, hslot, pure_eq]
    | some slot =>
      have hlt : slot + 1 ≤ (t.children parent).length := lt_of_position hparent hslot
      have hid : t.Live id := Tree.live_of_parent hparent
      have hlive : t.Live parent := Tree.live_of_mem_children (List.getElem_mem hlt)
      have h₁ : Tree.SameNodes t (t.setChildren id fun _ => []) :=
        Tree.sameNodes_setChildren t id _
      -- Once the children are adopted the parent still has the list it had before.
      let adopted := (t.setChildren id fun _ => []).adopt parent (t.children id)
      have h₂ : Tree.SameNodes t adopted := h₁.trans (Tree.sameNodes_adopt _ parent _)
      have hcs : adopted.children parent = t.children parent := by
        rw [Tree.children_adopt, Tree.children_setChildren hid, if_neg (hne parent hparent)]
      -- Cutting above the node and dropping it leaves what is below it.
      have htake : ((t.children parent).take (slot + 1)).dropLast =
          (t.children parent).take slot := by
        rw [List.dropLast_eq_take, List.length_take, List.take_take, Nat.min_eq_left hlt]
        simp
      let splice := fun cs : List NodeId => cs.take slot ++ t.children id ++ cs.drop (slot + 1)
      have hupdate := update_children_eq adopted parent splice
      have hid' : (adopted.setChildren parent splice).Live id :=
        ((h₂.trans (Tree.sameNodes_setChildren adopted parent splice)).live id).mpr hid
      simp only [unlink, Tree.unlink, hparent, hslot]
      change (do
        let _ ← committed (adopted.node parent)
        let (below, above) ← splitAt (adopted.children parent) (slot + 1)
        let t' := adopted.update parent fun p =>
          { p with children := below.dropLast ++ t.children id ++ above }
        let _ ← committed (t'.node id)
        return some (t'.update id fun n => { n with parent := none }, parent, slot)) = _
      rw [committed_node_bind ((h₂.live parent).mpr hlive), hcs, splitAt, if_pos hlt, ok_bind]
      simp only [htake]
      rw [hcs] at hupdate
      rw [hupdate, committed_node_bind hid']
      rfl

theorem create_eq {t : Tree H} (hfree : ∀ x ∈ t.free, x < t.nodes.size) (w : H) (home : Layer) :
    create t w home = .ok (t.create w home) := by
  cases hf : t.free with
  | nil => simp only [create, Tree.create, hf, pure_eq]
  | cons id free =>
    have hlt : id < t.nodes.size := hfree id (by rw [hf]; exact List.mem_cons_self)
    simp only [create, Tree.create, hf, setAt, if_pos hlt, ok_bind, pure_eq]

/-- A window of a sound forest is destroyed without a fault. -/
theorem destroy_eq {t : Tree H} (h : t.Sound none) (w : H) :
    destroy t w = .ok (t.destroy w) := by
  cases hget : t.get w with
  | none => simp only [destroy, Tree.destroy, hget, pure_eq]
  | some id =>
    obtain ⟨p, hpar⟩ := h.exists_parent ((h.get_iff w id).mp hget)
    obtain ⟨below, above, hcs, hbelow, -⟩ := h.exists_split hpar
    -- The index plays no part in what happens to the links.
    let t₀ : Tree H := { t with index := t.index.erase w }
    obtain ⟨t₁, hunlink, hsame, -⟩ := Tree.exists_unlink (t := t₀) hpar (h.parent_ne hpar) hcs
      hbelow fun c hc => h.live_child hc
    have hstrict : unlink t₀ id = .ok (t₀.unlink id) :=
      unlink_eq fun q hq => h.parent_ne hq
    have hlt : id < t₁.nodes.size := hsame.size ▸ (Tree.live_of_parent hpar).lt_size
    simp only [destroy, Tree.destroy, hget, t₀] at hstrict hunlink ⊢
    simp only [hstrict, hunlink, ok_bind, committed_some, setAt, if_pos hlt, pure_eq]

/-! ## No fault in a request -/

omit [DecidableEq H] in
theorem anchorIn_eq (t : Tree H) (order run : List NodeId) :
    anchorIn t order run = .ok (t.anchorIn order run) := by
  rw [anchorIn, Tree.anchorIn]
  cases hplace : run.head?.bind fun id => order.idxOf? id with
  | none => rfl
  | some place =>
    cases place with
    | zero => rfl
    | succ k =>
      -- The first node of the run stands one above the place that is looked up.
      obtain ⟨id, -, hid⟩ := Option.bind_eq_some_iff.mp hplace
      have hlt : k < order.length := Nat.lt_of_succ_lt (List.idxOf?_eq_some_iff.mp hid).1
      dsimp only
      rw [nth_eq hlt, List.getElem?_eq_getElem hlt]
      rfl

omit [DecidableEq H] in
theorem requestIn_eq (t : Tree H) (order : List NodeId) (id : NodeId) :
    requestIn t order id = .ok (t.requestIn order id) := by
  rw [requestIn, anchorIn_eq, ok_bind, pure_eq, Tree.requestIn]

omit [DecidableEq H] in
theorem sync_eq (e : Engine H) (ids : List NodeId) : sync e ids = .ok (e.sync ids) := by
  have hall : ids.mapM (requestIn e.tree e.tree.order) =
      .ok (ids.map (e.tree.requestIn e.tree.order)) := by
    induction ids with
    | nil => rfl
    | cons id rest ih => rw [List.mapM_cons, requestIn_eq, ok_bind, ih, ok_bind]; rfl
  rw [sync, hall, ok_bind, pure_eq, Engine.sync]

theorem passing_eq (e : Engine H) (q : Query H) (w : H) (d : Engine.Direction) :
    passing e q w d = .ok (e.passing q w d) := by
  cases hget : e.tree.get w with
  | none => simp only [passing, Engine.passing, hget]; rfl
  | some id =>
    cases hpar : e.tree.parent id with
    | none =>
      simp only [passing, Engine.passing, hget, hpar, Option.bind_eq_bind, Option.bind_some]
      rfl
    | some parent =>
      simp only [passing, Engine.passing, hget, hpar, Option.bind_eq_bind, Option.bind_some]
      cases hplace : (e.candidates q w id parent).idxOf? id with
      | none => cases d <;> rfl
      | some place =>
        have hlt : place < (e.candidates q w id parent).length :=
          (List.idxOf?_eq_some_iff.mp hplace).1
        cases d with
        | up =>
          simp only [Option.bind_some, Option.map_eq_bind]
          rfl
        | down =>
          cases place with
          | zero => rfl
          | succ place =>
            -- The sibling below stands one place lower in the same list.
            have hbelow := Nat.lt_of_succ_lt hlt
            simp only [nth_eq hbelow, ok_bind, Option.bind_some, List.getElem?_eq_getElem hbelow]
            rfl

end ZOrder.Strict
