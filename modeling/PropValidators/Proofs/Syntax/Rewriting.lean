import PropValidators.Proofs.Syntax.Slots

/-!
# Trees with nodes replaced

In a tree some nodes are replaced, each depending on where it stands and on what it is.  A node
that is replaced is not looked into, and everything that is not replaced stays as it was.  Nodes
in a list within a list have no slot, and stay with the list.
-/

namespace PropValidators.Ast

mutual

/-- A tree with the nodes below its root replaced, where there is something to replace them. -/
def Node.rewrite (replace : Place → Node → Option Node) : Node → Node
  | ⟨type, fields⟩ => ⟨type, rewriteFields replace fields⟩
termination_by structural n => n

/-- The value of a field with the nodes in it replaced. -/
def Value.rewrite (replace : Place → Node → Option Node) (field : FieldName) : Value → Value
  | .node c =>
      .node ((replace [⟨field, none⟩] c).getD
        (c.rewrite fun place => replace (⟨field, none⟩ :: place)))
  | .list items => .list (rewriteItems replace field 0 items)
  | .data json => .data json
termination_by structural value => value

/-- An item of a list with the node that it is replaced, or the nodes below. -/
def Value.rewriteInList (replace : Place → Node → Option Node) (slot : Slot) : Value → Value
  | .node c => .node ((replace [slot] c).getD (c.rewrite fun place => replace (slot :: place)))
  | .list items => .list items
  | .data json => .data json
termination_by structural value => value

/-- The items of a list, the first of which has the given index, with nodes replaced. -/
def rewriteItems (replace : Place → Node → Option Node) (field : FieldName) (index : Nat) :
    List Value → List Value
  | [] => []
  | item :: items =>
      item.rewriteInList replace ⟨field, some index⟩ ::
        rewriteItems replace field (index + 1) items
termination_by structural items => items

/-- Fields with the nodes in them replaced. -/
def rewriteFields (replace : Place → Node → Option Node) :
    List (FieldName × Value) → List (FieldName × Value)
  | [] => []
  | (name, value) :: fields => (name, value.rewrite replace name) :: rewriteFields replace fields
termination_by structural fields => fields

end

namespace Node

/-- A tree with the nodes below its root replaced, each by what a function says of it. -/
def substitute (replacement? : Node → Option Node) (n : Node) : Node :=
  n.rewrite fun _ => replacement?

variable {n c m : Node} {slot : Slot} {place : Place}
  {replace other : Place → Node → Option Node}

/-- What becomes of a child: it is replaced, or the nodes below it are. -/
def rewriteIn (replace : Place → Node → Option Node) (slot : Slot) (c : Node) : Node :=
  (replace [slot] c).getD (c.rewrite fun place => replace (slot :: place))

@[simp]
theorem rewriteItems_eq (replace : Place → Node → Option Node) (field : FieldName)
    (items : List Value) (start : Nat) :
    rewriteItems replace field start items = items.mapIdx fun i item =>
      item.mapNode (rewriteIn replace ⟨field, some (start + i)⟩) := by
  induction items generalizing start with
  | nil => rfl
  | cons item items ih =>
      rw [rewriteItems, ih, List.mapIdx_cons]
      simp only [Nat.add_assoc, Nat.add_comm 1, Nat.add_zero]
      congr 1
      cases item <;> rfl

/-- Rewriting changes all children, and nothing else. -/
theorem rewrite_eq (replace : Place → Node → Option Node) (n : Node) :
    n.rewrite replace = n.mapSlots (rewriteIn replace) := by
  obtain ⟨type, fields⟩ := n
  refine congrArg (Node.mk type) ?_
  induction fields with
  | nil => rfl
  | cons field fields ih =>
      obtain ⟨name, value⟩ := field
      rw [rewriteFields, List.map_cons, ih]
      congr 2
      cases value with
      | node c => rfl
      | data json => rfl
      | list items =>
          refine congrArg Value.list ((rewriteItems_eq replace name items 0).trans ?_)
          simp only [Nat.zero_add]

@[simp]
theorem inSlot?_rewrite (replace : Place → Node → Option Node) (n : Node) (slot : Slot) :
    (n.rewrite replace).inSlot? slot = (n.inSlot? slot).map (rewriteIn replace slot) := by
  rw [rewrite_eq, inSlot?_mapSlots]

@[simp]
theorem at?_append (n : Node) (outer inner : Place) :
    n.at? (outer ++ inner) = (n.at? outer).bind fun m => m.at? inner := by
  induction outer generalizing n with
  | nil => rfl
  | cons slot outer ih =>
      rw [List.cons_append, at?, at?]
      cases n.inSlot? slot with
      | none => rfl
      | some c => exact ih c

@[simp]
theorem at?_concat (n : Node) (parent : Place) (slot : Slot) :
    n.at? (parent ++ [slot]) = (n.at? parent).bind fun m => m.inSlot? slot := by
  rw [at?_append]
  cases n.at? parent with
  | none => rfl
  | some m =>
      change (m.inSlot? slot).bind some = m.inSlot? slot
      cases m.inSlot? slot <;> rfl

theorem Sound.of_at? (sound : n.Sound) (found : n.at? place = some m) : m.Sound := by
  induction place generalizing n with
  | nil =>
      cases found
      exact sound
  | cons slot place ih =>
      obtain ⟨c, inSlot, below⟩ := Option.bind_eq_some_iff.mp found
      exact ih (sound.of_inSlot? inSlot) below

theorem sizeOf_inSlot? (found : n.inSlot? slot = some c) : sizeOf c < sizeOf n := by
  obtain ⟨value, held, picked⟩ := exists_held_of_inSlot? found
  have outer := sizeOf_field? held
  rcases Value.pick?_eq_some picked with ⟨-, rfl⟩ | ⟨i, items, -, rfl, itemEq⟩
  · simp only [Value.node.sizeOf_spec] at outer
    omega
  · have inner := List.sizeOf_lt_of_mem (List.mem_of_getElem? itemEq)
    simp only [Value.node.sizeOf_spec, Value.list.sizeOf_spec] at inner outer
    omega

/-- Nothing is replaced on the way down to a place, nor at the place itself. -/
def Kept (replace : Place → Node → Option Node) (n : Node) (place : Place) : Prop :=
  ∀ outer inner m, outer ≠ [] → place = outer ++ inner → n.at? outer = some m →
    replace outer m = none

theorem kept_nil : n.Kept replace [] := by
  intro outer inner m outerSome eq
  exact absurd (List.append_eq_nil_iff.mp eq.symm).1 outerSome

theorem Kept.here (kept : n.Kept replace (slot :: place)) (found : n.inSlot? slot = some c) :
    replace [slot] c = none := by
  refine kept [slot] place c (by simp) rfl ?_
  rw [at?, found]
  rfl

theorem Kept.below (kept : n.Kept replace (slot :: place)) (found : n.inSlot? slot = some c) :
    c.Kept (fun place => replace (slot :: place)) place := by
  intro outer inner m outerSome eq at?
  refine kept (slot :: outer) inner m (by simp) (by rw [eq]; rfl) ?_
  rw [Node.at?, found]
  exact at?

theorem kept_cons (found : n.inSlot? slot = some c) (here : replace [slot] c = none)
    (below : c.Kept (fun place => replace (slot :: place)) place) :
    n.Kept replace (slot :: place) := by
  intro outer inner m outerSome eq at?
  cases outer with
  | nil => exact absurd rfl outerSome
  | cons step outer =>
      obtain ⟨rfl, rfl⟩ := List.cons.inj eq
      rw [Node.at?, found, Option.bind_some] at at?
      cases outer with
      | nil =>
          cases at?
          exact here
      | cons next outer => exact below (next :: outer) inner m (by simp) rfl at?

theorem kept_concat {parent : Place} (kept : n.Kept replace parent)
    (here : ∀ c, n.at? (parent ++ [slot]) = some c → replace (parent ++ [slot]) c = none) :
    n.Kept replace (parent ++ [slot]) := by
  intro outer inner m outerSome eq at?
  rcases List.prefix_concat_iff.mp ⟨inner, eq.symm⟩ with rfl | ⟨rest, rfl⟩
  · exact here m at?
  · exact kept outer rest m outerSome rfl at?

/-- A node that is kept stands where it stood, with nodes below it replaced. -/
@[simp]
theorem at?_rewrite (kept : n.Kept replace place) :
    (n.rewrite replace).at? place =
      (n.at? place).map fun m => m.rewrite fun inner => replace (place ++ inner) := by
  induction place generalizing n replace with
  | nil => rfl
  | cons slot place ih =>
      rw [at?, at?, inSlot?_rewrite]
      cases found : n.inSlot? slot with
      | none => rfl
      | some c =>
          have step : rewriteIn replace slot c =
              c.rewrite fun place => replace (slot :: place) := by
            rw [rewriteIn, kept.here found]
            rfl
          rw [Option.map_some, Option.bind_some, Option.bind_some, step, ih (kept.below found)]
          rfl

/-- Where nothing is replaced above, replacements may be looked up in either of two ways that
agree. -/
theorem rewrite_congr (sound : n.Sound)
    (same : ∀ parent slot c, n.Kept replace parent → n.at? (parent ++ [slot]) = some c →
      replace (parent ++ [slot]) c = other (parent ++ [slot]) c) :
    n.rewrite replace = n.rewrite other := by
  induction sizeEq : sizeOf n using Nat.strong_induction_on generalizing n replace other with
  | _ size ih =>
      subst sizeEq
      rw [rewrite_eq, rewrite_eq]
      refine mapSlots_congr sound.layout.nodup fun slot c found => ?_
      have here := same [] slot c kept_nil (by rw [List.nil_append, at?, found]; rfl)
      rw [List.nil_append] at here
      rw [rewriteIn, rewriteIn, ← here]
      cases replaced : replace [slot] c with
      | some new => rfl
      | none =>
          refine ih _ (sizeOf_inSlot? found) (sound.of_inSlot? found) ?_ rfl
          intro parent step d kept at?
          refine same (slot :: parent) step d (kept_cons found replaced kept) ?_
          rw [List.cons_append, Node.at?, found]
          exact at?

/-- Where nothing is replaced, nothing changes. -/
theorem rewrite_of_forall_none (sound : n.Sound)
    (idle : ∀ place c, n.at? place = some c → replace place c = none) :
    n.rewrite replace = n := by
  induction sizeEq : sizeOf n using Nat.strong_induction_on generalizing n replace with
  | _ size ih =>
      subst sizeEq
      conv_rhs => rw [← mapSlots_id n]
      rw [rewrite_eq]
      refine mapSlots_congr sound.layout.nodup fun slot c found => ?_
      have below : ∀ place m, c.at? place = some m → n.at? (slot :: place) = some m := by
        intro place m at?
        rw [Node.at?, found]
        exact at?
      rw [rewriteIn, idle [slot] c (below [] c rfl), Option.getD_none]
      exact ih _ (sizeOf_inSlot? found) (sound.of_inSlot? found)
        (fun place m at? => idle (slot :: place) m (below place m at?)) rfl

/-- Filling a slot of a node that is kept replaces one more node. -/
theorem modifyAt_rewrite (sound : n.Sound) {parent : Place} (kept : n.Kept replace parent)
    (found : n.at? (parent ++ [slot]) = some c) (new : Node) :
    (n.rewrite replace).modifyAt (fun m => m.fill slot new) parent =
      n.rewrite fun place c => if place = parent ++ [slot] then some new else replace place c := by
  induction parent generalizing n replace with
  | nil =>
      obtain ⟨child, inSlot, -⟩ := Option.bind_eq_some_iff.mp found
      rw [modifyAt, rewrite_eq, rewrite_eq, fill_mapSlots sound.layout inSlot]
      refine mapSlots_congr sound.layout.nodup fun step d _ => ?_
      rw [rewriteIn, rewriteIn, List.nil_append]
      by_cases same : step = slot
      · rw [if_pos same, if_pos (by rw [same]), Option.getD_some]
      · have apart : ∀ place, ¬(step :: place = [slot]) := fun place eq =>
          same (List.cons.inj eq).1
        simp only [if_neg same, if_neg (apart _)]
  | cons step parent ih =>
      obtain ⟨child, inSlot, below⟩ := Option.bind_eq_some_iff.mp found
      have childEq : rewriteIn replace step child =
          child.rewrite fun place => replace (step :: place) := by
        rw [rewriteIn, kept.here inSlot]
        rfl
      rw [modifyAt, inSlot?_rewrite, inSlot, Option.map_some, childEq]
      dsimp only
      rw [ih (sound.of_inSlot? inSlot) (kept.below inSlot) below, rewrite_eq replace n,
        rewrite_eq _ n, fill_mapSlots sound.layout inSlot]
      refine mapSlots_congr sound.layout.nodup fun other d otherIn => ?_
      by_cases same : other = step
      · subst same
        obtain rfl : d = child := Option.some_inj.mp (otherIn.symm.trans inSlot)
        have notHere : ¬([other] = other :: parent ++ [slot]) := by simp
        rw [if_pos rfl, rewriteIn, if_neg notHere, kept.here inSlot, Option.getD_none]
        simp only [List.cons_append, List.cons.injEq, true_and]
      · have apart : ∀ place, ¬(other :: place = step :: parent ++ [slot]) := fun place eq =>
          same (List.cons.inj eq).1
        rw [if_neg same, rewriteIn, rewriteIn]
        simp only [if_neg (apart _)]

/-- What replaces a node stands where the node stood. -/
theorem at?_rewrite_of_replaced {parent : Place} {new : Node} (kept : n.Kept replace parent)
    (found : n.at? (parent ++ [slot]) = some c)
    (replaced : replace (parent ++ [slot]) c = some new) :
    (n.rewrite replace).at? (parent ++ [slot]) = some new := by
  rw [at?_concat] at found ⊢
  obtain ⟨holder, holderFound, inSlot⟩ := Option.bind_eq_some_iff.mp found
  rw [at?_rewrite kept, holderFound, Option.map_some, Option.bind_some, inSlot?_rewrite, inSlot,
    Option.map_some, rewriteIn, replaced, Option.getD_some]

/-- What stands in a rewritten tree either stood there before, with nothing replaced on the way
down to it, or stands in what replaced something. -/
theorem at?_rewrite_cases (found : (n.rewrite replace).at? place = some m) :
    (∃ original, n.at? place = some original ∧ n.Kept replace place ∧
        m = original.rewrite fun inner => replace (place ++ inner)) ∨
      ∃ outer inner original new, place = outer ++ inner ∧ n.at? outer = some original ∧
        replace outer original = some new ∧ new.at? inner = some m := by
  induction place generalizing n replace with
  | nil =>
      cases found
      exact .inl ⟨n, rfl, kept_nil, rfl⟩
  | cons slot place ih =>
      obtain ⟨child, inSlot, below⟩ := Option.bind_eq_some_iff.mp found
      rw [inSlot?_rewrite, Option.map_eq_some_iff] at inSlot
      obtain ⟨c, inSlot, rfl⟩ := inSlot
      cases replaced : replace [slot] c with
      | some new =>
          rw [rewriteIn, replaced, Option.getD_some] at below
          exact .inr ⟨[slot], place, c, new, rfl, by rw [at?, inSlot]; rfl, replaced, below⟩
      | none =>
          rw [rewriteIn, replaced, Option.getD_none] at below
          rcases ih below with
            ⟨original, at?, kept, eq⟩ | ⟨outer, inner, original, new, rfl, at?, rest⟩
          · exact .inl ⟨original, by rw [Node.at?, inSlot]; exact at?,
              kept_cons inSlot replaced kept, eq⟩
          · exact .inr ⟨slot :: outer, inner, original, new, rfl,
              by rw [Node.at?, inSlot]; exact at?, rest⟩

/-- Two substitutions, one after the other, replace in one go what either of them replaces, if the
second one does nothing to what the first one puts in, and the same to a node as to what the first
one leaves of it. -/
theorem substitute_substitute (sound : n.Sound) {first second : Node → Option Node}
    (putIn : ∀ place c new, n.at? place = some c → first c = some new →
      new.Sound ∧ ∀ inner m, new.at? inner = some m → second m = none)
    (left : ∀ place c, n.at? place = some c → first c = none →
      second (c.substitute first) = second c) :
    (n.substitute first).substitute second = n.substitute fun c => (first c).or (second c) := by
  induction sizeEq : sizeOf n using Nat.strong_induction_on generalizing n with
  | _ size ih =>
      subst sizeEq
      rw [substitute, substitute, substitute, rewrite_eq _ n, rewrite_eq, mapSlots_mapSlots,
        rewrite_eq]
      refine mapSlots_congr sound.layout.nodup fun slot c found => ?_
      have below : ∀ place m, c.at? place = some m → n.at? (slot :: place) = some m := by
        intro place m at?
        rw [Node.at?, found]
        exact at?
      rw [rewriteIn, rewriteIn, rewriteIn]
      cases replaced : first c with
      | some new =>
          obtain ⟨newSound, idle⟩ := putIn [slot] c new (below [] c rfl) replaced
          rw [Option.getD_some, Option.some_or, Option.getD_some, idle [] new rfl,
            Option.getD_none]
          exact rewrite_of_forall_none newSound idle
      | none =>
          have here := left [slot] c (below [] c rfl) replaced
          have inside := ih _ (sizeOf_inSlot? found) (sound.of_inSlot? found)
            (fun place m new at? => putIn (slot :: place) m new (below place m at?))
            (fun place m at? => left (slot :: place) m (below place m at?)) rfl
          rw [Option.getD_none, Option.none_or]
          exact congr (congrArg Option.getD here) inside

end Node

private theorem mem_itemPlaces {outer : Place} {field : FieldName} {items : List Value}
    {start i : Nat} {c : Node} {visited : Place × Node} (itemEq : items[i]? = some (.node c))
    (mem : visited ∈ c.places (outer ++ [⟨field, some (start + i)⟩])) :
    visited ∈ itemPlaces outer field start items := by
  induction items generalizing start i with
  | nil => cases itemEq
  | cons item items ih =>
      rw [itemPlaces]
      cases i with
      | zero =>
          obtain rfl := Option.some_inj.mp itemEq
          exact List.mem_append_left _ mem
      | succ i =>
          rw [← Nat.add_assoc, Nat.add_right_comm] at mem
          exact List.mem_append_right _ (ih itemEq mem)

theorem fieldPlaces_eq_flatMap (outer : Place) (fields : List (FieldName × Value)) :
    fieldPlaces outer fields = fields.flatMap fun field => field.2.places outer field.1 := by
  induction fields with
  | nil => rfl
  | cons field fields ih => rw [fieldPlaces, ih, List.flatMap_cons]

namespace Node

variable {n c m root : Node} {slot : Slot} {place outer : Place}

/-- The nodes below a child are visited as nodes below its parent. -/
theorem mem_places_of_inSlot? (found : n.inSlot? slot = some c) {visited : Place × Node}
    (mem : visited ∈ c.places (outer ++ [slot])) : visited ∈ n.places outer := by
  obtain ⟨value, fieldMem, picked⟩ := exists_mem_of_inSlot? found
  have inValue : visited ∈ value.places outer slot.field := by
    obtain ⟨field, index⟩ := slot
    rcases Value.pick?_eq_some picked with ⟨rfl, rfl⟩ | ⟨i, items, rfl, rfl, itemEq⟩
    · exact mem
    · rw [← Nat.zero_add i] at mem
      exact mem_itemPlaces itemEq mem
  obtain ⟨type, fields⟩ := n
  rw [Node.places, fieldPlaces_eq_flatMap]
  exact List.mem_cons_of_mem _ (List.mem_flatMap.mpr ⟨_, fieldMem, inValue⟩)

/-- Whatever is found at a place is visited there. -/
theorem mem_places_of_at? (outer : Place) (found : n.at? place = some m) :
    (outer ++ place, m) ∈ n.places outer := by
  induction place generalizing n outer with
  | nil =>
      obtain rfl := Option.some_inj.mp found
      obtain ⟨type, fields⟩ := n
      rw [List.append_nil, Node.places]
      exact List.mem_cons_self
  | cons slot place ih =>
      obtain ⟨c, inSlot, below⟩ := Option.bind_eq_some_iff.mp found
      have mem := ih (outer ++ [slot]) below
      rw [List.append_assoc, List.singleton_append] at mem
      exact mem_places_of_inSlot? inSlot mem

/-- The places of a sound tree are those where something is found. -/
theorem mem_places_iff (sound : root.Sound) :
    (place, m) ∈ root.places [] ↔ root.at? place = some m :=
  ⟨root.at?_of_mem sound, fun found => mem_places_of_at? [] found⟩

theorem mem_tree_of_at? (found : n.at? place = some m) : m ∈ n.tree := by
  rw [← n.map_snd_places []]
  exact List.mem_map_of_mem (mem_places_of_at? [] found)

end Node

end PropValidators.Ast
