import PropValidators.CallSites
import PropValidators.Proofs.CallSites.InSight
import PropValidators.Proofs.CallSites.Settings
import PropValidators.Proofs.Outcomes

/-!
# Replacing calls one after the other

The calls of a function are replaced in the order in which they were found.  Whatever has been done,
the module is the one before with some calls rewritten, the places that are still in it are those
above which nothing was replaced, and the declarations in sight are what they were.  So a call that
is found inside a replaced one leaves no trace, and in the end all calls are replaced that do not
stand inside others.
-/

namespace PropValidators

open Ast Node

/-- What replaces the calls at some places. -/
def replaceAt (replacement? : Node → Option Node) (places : List Place) (place : Place)
    (c : Node) : Option Node :=
  if place ∈ places then replacement? c else none

/-- The replacements that were made for the calls at some sites.  Each of them is that of a call,
every call that has a replacement is covered by one of them, and no call lies in a part that is
reused. -/
structure Moved (root : Node) (callee : String) (replacement? : Node → Option Node)
    (done : List CallSite) (moves : List Replacement) : Prop where
  made : ∀ move ∈ moves, ∃ site ∈ done, move.target = site.place ∧
    (replacement? site.call).isSome = true
  covers : ∀ site ∈ done, (replacement? site.call).isSome = true →
    ∃ move ∈ moves, move.target <+: site.place
  clear : ∀ move ∈ moves, ∀ site ∈ root.findCalls callee, move.Clear site.place

/-- A workspace after the calls at some sites were replaced. -/
structure Replaced (before : Workspace) (callee : String) (replacement? : Node → Option Node)
    (done : List CallSite) (workspace : Workspace) (moves : List Replacement) : Prop where
  moved : Moved before.root callee replacement? done moves
  root : workspace.root =
    before.root.rewrite (replaceAt replacement? (done.map CallSite.place))
  options : workspace.options = before.options
  registry : workspace.registry = before.registry
  steady : workspace.Steady

theorem Replaced.context {before workspace : Workspace} {callee : String}
    {replacement? : Node → Option Node} {done : List CallSite} {moves : List Replacement}
    (replaced : Replaced before callee replacement? done workspace moves) :
    workspace.context = before.context := by
  rw [Workspace.context, Workspace.context, replaced.registry, replaced.options]

section

variable {before workspace : Workspace} {replacement? : Node → Option Node} {callee : String}
  {done sites : List CallSite} {moves : List Replacement} {site : CallSite} {place : Place}

/-! ## Places that are kept -/

private theorem replaceAt_of_mem (mem : site ∈ done) :
    replaceAt replacement? (done.map CallSite.place) site.place site.call =
      replacement? site.call :=
  if_pos (List.mem_map_of_mem mem)

/-- The places that are kept are those that no replacement covers. -/
theorem Moved.kept_iff {root : Node} (moved : Moved root callee replacement? done moves)
    (found : ∀ site ∈ done, root.at? site.place = some site.call) (place : Place) :
    root.Kept (replaceAt replacement? (done.map CallSite.place)) place ↔
      ∀ move ∈ moves, ¬move.target <+: place := by
  constructor
  · rintro kept move mem ⟨rest, rfl⟩
    obtain ⟨site, siteMem, targetEq, isSome⟩ := moved.made move mem
    have unreplaced := kept site.place rest site.call site.place_ne_nil (by rw [targetEq])
      (found site siteMem)
    rw [replaceAt_of_mem siteMem] at unreplaced
    rw [unreplaced] at isSome
    cases isSome
  · intro uncovered outer inner m _ eq at?
    by_cases visited : outer ∈ done.map CallSite.place
    · obtain ⟨site, siteMem, rfl⟩ := List.mem_map.mp visited
      obtain rfl : m = site.call := Option.some_inj.mp (at?.symm.trans (found site siteMem))
      rw [replaceAt_of_mem siteMem, ← Option.not_isSome_iff_eq_none]
      intro isSome
      obtain ⟨move, moveMem, covered⟩ := moved.covers site siteMem isSome
      exact uncovered move moveMem (covered.trans ⟨inner, eq.symm⟩)
    · exact if_neg visited

/-- One more site makes no difference if its call has no replacement or stands inside a replaced
one. -/
theorem rewrite_replaceAt_concat {root : Node} (sound : root.Sound)
    (found : root.at? site.place = some site.call)
    (idle : root.Kept (replaceAt replacement? (done.map CallSite.place)) site.parent →
      replacement? site.call = none) :
    root.rewrite (replaceAt replacement? (done.map CallSite.place)) =
      root.rewrite (replaceAt replacement? ((done ++ [site]).map CallSite.place)) := by
  refine rewrite_congr sound fun parent slot c kept at? => ?_
  rw [replaceAt, replaceAt, List.map_append, List.map_singleton]
  by_cases here : parent ++ [slot] = site.place
  · obtain ⟨rfl, -⟩ := List.append_inj' here rfl
    rw [here, found] at at?
    obtain rfl := Option.some_inj.mp at?
    rw [idle kept]
    split <;> split <;> rfl
  · simp only [List.mem_append, List.mem_singleton, here, or_false]

/-- One more replacement rewrites one more call. -/
theorem modifyAt_replaceAt {root new : Node} (sound : root.Sound)
    (found : root.at? site.place = some site.call)
    (kept : root.Kept (replaceAt replacement? (done.map CallSite.place)) site.parent)
    (newEq : replacement? site.call = some new) :
    (root.rewrite (replaceAt replacement? (done.map CallSite.place))).modifyAt
        (fun n => n.fill site.slot new) site.parent =
      root.rewrite (replaceAt replacement? ((done ++ [site]).map CallSite.place)) := by
  refine (modifyAt_rewrite sound kept found new).trans (rewrite_congr sound ?_)
  intro parent slot c _ at?
  change (if parent ++ [slot] = site.place then _ else _) = _
  rw [replaceAt, replaceAt, List.map_append, List.map_singleton]
  by_cases here : parent ++ [slot] = site.place
  · rw [here, found] at at?
    obtain rfl := Option.some_inj.mp at?
    rw [if_pos here, if_pos (by simp [here]), newEq]
  · rw [if_neg here]
    simp only [List.mem_append, List.mem_singleton, here, or_false]

/-! ## What is read off calls -/

/-- The replacement of a call. -/
def Ast.CallSite.move (site : CallSite) (reused : Option (Place × Place)) : Replacement :=
  { parent := site.parent, slot := site.slot, reused }

/-- What is read off the calls of a function gives their replacements.  If a part of a call is
reused, then it is a child, and no other call of the function is in it. -/
structure Reads {α : Type} (before : Workspace) (callee : String)
    (read : Node → Except Fault (Option (Expansion α))) (replacement? : Node → Option Node) :
    Prop where
  calls : ∀ c r, replacement? c = some r → c.calls callee = true
  agrees : ∀ c found, c.calls callee = true → read c = .ok found →
    replacement? c = found.map Expansion.node
  plain : ∀ c r, c.Sound → replacement? c = some r → r.Plain
  settled : ∀ c r, c.Sound → c.Settled → replacement? c = some r → r.Settled
  reuses : ∀ c expansion, c.Sound → c.calls callee = true → read c = .ok (some expansion) →
    ∀ old inner, expansion.reused = some (old, inner) →
      ∃ slot part, old = [slot] ∧ c.inSlot? slot = some part ∧
        expansion.node.at? inner = some part
  clear : ∀ site ∈ before.root.findCalls callee, ∀ expansion,
    read site.call = .ok (some expansion) →
      ∀ other ∈ before.root.findCalls callee, (site.move expansion.reused).Clear other.place

/-- Calls are expanded by what is read off them, whichever of them were replaced before. -/
def Follows {α : Type} (before : Workspace) (callee : String)
    (read : Node → Except Fault (Option (Expansion α))) (replacement? : Node → Option Node)
    (expand : Workspace → Node → Traced (Option (Expansion α))) : Prop :=
  ∀ done workspace moves, Replaced before callee replacement? done workspace moves →
    ∀ site ∈ before.root.findCalls callee, (expand workspace site.call).outcome = read site.call

section Reads

variable {α : Type} {read : Node → Except Fault (Option (Expansion α))}

theorem Reads.expands (reads : Reads before callee read replacement?) {root : Node}
    (sound : root.Sound) : root.Expands fun _ => replacement? :=
  fun _ c r at? replaced => ⟨kind_of_calls (reads.calls c r replaced),
    reads.plain c r (sound.of_at? at?) replaced⟩

theorem Reads.expandsAt (reads : Reads before callee read replacement?) {root : Node}
    (sound : root.Sound) (places : List Place) : root.Expands (replaceAt replacement? places) := by
  intro place c r at? replaced
  rw [replaceAt] at replaced
  split at replaced
  · exact reads.expands sound place c r at? replaced
  · cases replaced

end Reads

/-! ## One site -/

theorem Moved.pass {root : Node} (moved : Moved root callee replacement? done moves)
    (covered : (replacement? site.call).isSome = true →
      ∃ move ∈ moves, move.target <+: site.place) :
    Moved root callee replacement? (done ++ [site]) moves where
  made move mem := by
    obtain ⟨other, otherMem, rest⟩ := moved.made move mem
    exact ⟨other, List.mem_append_left _ otherMem, rest⟩
  covers := by
    rw [List.forall_mem_append, List.forall_mem_singleton]
    exact ⟨moved.covers, covered⟩
  clear := moved.clear

theorem Moved.put {root : Node} (moved : Moved root callee replacement? done moves)
    (isSome : (replacement? site.call).isSome = true) {reused : Option (Place × Place)}
    (clear : ∀ other ∈ root.findCalls callee, (site.move reused).Clear other.place) :
    Moved root callee replacement? (done ++ [site]) (moves ++ [site.move reused]) where
  made := by
    rw [List.forall_mem_append, List.forall_mem_singleton]
    refine ⟨fun move mem => ?_, site, by simp, rfl, isSome⟩
    obtain ⟨other, otherMem, rest⟩ := moved.made move mem
    exact ⟨other, List.mem_append_left _ otherMem, rest⟩
  covers := by
    rw [List.forall_mem_append, List.forall_mem_singleton]
    refine ⟨fun other mem isSome => ?_, fun _ => ⟨site.move reused, by simp, List.prefix_rfl⟩⟩
    obtain ⟨earlier, earlierMem, covers⟩ := moved.covers other mem isSome
    exact ⟨earlier, List.mem_append_left _ earlierMem, covers⟩
  clear := by
    rw [List.forall_mem_append, List.forall_mem_singleton]
    exact ⟨moved.clear, clear⟩

/-- A site is passed over if its call has no replacement or stands inside a replaced one. -/
theorem Replaced.pass (steady : before.Steady)
    (replaced : Replaced before callee replacement? done workspace moves)
    (found : before.root.at? site.place = some site.call)
    (idle : before.root.Kept (replaceAt replacement? (done.map CallSite.place)) site.parent →
      replacement? site.call = none)
    (covered : (replacement? site.call).isSome = true →
      ∃ move ∈ moves, move.target <+: site.place) :
    Replaced before callee replacement? (done ++ [site]) workspace moves where
  moved := replaced.moved.pass covered
  root := replaced.root.trans (rewrite_replaceAt_concat steady.sound found idle)
  options := replaced.options
  registry := replaced.registry
  steady := replaced.steady

/-- A child of a call stays as it is if no other call is at its place or below. -/
theorem rewriteIn_of_clear (steady : before.Steady)
    (every : ∀ other ∈ done, other ∈ before.root.findCalls callee)
    (found : before.root.at? site.place = some site.call) {slot : Slot} {part : Node}
    (inSlot : site.call.inSlot? slot = some part)
    (clear : ∀ other ∈ before.root.findCalls callee, ¬site.place ++ [slot] <+: other.place) :
    rewriteIn (fun inner => replaceAt replacement? (done.map CallSite.place) (site.place ++ inner))
      slot part = part := by
  have sound := (steady.sound.of_at? found).of_inSlot? inSlot
  have idle : ∀ inner c, replaceAt replacement? (done.map CallSite.place)
      (site.place ++ slot :: inner) c = none := by
    intro inner c
    refine if_neg fun mem => ?_
    obtain ⟨other, otherMem, placeEq⟩ := List.mem_map.mp mem
    refine clear other (every other otherMem) ?_
    rw [placeEq, List.prefix_append_right_inj, List.cons_prefix_cons]
    exact ⟨rfl, List.nil_prefix⟩
  rw [rewriteIn, idle [] part, Option.getD_none]
  exact rewrite_of_forall_none sound fun inner c _ => idle inner c

section Put

variable {α : Type} {read : Node → Except Fault (Option (Expansion α))} {expansion : Expansion α}

/-- A call above which nothing was replaced can be replaced by what is read off it. -/
theorem Replaced.exists_replaceable (steady : before.Steady)
    (reads : Reads before callee read replacement?)
    (replaced : Replaced before callee replacement? done workspace moves)
    (every : ∀ other ∈ done ++ [site], other ∈ before.root.findCalls callee)
    (fresh : site.place ∉ done.map CallSite.place)
    (kept : before.root.Kept (replaceAt replacement? (done.map CallSite.place)) site.parent)
    (readEq : read site.call = .ok (some expansion)) :
    ∃ c, workspace.root.at? site.place = some c ∧
      Replaceable (site.move expansion.reused) c expansion.node := by
  have siteMem := every site (List.mem_append_right _ (List.mem_singleton_self site))
  have everyDone := fun other mem => every other (List.mem_append_left _ mem)
  have found := at?_place_of_mem steady.sound siteMem
  have calls := calls_of_mem steady.sound siteMem
  have sound := steady.sound.of_at? found
  have newEq := reads.agrees site.call _ calls readEq
  have settled : site.call.Settled := fun m mem =>
    steady.settled m (mem_tree_trans (mem_tree_of_at? found) mem)
  have keptHere : before.root.Kept (replaceAt replacement? (done.map CallSite.place))
      site.place := kept_concat kept fun c _ => if_neg fresh
  refine ⟨_, by rw [replaced.root, at?_rewrite keptHere, found, Option.map_some], ?_⟩
  refine
    { isCall := ?_
      plain := reads.plain _ _ sound newEq
      settled := reads.settled _ _ sound settled newEq
      reuses := ?_ }
  · rw [rewrite_eq, kind_mapSlots]
    exact kind_of_calls calls
  · intro old inner reused
    obtain ⟨slot, part, rfl, inSlot, inNew⟩ := reads.reuses _ _ sound calls readEq old inner reused
    have apart := fun other mem => reads.clear site siteMem expansion readEq other mem _ _ reused
    refine ⟨part, ?_, inNew⟩
    rw [at?, inSlot?_rewrite, inSlot, Option.map_some,
      rewriteIn_of_clear steady everyDone found inSlot apart]
    rfl

/-- A call that does not stand inside a replaced one is replaced in its place. -/
theorem Replaced.put (steady : before.Steady) (reads : Reads before callee read replacement?)
    (replaced : Replaced before callee replacement? done workspace moves)
    (every : ∀ other ∈ done ++ [site], other ∈ before.root.findCalls callee)
    (fresh : site.place ∉ done.map CallSite.place)
    (kept : before.root.Kept (replaceAt replacement? (done.map CallSite.place)) site.parent)
    (readEq : read site.call = .ok (some expansion)) :
    Replaced before callee replacement? (done ++ [site])
      (workspace.replace (site.move expansion.reused) expansion.node)
      (moves ++ [site.move expansion.reused]) := by
  have siteMem := every site (List.mem_append_right _ (List.mem_singleton_self site))
  have found := at?_place_of_mem steady.sound siteMem
  have newEq := reads.agrees site.call _ (calls_of_mem steady.sound siteMem) readEq
  obtain ⟨c, here, replaceable⟩ :=
    replaced.exists_replaceable steady reads every fresh kept readEq
  have target : workspace.root.at? (site.move expansion.reused).target = some c := here
  obtain ⟨steadyAfter, registryEq⟩ := replaced.steady.replace target replaceable
  refine
    { moved := replaced.moved.put (by rw [newEq]; rfl) (reads.clear site siteMem _ readEq)
      root := ?_
      options := replaced.options
      registry := registryEq.trans replaced.registry
      steady := steadyAfter }
  rw [← modifyAt_replaceAt steady.sound found kept newEq, ← replaced.root]
  rfl

end Put

/-! ## All sites -/

section Steps

variable {α : Type} {expand : Workspace → Node → Traced (Option (Expansion α))}

private theorem expandSites_of_error (moves : List Replacement) (sites : List CallSite)
    {fault : Fault} (attempt : (expand workspace site.call).outcome = .error fault) :
    (expandSites expand workspace moves (site :: sites)).workspace = workspace ∧
      (expandSites expand workspace moves (site :: sites)).reports.outcome = .error fault := by
  rw [expandSites]
  dsimp only
  rw [attempt]
  exact ⟨rfl, rfl⟩

theorem expandSites_of_none (moves : List Replacement) (sites : List CallSite)
    (attempt : (expand workspace site.call).outcome = .ok none) :
    (expandSites expand workspace moves (site :: sites)).workspace =
        (expandSites expand workspace moves sites).workspace ∧
      (expandSites expand workspace moves (site :: sites)).reports.outcome =
        (expandSites expand workspace moves sites).reports.outcome := by
  rw [expandSites]
  dsimp only
  rw [attempt]
  dsimp only
  rw [Traced.outcome_bind, attempt]
  exact ⟨rfl, rfl⟩

/-- Whether a notice is given makes no difference for the reports. -/
theorem outcome_reported (notice : Option Notice) (report : α) (t : Traced (List α)) :
    (do
      notice.forM Traced.note
      let reports ← t
      return report :: reports : Traced (List α)).outcome =
        t.outcome.map fun reports => report :: reports := by
  obtain ⟨outcome, trace⟩ := t
  cases notice <;> cases outcome <;> rfl

theorem expandSites_of_some (moves : List Replacement) (sites : List CallSite)
    {expansion : Expansion α}
    (attempt : (expand workspace site.call).outcome = .ok (some expansion))
    (written : site.writtenSlot = .ok site.slot) :
    let rest :=
      match moves.foldlM (fun place move => move.relocate place) site.parent with
      | none => expandSites expand workspace moves sites
      | some parent =>
          let move : Replacement := { parent, slot := site.slot, reused := expansion.reused }
          expandSites expand (workspace.replace move expansion.node) (moves ++ [move]) sites
    (expandSites expand workspace moves (site :: sites)).workspace = rest.workspace ∧
      (expandSites expand workspace moves (site :: sites)).reports.outcome =
        rest.reports.outcome.map fun reports => expansion.report :: reports := by
  rw [expandSites]
  dsimp only
  rw [attempt]
  dsimp only
  rw [written]
  dsimp only
  rw [Traced.outcome_bind, attempt]
  exact ⟨rfl, outcome_reported _ _ _⟩

end Steps

section Run

variable {α : Type} {read : Node → Except Fault (Option (Expansion α))}
  {expand : Workspace → Node → Traced (Option (Expansion α))}

/-- At the site of a call with a replacement one more call has been dealt with. -/
theorem exists_replaced_of_some (steady : before.Steady)
    (reads : Reads before callee read replacement?)
    (replaced : Replaced before callee replacement? done workspace moves)
    (sites : List CallSite) (every : ∀ other ∈ done ++ [site], other ∈ before.root.findCalls callee)
    (fresh : site.place ∉ done.map CallSite.place) {expansion : Expansion α}
    (readEq : read site.call = .ok (some expansion))
    (attempt : (expand workspace site.call).outcome = .ok (some expansion)) :
    ∃ after movesAfter, Replaced before callee replacement? (done ++ [site]) after movesAfter ∧
      (expandSites expand workspace moves (site :: sites)).workspace =
        (expandSites expand after movesAfter sites).workspace ∧
      (expandSites expand workspace moves (site :: sites)).reports.outcome =
        (expandSites expand after movesAfter sites).reports.outcome.map
          fun reports => expansion.report :: reports := by
  have siteMem := every site (List.mem_append_right _ (List.mem_singleton_self site))
  have found := fun other mem => at?_place_of_mem steady.sound (every other mem)
  have foundDone := fun other mem => found other (List.mem_append_left _ mem)
  have foundHere := at?_place_of_mem steady.sound siteMem
  have parentFound := ((mem_findCalls_iff steady.sound).mp siteMem).1
  have targets : ∀ move ∈ moves, ∃ c, before.root.at? move.target = some c := by
    intro move mem
    obtain ⟨other, otherMem, targetEq, -⟩ := replaced.moved.made move mem
    exact ⟨other.call, targetEq ▸ foundDone other otherMem⟩
  have keptIff := replaced.moved.kept_iff foundDone site.parent
  have step := expandSites_of_some moves sites attempt
    (writtenSlot_of_mem steady.sound steady.tidy siteMem)
  have clear : ∀ move ∈ moves, move.Clear site.parent := fun move mem =>
    (replaced.moved.clear move mem site siteMem).of_above (List.prefix_append _ _)
  rw [foldlM_relocate_of_at? clear targets parentFound] at step
  by_cases lost : ∃ move ∈ moves, move.target <+: site.parent
  · rw [if_pos lost] at step
    refine ⟨workspace, moves, replaced.pass steady foundHere ?idle ?covered, step⟩
    case idle =>
      intro kept
      obtain ⟨move, mem, covers⟩ := lost
      exact absurd covers (keptIff.mp kept move mem)
    case covered =>
      intro _
      obtain ⟨move, mem, covers⟩ := lost
      exact ⟨move, mem, covers.trans (List.prefix_append _ _)⟩
  · rw [if_neg lost] at step
    have kept := keptIff.mpr fun move mem covers => lost ⟨move, mem, covers⟩
    exact ⟨_, _, replaced.put steady reads every fresh kept readEq, step⟩

/-- Whatever is read off the call at a site, one more call has been dealt with. -/
theorem exists_replaced_step (steady : before.Steady)
    (reads : Reads before callee read replacement?)
    (follows : Follows before callee read replacement? expand)
    (replaced : Replaced before callee replacement? done workspace moves) (sites : List CallSite)
    (every : ∀ other ∈ done ++ [site], other ∈ before.root.findCalls callee)
    (fresh : site.place ∉ done.map CallSite.place)
    {found : Option (Expansion α)} (readEq : read site.call = .ok found) :
    ∃ after movesAfter, Replaced before callee replacement? (done ++ [site]) after movesAfter ∧
      (expandSites expand workspace moves (site :: sites)).workspace =
        (expandSites expand after movesAfter sites).workspace ∧
      (expandSites expand workspace moves (site :: sites)).reports.outcome =
        (expandSites expand after movesAfter sites).reports.outcome.map
          fun reports => (found.map Expansion.report).toList ++ reports := by
  have siteMem := every site (List.mem_append_right done (List.mem_singleton_self site))
  have replacementEq := reads.agrees site.call found (calls_of_mem steady.sound siteMem) readEq
  have attempt := (follows done workspace moves replaced site siteMem).trans readEq
  cases found with
  | none =>
      obtain ⟨workspaceEq, outcomeEq⟩ := expandSites_of_none moves sites attempt
      have none : replacement? site.call = none := replacementEq
      refine ⟨workspace, moves, replaced.pass steady (at?_place_of_mem steady.sound siteMem)
        (fun _ => none) ?_, workspaceEq, ?_⟩
      · rw [none]
        exact fun isSome => nomatch isSome
      · rw [outcomeEq]
        cases (expandSites expand workspace moves sites).reports.outcome <;> rfl
  | some expansion =>
      exact exists_replaced_of_some steady reads replaced sites every fresh readEq attempt

/-- The calls at the remaining sites are read one after the other, and those with a replacement are
reported.  As far as they can be read, they are replaced, and if all can be read, then all are. -/
theorem expandSites_run (steady : before.Steady) (reads : Reads before callee read replacement?)
    (follows : Follows before callee read replacement? expand)
    (all : done ++ sites = before.root.findCalls callee)
    (replaced : Replaced before callee replacement? done workspace moves) :
    let run := expandSites expand workspace moves sites
    run.reports.outcome =
        (sites.mapM fun site => read site.call).map
          (List.filterMap (Option.map Expansion.report)) ∧
      ∃ visited rest moves, visited ++ rest = done ++ sites ∧
        (∀ reports, run.reports.outcome = .ok reports → rest = []) ∧
        Replaced before callee replacement? visited run.workspace moves := by
  induction sites generalizing done workspace moves with
  | nil => exact ⟨rfl, done, [], moves, rfl, fun _ _ => rfl, replaced⟩
  | cons site sites ih =>
      have appendEq : done ++ site :: sites = (done ++ [site]) ++ sites := by simp
      rw [appendEq] at all
      have every : ∀ other ∈ done ++ [site], other ∈ before.root.findCalls callee :=
        fun other mem => all ▸ List.mem_append_left _ mem
      have fresh : site.place ∉ done.map CallSite.place := by
        have nodup := nodup_findCalls steady.sound callee
        rw [← all, List.map_append, List.map_append, List.map_singleton] at nodup
        intro mem
        exact (List.nodup_append.mp (List.nodup_append.mp nodup).1).2.2 _ mem _
          (List.mem_singleton_self _) rfl
      rw [List.mapM_cons]
      cases readEq : read site.call with
      | error fault =>
          have siteMem := every site (List.mem_append_right _ (List.mem_singleton_self site))
          have attempt := (follows done workspace moves replaced site siteMem).trans readEq
          obtain ⟨workspaceEq, outcomeEq⟩ := expandSites_of_error moves sites attempt
          dsimp only
          rw [workspaceEq, outcomeEq]
          exact ⟨rfl, done, site :: sites, moves, rfl, (fun _ absurd => nomatch absurd), replaced⟩
      | ok found =>
          obtain ⟨after, movesAfter, next, workspaceEq, outcomeEq⟩ :=
            exists_replaced_step steady reads follows replaced sites every fresh readEq
          obtain ⟨restEq, visited, rest, movesLast, visitedEq, complete, replacedLast⟩ :=
            ih all next
          dsimp only
          rw [workspaceEq, outcomeEq, appendEq]
          refine ⟨?_, visited, rest, movesLast, visitedEq, fun reports returned => ?_, replacedLast⟩
          · rw [restEq]
            cases found <;> cases sites.mapM fun site => read site.call <;> rfl
          · obtain ⟨others, othersEq, -⟩ := map_eq_ok.mp returned
            exact complete others othersEq

/-- Nothing has been replaced at first. -/
theorem replaced_nil (steady : before.Steady) :
    Replaced before callee replacement? [] before [] where
  moved := ⟨by simp, by simp, by simp⟩
  root := (rewrite_of_forall_none steady.sound fun _ _ _ => rfl).symm
  options := rfl
  registry := rfl
  steady := steady

/-- When all calls were dealt with, those are replaced that do not stand inside others. -/
theorem Replaced.root_eq_substitute (steady : before.Steady)
    (reads : Reads before callee read replacement?)
    (replaced : Replaced before callee replacement? (before.root.findCalls callee) workspace
      moves) :
    workspace.root = before.root.substitute replacement? := by
  rw [replaced.root]
  refine rewrite_congr steady.sound fun parent slot c _ at? => ?_
  rw [replaceAt]
  split
  · rfl
  · rename_i unvisited
    cases replacementEq : replacement? c with
    | none => rfl
    | some r =>
        obtain ⟨site, mem, placeEq, -⟩ :=
          exists_site_of_at? steady.sound at? (reads.calls c r replacementEq)
        exact absurd (placeEq ▸ List.mem_map_of_mem mem) unvisited

/-! ## Running again -/

/-- Where no call has a replacement, nothing happens. -/
theorem expandSites_of_forall_none (moves : List Replacement)
    (idle : ∀ site ∈ sites, (expand workspace site.call).outcome = .ok none) :
    (expandSites expand workspace moves sites).workspace = workspace ∧
      (expandSites expand workspace moves sites).reports.outcome = .ok [] := by
  induction sites with
  | nil => exact ⟨rfl, rfl⟩
  | cons site sites ih =>
      rw [List.forall_mem_cons] at idle
      obtain ⟨workspaceEq, outcomeEq⟩ := expandSites_of_none moves sites idle.1
      rw [workspaceEq, outcomeEq]
      exact ih idle.2

/-- A call, be it of the same function or of another one, that is still there after a substitution
was there before, and had no replacement. -/
theorem exists_call_of_substitute {root : Node} (sound : root.Sound)
    (reads : Reads before callee read replacement?) {other : String}
    (nameless : ∀ c r, replacement? c = some r → ∀ m ∈ r.tree, m.calls other = false)
    {parent : Place} {slot : Slot} {m : Node}
    (found : (root.substitute replacement?).at? (parent ++ [slot]) = some m)
    (calls : m.calls other = true) :
    ∃ original, root.at? (parent ++ [slot]) = some original ∧
      m = original.substitute replacement? ∧ replacement? original = none ∧
      original.calls other = true := by
  rcases at?_rewrite_cases found with
    ⟨original, at?, kept, rfl⟩ | ⟨_, inner, c, new, _, _, newEq, at?⟩
  · refine ⟨original, at?, rfl, kept (parent ++ [slot]) [] original (by simp) (by simp) at?, ?_⟩
    have expands := reads.expands (sound.of_at? at?)
    rw [rewrite_eq, calls_mapSlots fun slot c inSlot => expanded_rewriteIn expands inSlot] at calls
    exact calls
  · rw [nameless c new newEq m (mem_tree_of_at? at?)] at calls
    cases calls

end Run

end

end PropValidators
