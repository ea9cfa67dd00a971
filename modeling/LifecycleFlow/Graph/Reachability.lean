import LifecycleFlow.Graph.Basic

/-!
# Reachable states

The states that can be reached from a state, in depth-first order: each state stands before the
states first reached through it, and the successors of a state are entered in their order. They are
renamed all at once, so that copies of one fragment can stand in one graph. Main statement: the
search ends, since each state is entered at most once.
-/
namespace LifecycleFlow.Graph

/-- The number of states not yet entered. -/
def unseen (g : Graph) (seen : List StateId) : Nat :=
  ((List.range g.size).filter fun id => !seen.contains id).length

theorem unseen_append_lt {g : Graph} {seen : List StateId} {id : StateId} (h : id < g.size)
    (hs : seen.contains id = false) : g.unseen (seen ++ [id]) < g.unseen seen := by
  have hsplit : (List.range g.size).filter (fun i => !(seen ++ [id]).contains i) =
      ((List.range g.size).filter fun i => !seen.contains i).filter (· != id) := by
    rw [List.filter_filter]
    refine List.filter_congr fun i _ => ?_
    simp only [List.contains_append, List.contains_cons, List.contains_nil, Bool.or_false,
      Bool.not_or, bne]
    exact Bool.and_comm _ _
  rw [unseen, unseen, hsplit, List.length_filter_lt_length_iff_exists]
  exact ⟨id, by simpa [h] using hs, by simp⟩

/-- The states entered from the waiting ones, after those already seen. -/
def visit (g : Graph) (waiting seen : List StateId) : Except GraphError (List StateId) :=
  match waiting with
  | [] => .ok seen
  | id :: rest =>
    if seen.contains id then visit g rest seen
    else
      match _h : g.states[id]? with
      | none => .error (.unknownState id)
      | some s => visit g (s.successors ++ rest) (seen ++ [id])
  termination_by (g.unseen seen, waiting.length)
  decreasing_by
    · right
      simp
    · left
      rename_i hs
      obtain ⟨hlt, _⟩ := List.getElem?_eq_some_iff.1 _h
      exact unseen_append_lt hlt (by simpa using hs)

/-- The states that can be reached from a state, itself included, in depth-first order. -/
def reachable (g : Graph) (start : StateId) : Except GraphError (List StateId) :=
  g.visit [start] []

def isOpen (g : Graph) (id : StateId) : Bool :=
  (g.states[id]?).any State.isOpen

def reachableEnds (g : Graph) (start : StateId) : Except GraphError (List StateId) :=
  (g.reachable start).map fun ids => ids.filter g.isOpen

/-- A single state as a fragment: pass and task states end in themselves, a fail state nowhere, and
a choice wherever its branches may still be continued. -/
def fragment (g : Graph) (id : StateId) : Except GraphError Fragment := do
  let s ← g.state id
  match s.kind with
  | .pass _ => return ⟨id, [id]⟩
  | .task _ _ => return ⟨id, [id]⟩
  | .fail _ => return ⟨id, []⟩
  | .choice _ _ => return ⟨id, ← g.reachableEnds id⟩

def requireFree (g : Graph) (renamed : List StateId) (name : String) : Except GraphError Unit :=
  match g.find? name with
  | some owner => if renamed.contains owner then .ok () else .error (.duplicateStateName name)
  | none => .ok ()

def withoutNames (g : Graph) (ids : List StateId) : NameIndex :=
  (ids.filterMap (g.states[·]?)).foldl (fun names s => names.erase s.name) g.names

def withNames (g : Graph) (ids : List StateId) (front : String) (names : NameIndex) : NameIndex :=
  ids.foldl (fun names id =>
    match g.states[id]? with
    | some s => names.insert (front ++ s.name) id
    | none => names) names

/-- The graph with a text put before the names of some states. All old names leave the index before
the first new one is entered. -/
def withPrefixed (g : Graph) (ids : List StateId) (front : String) : Graph where
  states := g.states.mapIdx fun id s =>
    if ids.contains id then { s with name := front ++ s.name } else s
  names := g.withNames ids front (g.withoutNames ids)

/-- Puts a text before the names of all states reachable from a start. Nothing is renamed if a new
name belongs to another state. -/
def addPrefix (start : StateId) (front : String) : GraphOp Unit := do
  let g ← get
  let ids ← g.reachable start
  ids.forM fun id => do
    let s ← g.state id
    g.requireFree ids (front ++ s.name)
  set (g.withPrefixed ids front)

end LifecycleFlow.Graph
