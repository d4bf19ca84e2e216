import ParseView.Tree.Builder

/-! Runs of a builder. A step that fails leaves a builder too, and the run goes on with it. A run
in which no step fails reads the events of the tree that it builds, and no others. -/

namespace ParseView

namespace OpenNode

def tree (node : OpenNode) : Tree :=
  .node node.label node.children.reverse

def adopt (child : Tree) (node : OpenNode) : OpenNode :=
  { node with children := child :: node.children }

def events (node : OpenNode) : List TreeEvent :=
  .start node.label :: Tree.forestEvents node.children.reverse

end OpenNode

namespace Tree

theorem forestEvents_append (first second : List Tree) :
    forestEvents (first ++ second) = forestEvents first ++ forestEvents second := by
  induction first with
  | nil => simp [forestEvents]
  | cons tree rest ih => simp [forestEvents, ih]

end Tree

namespace OpenNode

theorem events_adopt (child : Tree) (node : OpenNode) :
    (node.adopt child).events = node.events ++ child.events := by
  simp [events, adopt, Tree.forestEvents_append, Tree.forestEvents]

theorem events_tree (node : OpenNode) : node.tree.events = node.events ++ [.finish] := by
  simp [events, tree, Tree.events]

end OpenNode

namespace Builder

/-- All that a step can do: `Transition builder event outcome next`. -/
inductive Transition : Builder → TreeEvent → Except Misuse Unit → Builder → Prop
  | start {opened root label} :
      Transition ⟨opened, root⟩ (.start label) (.ok ()) ⟨⟨label, []⟩ :: opened, root⟩
  | innerLeaf {parent outer root matched} :
      Transition ⟨parent :: outer, root⟩ (.leaf matched) (.ok ())
        ⟨parent.adopt (.leaf matched) :: outer, root⟩
  | firstLeaf {matched} :
      Transition ⟨[], none⟩ (.leaf matched) (.ok ()) ⟨[], some (.leaf matched)⟩
  | laterLeaf {tree matched} :
      Transition ⟨[], some tree⟩ (.leaf matched) (.error .secondRoot) ⟨[], some tree⟩
  | innerEnd {node parent outer root} :
      Transition ⟨node :: parent :: outer, root⟩ .finish (.ok ())
        ⟨parent.adopt node.tree :: outer, root⟩
  | firstEnd {node} : Transition ⟨[node], none⟩ .finish (.ok ()) ⟨[], some node.tree⟩
  | laterEnd {node tree} :
      Transition ⟨[node], some tree⟩ .finish (.error .secondRoot) ⟨[], some tree⟩
  | strayEnd {root} : Transition ⟨[], root⟩ .finish (.error .noOpenNode) ⟨[], root⟩

theorem transition_apply (builder : Builder) (event : TreeEvent) :
    Transition builder event (builder.apply event).1 (builder.apply event).2 := by
  obtain ⟨opened, root⟩ := builder
  cases event with
  | start label => exact .start
  | leaf matched =>
      cases opened with
      | cons parent outer => exact .innerLeaf
      | nil =>
          cases root with
          | none => exact .firstLeaf
          | some tree => exact .laterLeaf
  | finish =>
      match opened, root with
      | [], _ => exact .strayEnd
      | [_], none => exact .firstEnd
      | [_], some _ => exact .laterEnd
      | _ :: _ :: _, _ => exact .innerEnd

theorem Transition.apply_eq {builder next : Builder} {event : TreeEvent}
    {outcome : Except Misuse Unit} (step : Transition builder event outcome next) :
    builder.apply event = (outcome, next) := by
  cases step <;> rfl

def after (builder : Builder) (events : List TreeEvent) : Builder :=
  events.foldl (fun builder event => (builder.apply event).2) builder

def outcomes (builder : Builder) : List TreeEvent → List (Except Misuse Unit)
  | [] => []
  | event :: rest => (builder.apply event).1 :: outcomes (builder.apply event).2 rest

@[simp] theorem after_nil (builder : Builder) : builder.after [] = builder := rfl

@[simp] theorem after_cons (builder : Builder) (event : TreeEvent) (rest : List TreeEvent) :
    builder.after (event :: rest) = (builder.apply event).2.after rest := rfl

@[simp] theorem after_append (builder : Builder) (first second : List TreeEvent) :
    builder.after (first ++ second) = (builder.after first).after second := by
  simp [after]

structure Drives (builder : Builder) (events : List TreeEvent) (reached : Builder) : Prop where
  succeeds : ∀ outcome ∈ builder.outcomes events, outcome = .ok ()
  reaches : builder.after events = reached

namespace Drives

variable {builder middle reached : Builder} {event : TreeEvent} {first second : List TreeEvent}

theorem nil : Drives builder [] builder :=
  ⟨by simp [outcomes], rfl⟩

theorem cons_iff : Drives builder (event :: second) reached ↔
    ∃ next, Transition builder event (.ok ()) next ∧ Drives next second reached := by
  constructor
  · rintro ⟨succeeds, reaches⟩
    simp only [outcomes, List.mem_cons, forall_eq_or_imp] at succeeds
    refine ⟨_, ?_, succeeds.2, reaches⟩
    rw [← succeeds.1]
    exact builder.transition_apply event
  · rintro ⟨next, step, rest⟩
    refine ⟨?_, ?_⟩
    · simpa [outcomes, step.apply_eq] using rest.succeeds
    · simpa [step.apply_eq] using rest.reaches

theorem cons (step : Transition builder event (.ok ()) middle)
    (rest : Drives middle second reached) : Drives builder (event :: second) reached :=
  cons_iff.mpr ⟨middle, step, rest⟩

theorem append (front : Drives builder first middle) (back : Drives middle second reached) :
    Drives builder (first ++ second) reached := by
  induction first generalizing builder with
  | nil =>
      obtain rfl : builder = middle := front.reaches
      exact back
  | cons event rest ih =>
      obtain ⟨next, step, later⟩ := cons_iff.mp front
      exact cons step (ih later)

end Drives

def attached (builder : Builder) (tree : Tree) : Builder :=
  match builder.opened with
  | parent :: outer => { builder with opened := parent.adopt tree :: outer }
  | [] => { builder with root := some tree }

theorem drives_forestEvents {children : List Tree} (node : OpenNode) (outer : List OpenNode)
    (root : Option Tree)
    (each : ∀ child ∈ children, ∀ node : OpenNode,
      Drives ⟨node :: outer, root⟩ child.events ⟨node.adopt child :: outer, root⟩) :
    Drives ⟨node :: outer, root⟩ (Tree.forestEvents children)
      ⟨⟨node.label, children.reverse ++ node.children⟩ :: outer, root⟩ := by
  induction children generalizing node with
  | nil => exact .nil
  | cons child rest ih =>
      have here := each child (by simp) node
      have later := ih (node.adopt child) fun other member => each other (by simp [member])
      rw [Tree.forestEvents]
      simpa [OpenNode.adopt] using here.append later

theorem drives_events (tree : Tree) (builder : Builder)
    (place : builder.opened ≠ [] ∨ builder.root = none) :
    Drives builder tree.events (builder.attached tree) := by
  obtain ⟨opened, root⟩ := builder
  -- The place is arbitrary: the children are attached to the node that their parent opens.
  induction tree generalizing opened root with
  | leaf matched =>
      rw [Tree.events]
      cases opened with
      | cons parent outer => exact .cons .innerLeaf .nil
      | nil =>
          obtain rfl : root = none := by simpa using place
          exact .cons .firstLeaf .nil
  | node label children ih =>
      have below := drives_forestEvents ⟨label, []⟩ opened root fun child member node =>
        ih child member (node :: opened) root (.inl (List.cons_ne_nil _ _))
      have ended : Drives ⟨⟨label, children.reverse ++ []⟩ :: opened, root⟩ [.finish]
          (attached ⟨opened, root⟩ (.node label children)) := by
        have whole : (⟨label, children.reverse ++ []⟩ : OpenNode).tree = .node label children := by
          simp [OpenNode.tree]
        rw [← whole]
        cases opened with
        | cons parent outer => exact .cons .innerEnd .nil
        | nil =>
            obtain rfl : root = none := by simpa using place
            exact .cons .firstEnd .nil
      rw [Tree.events, List.cons_append]
      exact .cons .start (below.append ended)

def openEvents (builder : Builder) : List TreeEvent :=
  builder.opened.reverse.flatMap OpenNode.events

/-- The events that a builder can tell from what it holds. -/
def history (builder : Builder) : List TreeEvent :=
  (builder.root.elim [] Tree.events) ++ builder.openEvents

theorem Transition.history_eq {builder next : Builder} {event : TreeEvent}
    (step : Transition builder event (.ok ()) next) :
    next.history = builder.history ++ [event] := by
  cases step with
  | start => simp [history, openEvents, OpenNode.events, Tree.forestEvents]
  | innerLeaf => simp [history, openEvents, OpenNode.events_adopt, Tree.events]
  | firstLeaf => simp [history, openEvents, Tree.events]
  | innerEnd => simp [history, openEvents, OpenNode.events_adopt, OpenNode.events_tree]
  | firstEnd => simp [history, openEvents, OpenNode.events_tree]

theorem Drives.history_eq {builder reached : Builder} {events : List TreeEvent}
    (run : Drives builder events reached) : reached.history = builder.history ++ events := by
  induction events generalizing builder with
  | nil =>
      obtain rfl : builder = reached := run.reaches
      simp
  | cons event rest ih =>
      obtain ⟨next, step, later⟩ := cons_iff.mp run
      rw [ih later, step.history_eq]
      simp

theorem finish_eq_ok_iff (builder : Builder) (tree : Tree) :
    builder.finish = .ok tree ↔ builder.opened = [] ∧ builder.root = some tree := by
  obtain ⟨opened, root⟩ := builder
  cases opened with
  | cons node outer => simp [finish]
  | nil => cases root <;> simp [finish]

/-- Exactly the events of a tree drive a new builder through to that tree. -/
theorem finishes_without_failure_iff (events : List TreeEvent) (tree : Tree) :
    ((∀ outcome ∈ empty.outcomes events, outcome = .ok ()) ∧
        (empty.after events).finish = .ok tree) ↔
      events = tree.events := by
  constructor
  · rintro ⟨succeeds, finished⟩
    have read := (Drives.mk succeeds rfl).history_eq
    obtain ⟨closed, rooted⟩ := (finish_eq_ok_iff _ tree).mp finished
    calc
      events = empty.history ++ events := rfl
      _ = (empty.after events).history := read.symm
      _ = tree.events := by simp [history, openEvents, closed, rooted]
  · rintro rfl
    have run := drives_events tree empty (.inr rfl)
    refine ⟨run.succeeds, ?_⟩
    rw [run.reaches]
    rfl

end Builder

end ParseView
