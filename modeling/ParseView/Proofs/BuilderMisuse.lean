import Mathlib.Data.List.Induction
import ParseView.Proofs.BuilderRuns

/-! Builders that go on after failing steps. How many nodes are open and how many items are
complete is read off the events alone, and tells which steps fail and what the builder gives. -/

namespace ParseView

namespace TreeEvent

def isStart : TreeEvent → Bool
  | start _ => true
  | leaf _ | finish => false

def depthAfter (depth : Nat) : TreeEvent → Nat
  | start _ => depth + 1
  | leaf _ => depth
  | finish => depth - 1

def endsNode (depth : Nat) : TreeEvent → Bool
  | finish => 0 < depth
  | start _ | leaf _ => false

def completesItem (depth : Nat) : TreeEvent → Bool
  | start _ => false
  | leaf _ => depth = 0
  | finish => depth = 1

def placed (depth : Nat) : List TreeEvent → List (Nat × TreeEvent)
  | [] => []
  | event :: rest => (depth, event) :: placed (event.depthAfter depth) rest

def openNodes (events : List TreeEvent) : Nat :=
  events.foldl depthAfter 0

def starts (events : List TreeEvent) : Nat :=
  events.countP isStart

def pairedEnds (events : List TreeEvent) : Nat :=
  (placed 0 events).countP (Function.uncurry endsNode)

def completions (events : List TreeEvent) : Nat :=
  (placed 0 events).countP (Function.uncurry completesItem)

/-- The tree is the first item that the events complete: nothing but ends without an open node
comes before its events. -/
def FirstItem (events : List TreeEvent) (tree : Tree) : Prop :=
  ∃ strays rest, events = List.replicate strays .finish ++ tree.events ++ rest

theorem placed_append (depth : Nat) (first second : List TreeEvent) :
    placed depth (first ++ second) =
      placed depth first ++ placed (first.foldl depthAfter depth) second := by
  induction first generalizing depth with
  | nil => rfl
  | cons event rest ih => simp [placed, ih]

theorem completions_append_singleton (events : List TreeEvent) (event : TreeEvent) :
    completions (events ++ [event]) =
      completions events + if event.completesItem (openNodes events) then 1 else 0 := by
  simp only [completions, placed_append, List.countP_append, placed, List.countP_singleton]
  rfl

theorem depth_balance (depth : Nat) (event : TreeEvent) :
    depth + (if event.isStart then 1 else 0) =
      event.depthAfter depth + if event.endsNode depth then 1 else 0 := by
  cases event with
  | start label => rfl
  | leaf matched => rfl
  | finish =>
      by_cases inside : 0 < depth <;> simp [isStart, depthAfter, endsNode, inside] <;> omega

theorem starts_eq (events : List TreeEvent) :
    starts events = openNodes events + pairedEnds events := by
  have counted (depth : Nat) : depth + events.countP isStart =
      events.foldl depthAfter depth + (placed depth events).countP (Function.uncurry endsNode) := by
    induction events generalizing depth with
    | nil => rfl
    | cons event rest ih =>
        have here := depth_balance depth event
        have later := ih (event.depthAfter depth)
        rw [List.foldl_cons, placed, List.countP_cons, List.countP_cons,
          Function.uncurry_apply_pair]
        omega
  simpa [starts, openNodes, pairedEnds] using counted 0

theorem FirstItem.append {events : List TreeEvent} {tree : Tree} (first : FirstItem events tree)
    (more : List TreeEvent) : FirstItem (events ++ more) tree := by
  obtain ⟨strays, rest, rfl⟩ := first
  exact ⟨strays, rest ++ more, by simp⟩

end TreeEvent

def Misuse.panic? {Result : Type} : Except Misuse Result → Option String
  | .ok _ => none
  | .error misuse => some misuse.message

theorem Misuse.secondRoot_message : secondRoot.message = "a tree has exactly one root" := rfl

namespace Builder

open TreeEvent Misuse

variable {builder next : Builder} {event : TreeEvent} {outcome : Except Misuse Unit}

theorem Transition.length_opened (step : Transition builder event outcome next) :
    next.opened.length = event.depthAfter builder.opened.length := by
  cases step <;> simp [depthAfter]

theorem Transition.root_kept {tree : Tree} (step : Transition builder event outcome next)
    (rooted : builder.root = some tree) : next.root = some tree := by
  cases step <;> simp_all

theorem Transition.root_isSome (step : Transition builder event outcome next) :
    next.root.isSome = (builder.root.isSome || event.completesItem builder.opened.length) := by
  cases step <;> simp [completesItem]

theorem Transition.secondRoot_iff (step : Transition builder event outcome next) :
    panic? outcome = some "a tree has exactly one root" ↔
      event.completesItem builder.opened.length ∧ builder.root.isSome := by
  have different : noOpenNode.message ≠ "a tree has exactly one root" := by decide
  cases step with
  | laterLeaf | laterEnd => simp [panic?, completesItem, secondRoot_message]
  | strayEnd => simpa [panic?, completesItem] using different
  | start | innerLeaf | firstLeaf | innerEnd | firstEnd => simp [panic?, completesItem]

theorem Transition.of_rejected (step : Transition builder event (.error .secondRoot) next) :
    next = { builder with opened := [] } := by
  cases step <;> rfl

theorem Transition.of_rejected_leaf {matched : Leaf}
    (step : Transition builder (.leaf matched) (.error .secondRoot) next) : next = builder := by
  cases step
  rfl

theorem length_opened_after (events : List TreeEvent) (builder : Builder) :
    (builder.after events).opened.length = events.foldl depthAfter builder.opened.length := by
  induction events generalizing builder with
  | nil => rfl
  | cons event rest ih =>
      rw [after_cons, ih, (builder.transition_apply event).length_opened, List.foldl_cons]

theorem length_opened_after_empty (events : List TreeEvent) :
    (empty.after events).opened.length = openNodes events :=
  length_opened_after events empty

theorem root_after_of_root (events : List TreeEvent) {builder : Builder} {tree : Tree}
    (rooted : builder.root = some tree) : (builder.after events).root = some tree := by
  induction events generalizing builder with
  | nil => exact rooted
  | cons event rest ih => exact ih ((builder.transition_apply event).root_kept rooted)

theorem isSome_root_after_iff (events : List TreeEvent) :
    (empty.after events).root.isSome ↔ 0 < completions events := by
  induction events using List.reverseRecOn with
  | nil => simp [empty, completions, placed]
  | append_singleton events event ih =>
      have step := (empty.after events).transition_apply event
      rw [after_append, after_cons, after_nil, step.root_isSome, completions_append_singleton,
        length_opened_after_empty, Bool.or_eq_true, ih]
      split <;> simp_all

theorem Transition.of_unrooted (step : Transition builder event outcome next)
    (unrooted : next.root = none) :
    builder.root = none ∧
      (outcome = .ok () ∨ event = .finish ∧ builder.opened = [] ∧ next = builder) := by
  cases step <;> simp_all

theorem Transition.of_first_root {tree : Tree} (step : Transition builder event outcome next)
    (unrooted : builder.root = none) (rooted : next.root = some tree) :
    outcome = .ok () ∧ next.opened = [] := by
  cases step <;> simp_all

/-- As long as no item is complete, a builder holds all events but the ends that found no open
node. -/
theorem eq_replicate_append_history (events : List TreeEvent)
    (unrooted : (empty.after events).root = none) :
    ∃ strays, events = List.replicate strays .finish ++ (empty.after events).history := by
  induction events using List.reverseRecOn with
  | nil => exact ⟨0, rfl⟩
  | append_singleton events event ih =>
      have step := (empty.after events).transition_apply event
      rw [after_append, after_cons, after_nil] at unrooted ⊢
      obtain ⟨before, how⟩ := step.of_unrooted unrooted
      obtain ⟨strays, held⟩ := ih before
      rcases how with succeeds | ⟨rfl, closed, same⟩
      · rw [succeeds] at step
        refine ⟨strays, ?_⟩
        rw [step.history_eq, ← List.append_assoc, ← held]
      · have nothing : (empty.after events).history = [] := by
          simp [history, openEvents, before, closed]
        rw [nothing, List.append_nil] at held
        refine ⟨strays + 1, ?_⟩
        rw [same, nothing, List.append_nil, List.replicate_succ', ← held]

theorem root_after_eq_some_iff (events : List TreeEvent) (tree : Tree) :
    (empty.after events).root = some tree ↔ FirstItem events tree := by
  constructor
  · intro rooted
    -- The root appears with some last event; up to it the history tells all that was built.
    induction events using List.reverseRecOn with
    | nil => simp [empty] at rooted
    | append_singleton events event ih =>
        have step := (empty.after events).transition_apply event
        rw [after_append, after_cons, after_nil] at rooted
        cases before : (empty.after events).root with
        | some other =>
            obtain rfl : other = tree := by simpa [step.root_kept before] using rooted
            exact (ih before).append [event]
        | none =>
            obtain ⟨strays, held⟩ := eq_replicate_append_history events before
            obtain ⟨succeeds, closed⟩ := step.of_first_root before rooted
            rw [succeeds] at step
            have built : tree.events = (empty.after events).history ++ [event] := by
              simpa [history, openEvents, rooted, closed] using step.history_eq
            exact ⟨strays, [], by rw [built, List.append_nil, ← List.append_assoc, ← held]⟩
  · rintro ⟨strays, rest, rfl⟩
    have skipped : empty.after (List.replicate strays .finish) = empty := by
      induction strays with
      | zero => rfl
      | succ strays ih => exact ih
    have built := (drives_events tree empty (.inr rfl)).reaches
    rw [after_append, after_append, skipped, built]
    exact root_after_of_root rest rfl

theorem finish_of_opened (builder : Builder) (unfinished : 0 < builder.opened.length) :
    builder.finish = .error (.unfinished builder.opened.length) := by
  have remaining : builder.opened ≠ [] := List.ne_nil_of_length_pos unfinished
  simp [finish, remaining]

theorem panic?_discard_iff (builder : Builder) :
    (panic? builder.discard).isSome ↔ 0 < builder.opened.length := by
  obtain ⟨opened, root⟩ := builder
  cases opened <;> simp [discard, panic?]

/-- What a builder does after any events, whichever of them fail. -/
structure MisuseLaws (events : List TreeEvent) : Prop where
  openCount : (empty.after events).opened.length = openNodes events
  balance : starts events = openNodes events + pairedEnds events
  unfinished : 0 < openNodes events → panic? (empty.after events).finish =
    some ("unfinished nodes: " ++ toString (openNodes events))
  dropped : (panic? (empty.after events).discard).isSome ↔ 0 < openNodes events
  strayEnd : openNodes events = 0 →
    (empty.after events).apply .finish = (.error .noOpenNode, empty.after events)
  rejectedLeaf : ∀ matched, ((empty.after events).apply (.leaf matched)).1 = .error .secondRoot →
    ((empty.after events).apply (.leaf matched)).2 = empty.after events
  /-- A node that would be a second root is lost. -/
  rejectedEnd : ((empty.after events).apply .finish).1 = .error .secondRoot →
    ((empty.after events).apply .finish).2 = { empty.after events with opened := [] }
  rootKept : ∀ tree, (empty.after events).root = some tree →
    ∀ later, (empty.after (events ++ later)).root = some tree
  secondRoot : ∀ event,
    panic? ((empty.after events).apply event).1 = some "a tree has exactly one root" ↔
      event.completesItem (openNodes events) ∧ 0 < completions events
  finishes : (∃ tree, (empty.after events).finish = .ok tree) ↔
    openNodes events = 0 ∧ 0 < completions events
  finished : ∀ tree, (empty.after events).finish = .ok tree ↔
    openNodes events = 0 ∧ FirstItem events tree

theorem misuse_laws (events : List TreeEvent) : MisuseLaws events := by
  have count := length_opened_after_empty events
  have closed_iff : (empty.after events).opened = [] ↔ openNodes events = 0 := by
    rw [← count, List.length_eq_zero_iff]
  have step := (empty.after events).transition_apply
  refine ⟨count, starts_eq events, ?_, ?_, ?_, ?_, ?_, ?_, ?_, ?_, ?_⟩
  · intro remaining
    rw [← count] at remaining ⊢
    rw [finish_of_opened _ remaining]
    rfl
  · rw [panic?_discard_iff, count]
  · intro outside
    generalize empty.after events = builder at closed_iff
    obtain ⟨opened, root⟩ := builder
    obtain rfl : opened = [] := closed_iff.mpr outside
    exact Transition.strayEnd.apply_eq
  · intro matched rejected
    exact Transition.of_rejected_leaf (rejected ▸ step (.leaf matched))
  · intro rejected
    exact Transition.of_rejected (rejected ▸ step .finish)
  · intro tree rooted later
    rw [after_append]
    exact root_after_of_root later rooted
  · intro event
    rw [(step event).secondRoot_iff, count, isSome_root_after_iff]
  · simp only [finish_eq_ok_iff, closed_iff, ← isSome_root_after_iff, Option.isSome_iff_exists,
      exists_and_left]
  · intro tree
    rw [finish_eq_ok_iff, closed_iff, root_after_eq_some_iff]

end Builder

end ParseView
