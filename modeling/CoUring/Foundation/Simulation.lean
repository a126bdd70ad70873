import CoUring.Foundation.Transition

namespace CoUring.Foundation

universe u v w z

variable {Concrete : Type u} {Event : Type v} {Abstract : Type w}
  {Action : Type z}

/-- A relation between the states of two systems. What can be seen of a
concrete step is answered by one abstract step, and what cannot be seen by
none. -/
structure Simulation (concrete : TransitionSystem Concrete Event)
    (abstract : TransitionSystem Abstract Action)
    (seen : Concrete → Event → Option Action)
    (related : Concrete → Abstract → Prop) : Prop where
  initial : ∀ state, concrete.initial state →
    ∃ image, abstract.initial image ∧ related state image
  hidden : ∀ state label next image, concrete.Reachable state →
    related state image → concrete.step state label next →
    seen state label = none → related next image
  visible : ∀ state label next image action, concrete.Reachable state →
    related state image → concrete.step state label next →
    seen state label = some action →
    ∃ next', abstract.step image action next' ∧ related next next'

namespace TransitionSystem

def trace (history : List (Abstract × Action)) : List Action :=
  history.map Prod.snd

def observed (seen : Concrete → Event → Option Action)
    (history : List (Concrete × Event)) : List Action :=
  history.filterMap fun taken => seen taken.1 taken.2

theorem observed_snoc (seen : Concrete → Event → Option Action)
    (history : List (Concrete × Event)) (state : Concrete) (label : Event) :
    observed seen (history ++ [(state, label)]) =
      observed seen history ++ (seen state label).toList := by
  rw [observed, List.filterMap_append]
  cases action : seen state label with
  | none => simp [observed, action]
  | some action' => simp [observed, action]

theorem trace_snoc (history : List (Abstract × Action)) (state : Abstract)
    (action : Action) :
    trace (history ++ [(state, action)]) = trace history ++ [action] := by
  simp [trace]

def Shows (concrete : TransitionSystem Concrete Event)
    (seen : Concrete → Event → Option Action) (first : Concrete)
    (actions : List Action) (last : Concrete) : Prop :=
  ∃ history, concrete.Execution first history last ∧
    observed seen history = actions

namespace Shows

variable {concrete : TransitionSystem Concrete Event}
  {seen : Concrete → Event → Option Action} {first middle last : Concrete}
  {actions more : List Action} {label : Event}

theorem refl : concrete.Shows seen first [] first := ⟨[], .refl, rfl⟩

theorem snoc (shows' : concrete.Shows seen first actions middle)
    (step : concrete.step middle label last) :
    concrete.Shows seen first (actions ++ (seen middle label).toList)
      last := by
  obtain ⟨history, run, same⟩ := shows'
  refine ⟨_, run.snoc step, ?_⟩
  rw [observed_snoc, same]

theorem trans (before : concrete.Shows seen first actions middle)
    (after : concrete.Shows seen middle more last) :
    concrete.Shows seen first (actions ++ more) last := by
  obtain ⟨history, run, same⟩ := before
  obtain ⟨history', run', same'⟩ := after
  refine ⟨_, run.trans run', ?_⟩
  rw [observed, List.filterMap_append, ← observed, ← observed, same, same']

end Shows

end TransitionSystem

/-- The other direction: an abstract step is what can be seen of some concrete
steps, where the concrete system has the means for it. -/
structure Realization (concrete : TransitionSystem Concrete Event)
    (abstract : TransitionSystem Abstract Action)
    (seen : Concrete → Event → Option Action)
    (means : Abstract → Action → Prop)
    (related : Concrete → Abstract → Prop) : Prop where
  step : ∀ state image action next, abstract.Reachable image →
    related state image → means image action →
    abstract.step image action next →
    ∃ state', concrete.Shows seen state [action] state' ∧ related state' next

theorem Realization.follow {concrete : TransitionSystem Concrete Event}
    {abstract : TransitionSystem Abstract Action}
    {seen : Concrete → Event → Option Action}
    {means : Abstract → Action → Prop}
    {related : Concrete → Abstract → Prop}
    (realization : Realization concrete abstract seen means related)
    {first last : Abstract} {history : List (Abstract × Action)}
    {state : Concrete} (reachable : abstract.Reachable first)
    (start : related state first)
    (run : abstract.Execution first history last)
    (able : ∀ taken ∈ history, means taken.1 taken.2) :
    ∃ state', concrete.Shows seen state (TransitionSystem.trace history)
      state' ∧ related state' last := by
  induction run with
  | refl => exact ⟨state, .refl, start⟩
  | @snoc last next history label run step induction =>
      obtain ⟨middle, shown, isImage⟩ := induction fun taken member =>
        able taken (List.mem_append_left _ member)
      obtain ⟨state', more, isImage'⟩ := realization.step _ _ _ _
        (reachable.extend run) isImage (able (last, label) (by simp)) step
      rw [TransitionSystem.trace_snoc]
      exact ⟨state', shown.trans more, isImage'⟩

namespace Simulation

open TransitionSystem

variable {concrete : TransitionSystem Concrete Event}
  {abstract : TransitionSystem Abstract Action}
  {seen : Concrete → Event → Option Action}
  {related : Concrete → Abstract → Prop}

/-- From related states, what can be seen of a run is an abstract run. -/
theorem follow (simulation : Simulation concrete abstract seen related)
    {first last : Concrete} {history : List (Concrete × Event)}
    {image : Abstract} (reachable : concrete.Reachable first)
    (start : related first image)
    (run : concrete.Execution first history last) :
    ∃ history' last', abstract.Execution image history' last' ∧
      trace history' = observed seen history ∧ related last last' := by
  induction run with
  | refl => exact ⟨[], image, .refl, rfl, start⟩
  | @snoc last next history label run step induction =>
      obtain ⟨history', last', run', same, isImage⟩ := induction
      have reached := reachable.extend run
      cases action : seen last label with
      | none =>
          have isImage' := simulation.hidden _ _ _ _ reached isImage step action
          refine ⟨history', last', run', ?_, isImage'⟩
          rw [observed_snoc, action, same]
          exact (List.append_nil _).symm
      | some action' =>
          obtain ⟨next', step', isImage'⟩ :=
            simulation.visible _ _ _ _ _ reached isImage step action
          refine ⟨_, next', run'.snoc step', ?_, isImage'⟩
          rw [observed_snoc, action, trace_snoc, same]
          rfl

/-- What can be seen of a run is a run of the abstract system. -/
theorem run (simulation : Simulation concrete abstract seen related)
    {first last : Concrete} {history : List (Concrete × Event)}
    (start : concrete.initial first)
    (run : concrete.Execution first history last) :
    ∃ first' history' last', abstract.initial first' ∧
      abstract.Execution first' history' last' ∧
      trace history' = observed seen history ∧ related last last' := by
  obtain ⟨first', start', isImage⟩ := simulation.initial first start
  obtain ⟨history', last', run', same, isImage'⟩ :=
    simulation.follow (.initial start) isImage run
  exact ⟨first', history', last', start', run', same, isImage'⟩

theorem reachable (simulation : Simulation concrete abstract seen related)
    {state : Concrete} (reachable : concrete.Reachable state) :
    ∃ image, abstract.Reachable image ∧ related state image := by
  obtain ⟨first, history, start, run⟩ := reachable
  obtain ⟨first', history', image, start', run', -, isImage⟩ :=
    simulation.run start run
  exact ⟨image, run'.reachable start', isImage⟩

end Simulation

end CoUring.Foundation
