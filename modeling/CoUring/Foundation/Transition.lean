import Mathlib.Data.List.Basic

namespace CoUring.Foundation

universe u v

/-- A labelled transition system: where its runs start and which steps they
may take. -/
structure TransitionSystem (State : Type u) (Label : Type v) where
  initial : State → Prop
  step : State → Label → State → Prop

namespace TransitionSystem

variable {State : Type u} {Label : Type v}

/-- A transition system whose steps are computed: the label fixes every choice
of the environment, and a label that is not enabled has no next state. -/
def ofFunction (initial : State → Prop)
    (next : State → Label → Option State) : TransitionSystem State Label where
  initial := initial
  step := fun state label state' => next state label = some state'

inductive Execution (system : TransitionSystem State Label) (first : State) :
    List (State × Label) → State → Prop
  | refl : Execution system first [] first
  | snoc {last next : State} {history : List (State × Label)}
      {label : Label} (run : Execution system first history last)
      (step : system.step last label next) :
      Execution system first (history ++ [(last, label)]) next

/-- The states a run passes through, its last state included. -/
def visited (history : List (State × Label)) (last : State) : List State :=
  history.map Prod.fst ++ [last]

def Reachable (system : TransitionSystem State Label) (state : State) : Prop :=
  ∃ first history, system.initial first ∧
    Execution system first history state

/-- A property that holds where runs start and that every step keeps. -/
structure Invariant (system : TransitionSystem State Label)
    (property : State → Prop) : Prop where
  initial : ∀ state, system.initial state → property state
  step : ∀ state label next, property state →
    system.step state label next → property next

variable {system : TransitionSystem State Label}

theorem Reachable.initial {state : State} (start : system.initial state) :
    system.Reachable state :=
  ⟨state, [], start, .refl⟩

theorem Reachable.step {state next : State} {label : Label}
    (reachable : system.Reachable state)
    (step : system.step state label next) : system.Reachable next := by
  obtain ⟨first, history, start, run⟩ := reachable
  exact ⟨first, _, start, run.snoc step⟩

theorem Execution.reachable {first last : State}
    {history : List (State × Label)} (start : system.initial first)
    (run : Execution system first history last) : system.Reachable last :=
  ⟨first, history, start, run⟩

theorem Reachable.extend {first last : State}
    {history : List (State × Label)} (reachable : system.Reachable first)
    (run : Execution system first history last) : system.Reachable last := by
  induction run with
  | refl => exact reachable
  | snoc run step induction => exact induction.step step

theorem Invariant.reachable {property : State → Prop}
    (invariant : Invariant system property) {state : State}
    (reachable : system.Reachable state) : property state := by
  obtain ⟨first, history, start, run⟩ := reachable
  induction run with
  | refl => exact invariant.initial _ start
  | snoc run step induction =>
      exact invariant.step _ _ _ induction step

/-- An invariant proved with the help of facts that hold of every reachable
state. -/
theorem Invariant.of_reachable (property : State → Prop)
    (initial : ∀ state, system.initial state → property state)
    (step : ∀ state label next, system.Reachable state → property state →
      system.step state label next → property next) :
    ∀ state, system.Reachable state → property state := by
  intro state reachable
  obtain ⟨first, history, start, run⟩ := reachable
  induction run with
  | refl => exact initial _ start
  | snoc run last induction =>
      exact step _ _ _ (run.reachable start) induction last

theorem visited_snoc (history : List (State × Label)) (last next : State)
    (label : Label) : visited (history ++ [(last, label)]) next =
      visited history last ++ [next] := by
  simp [visited]

theorem Execution.forall_visited {property : State → Prop}
    {first last : State} {history : List (State × Label)}
    (run : Execution system first history last) (initial : property first)
    (step : ∀ state label next, property state →
      system.step state label next → property next) :
    ∀ state ∈ visited history last, property state := by
  induction run with
  | refl => simpa [visited] using initial
  | @snoc last next history label run taken induction =>
      intro state member
      rw [visited_snoc, List.mem_append, List.mem_singleton] at member
      rcases member with earlier | rfl
      · exact induction state earlier
      · exact step _ _ _ (induction last (by simp [visited])) taken

theorem last_mem_visited (history : List (State × Label)) (last : State) :
    last ∈ visited history last := by
  simp [visited]

theorem mem_visited {history : List (State × Label)} {last : State}
    {taken : State × Label} (member : taken ∈ history) :
    taken.1 ∈ visited history last :=
  List.mem_append_left _ (List.mem_map_of_mem member)

theorem Execution.stepped {first last : State}
    {history : List (State × Label)} {taken : State × Label}
    (run : Execution system first history last) (member : taken ∈ history) :
    ∃ next, system.step taken.1 taken.2 next := by
  induction run with
  | refl => cases member
  | @snoc last next history label run step induction =>
      rcases List.mem_append.mp member with earlier | new
      · exact induction earlier
      · cases List.mem_singleton.mp new
        exact ⟨next, step⟩

/-- The part of a run that leads to one of its steps. -/
theorem Execution.split {first last : State} {taken : State × Label}
    {history earlier later : List (State × Label)}
    (run : Execution system first history last)
    (splits : history = earlier ++ taken :: later) :
    Execution system first earlier taken.1 ∧
      ∃ next, system.step taken.1 taken.2 next := by
  induction run generalizing later with
  | refl => exact absurd splits.symm (by simp)
  | @snoc last next history label run step induction =>
      rcases List.eq_nil_or_concat later with rfl | ⟨later, final, rfl⟩
      · obtain ⟨rfl, same⟩ := List.append_inj' splits rfl
        cases same
        exact ⟨run, next, step⟩
      · rw [List.concat_eq_append, ← List.cons_append,
          ← List.append_assoc] at splits
        apply induction
        exact (List.append_inj' splits rfl).1

/-- The exact guard of a property: where each single step from a good state
leads to a good state just when the guard holds of it, a run stays good
throughout just when all its steps meet the guard. -/
theorem Execution.good_iff_guarded {good : State → Prop}
    {guard : State → Label → Prop}
    (initial : ∀ state, system.initial state → good state)
    (step : ∀ state label next, system.Reachable state → good state →
      system.step state label next → (good next ↔ guard state label))
    {first last : State} {history : List (State × Label)}
    (start : system.initial first)
    (run : Execution system first history last) :
    (∀ state ∈ visited history last, good state) ↔
      ∀ taken ∈ history, guard taken.1 taken.2 := by
  induction run with
  | refl =>
      simpa [visited] using initial _ start
  | @snoc last next history label run taken induction =>
      have reachable := run.reachable start
      simp only [visited_snoc, List.mem_append, List.mem_singleton]
      constructor
      · intro allGood entry member
        rcases member with earlier | rfl
        · exact induction.mp
            (fun state member => allGood state (.inl member)) entry earlier
        · have goodLast : good last :=
            allGood last (.inl (by simp [visited]))
          exact (step _ _ _ reachable goodLast taken).mp
            (allGood next (.inr rfl))
      · intro guarded state member
        have earlierGood := induction.mpr
          fun entry member => guarded entry (.inl member)
        rcases member with earlier | rfl
        · exact earlierGood state earlier
        · exact (step _ _ _ reachable
            (earlierGood last (by simp [visited])) taken).mpr
            (guarded (last, label) (.inr rfl))

/-- A guard that keeps an invariant, and without which the state after a step
is not safe, is exact: runs pass through safe states only just when all their
steps meet it. -/
theorem Execution.safe_iff_guarded {safe : State → Prop}
    {guard : State → Label → Prop} (invariant : State → Prop)
    (initial : ∀ state, system.initial state → invariant state)
    (keeps : ∀ state label next, system.Reachable state → invariant state →
      system.step state label next → guard state label → invariant next)
    (safely : ∀ state, system.Reachable state → invariant state → safe state)
    (exact : ∀ state label next, system.Reachable state →
      system.step state label next → safe next → guard state label)
    {first last : State} {history : List (State × Label)}
    (start : system.initial first)
    (run : Execution system first history last) :
    (∀ state ∈ visited history last, safe state) ↔
      ∀ taken ∈ history, guard taken.1 taken.2 := by
  constructor
  · intro allSafe
    induction run with
    | refl =>
        intro taken member
        cases member
    | @snoc last next history label run step induction =>
        rw [visited_snoc, List.forall_mem_append] at allSafe
        intro taken member
        rcases List.mem_append.mp member with earlier | new
        · exact induction allSafe.1 taken earlier
        · cases List.mem_singleton.mp new
          exact exact _ _ _ (run.reachable start) step
            (allSafe.2 next (List.mem_singleton_self _))
  · intro guarded
    have kept : invariant last ∧
        ∀ state ∈ visited history last, safe state := by
      induction run with
      | refl =>
          have here := initial first start
          refine ⟨here, fun state member => ?_⟩
          rw [List.mem_singleton.mp member]
          exact safely _ (.initial start) here
      | @snoc last next history label run step induction =>
          rw [List.forall_mem_append] at guarded
          obtain ⟨here, before⟩ := induction guarded.1
          have reachable := run.reachable start
          have there := keeps _ _ _ reachable here step
            (guarded.2 (last, label) (List.mem_singleton_self _))
          rw [visited_snoc, List.forall_mem_append]
          refine ⟨there, before, fun state member => ?_⟩
          rw [List.mem_singleton.mp member]
          exact safely _ (reachable.step step) there
    exact kept.2

def restrict (system : TransitionSystem State Label)
    (allowed : State → Label → Prop) : TransitionSystem State Label where
  initial := system.initial
  step := fun state label next => allowed state label ∧
    system.step state label next

theorem Execution.unrestricted {allowed : State → Label → Prop}
    {first last : State} {history : List (State × Label)}
    (run : Execution (system.restrict allowed) first history last) :
    Execution system first history last := by
  induction run with
  | refl => exact .refl
  | snoc run step induction => exact induction.snoc step.2

theorem Reachable.unrestricted {allowed : State → Label → Prop}
    {state : State} (reachable : (system.restrict allowed).Reachable state) :
    system.Reachable state := by
  obtain ⟨first, history, start, run⟩ := reachable
  exact ⟨first, history, start, run.unrestricted⟩

theorem Execution.restricted {allowed : State → Label → Prop}
    {first last : State} {history : List (State × Label)}
    (run : Execution system first history last)
    (within : ∀ taken ∈ history, allowed taken.1 taken.2) :
    Execution (system.restrict allowed) first history last := by
  induction run with
  | refl => exact .refl
  | @snoc last next history label run step induction =>
      refine (induction fun taken member => ?_).snoc ⟨?_, step⟩
      · exact within taken (List.mem_append_left _ member)
      · exact within (last, label) (by simp)

/-! Computed systems can be run on a list of labels. -/

def runLabels (next : State → Label → Option State) :
    State → List Label → Option State
  | state, [] => some state
  | state, label :: rest =>
      (next state label).bind fun state' => runLabels next state' rest

theorem runLabels_append (next : State → Label → Option State)
    (state : State) (front back : List Label) :
    runLabels next state (front ++ back) =
      (runLabels next state front).bind fun middle =>
        runLabels next middle back := by
  induction front generalizing state with
  | nil => rfl
  | cons label rest induction =>
      simp only [List.cons_append, runLabels, Option.bind_assoc]
      exact congrArg _ (funext fun state' => induction state')

def traceLabels (next : State → Label → Option State) :
    State → List Label → List (State × Label)
  | _, [] => []
  | state, label :: rest =>
      match next state label with
      | none => []
      | some state' => (state, label) :: traceLabels next state' rest

theorem mem_traceLabels {next : State → Label → Option State} {state : State}
    {labels : List Label} {taken : State × Label}
    (member : taken ∈ traceLabels next state labels) : taken.2 ∈ labels := by
  induction labels generalizing state with
  | nil => cases member
  | cons label rest induction =>
      rw [traceLabels] at member
      split at member
      · cases member
      · rcases List.mem_cons.mp member with rfl | later
        · exact .head _
        · exact .tail _ (induction later)

theorem Execution.trans {first middle last : State}
    {front back : List (State × Label)}
    (before : Execution system first front middle)
    (after : Execution system middle back last) :
    Execution system first (front ++ back) last := by
  induction after with
  | refl => simpa using before
  | snoc run step induction =>
      rw [← List.append_assoc]
      exact induction.snoc step

theorem Execution.runLabels {initial : State → Prop}
    {next : State → Label → Option State} {first last : State}
    {labels : List Label}
    (run : TransitionSystem.runLabels next first labels = some last) :
    Execution (ofFunction initial next) first
      (traceLabels next first labels) last := by
  induction labels generalizing first with
  | nil =>
      cases run
      exact .refl
  | cons label rest induction =>
      simp only [TransitionSystem.runLabels,
        Option.bind_eq_some_iff] at run
      obtain ⟨state', stepped, remaining⟩ := run
      have one : Execution (ofFunction initial next) first
          ([] ++ [(first, label)]) state' := Execution.refl.snoc stepped
      simpa [traceLabels, stepped] using one.trans (induction remaining)

theorem Reachable.runLabels {initial : State → Prop}
    {next : State → Label → Option State} {first last : State}
    {labels : List Label}
    (reachable : (ofFunction initial next).Reachable first)
    (run : TransitionSystem.runLabels next first labels = some last) :
    (ofFunction initial next).Reachable last :=
  reachable.extend (Execution.runLabels run)

/-- A computed system in a restricted environment is computed as well. -/
def restrictStep (allowed : State → Label → Prop)
    [∀ state label, Decidable (allowed state label)]
    (next : State → Label → Option State) (state : State) (label : Label) :
    Option State :=
  if allowed state label then next state label else none

theorem restrict_ofFunction (allowed : State → Label → Prop)
    [∀ state label, Decidable (allowed state label)]
    (initial : State → Prop) (next : State → Label → Option State) :
    (ofFunction initial next).restrict allowed =
      ofFunction initial (restrictStep allowed next) := by
  simp only [restrict, ofFunction, restrictStep,
    Option.ite_none_right_eq_some]

theorem Execution.restrictLabels {allowed : State → Label → Prop}
    [∀ state label, Decidable (allowed state label)]
    {initial : State → Prop} {next : State → Label → Option State}
    {first last : State} {labels : List Label}
    (run : TransitionSystem.runLabels (restrictStep allowed next) first
      labels = some last) :
    Execution ((ofFunction initial next).restrict allowed) first
      (traceLabels (restrictStep allowed next) first labels) last := by
  rw [restrict_ofFunction]
  exact Execution.runLabels run

end TransitionSystem

end CoUring.Foundation
