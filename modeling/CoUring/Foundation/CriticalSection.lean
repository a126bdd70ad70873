import CoUring.Foundation.Simulation
import Mathlib.Logic.Function.Basic

namespace CoUring.Foundation

universe u

/-! Objects whose operations run under one mutex, access by access. -/

inductive LockMode
  | shared
  | exclusive
  deriving DecidableEq, Repr

/-- A mutex that one writer or any number of readers hold. -/
structure SharedMutex (Thread : Type u) where
  writer : Option Thread := none
  readers : List Thread := []

namespace SharedMutex

variable {Thread : Type u}

section

variable [DecidableEq Thread]

def acquire (mutex : SharedMutex Thread) (thread : Thread) :
    LockMode → Option (SharedMutex Thread)
  | .exclusive =>
      if mutex.writer = none ∧ mutex.readers = [] then
        some { mutex with writer := some thread }
      else none
  | .shared =>
      if mutex.writer = none then
        some { mutex with readers := thread :: mutex.readers }
      else none

def release (mutex : SharedMutex Thread) (thread : Thread) :
    LockMode → SharedMutex Thread
  | .exclusive => { mutex with writer := none }
  | .shared => { mutex with readers := mutex.readers.erase thread }

end

/-- The mutex knows who holds it, and a writer holds it alone. -/
structure Excludes (mutex : SharedMutex Thread)
    (held : Thread → Option LockMode) : Prop where
  nodup : mutex.readers.Nodup
  alone : mutex.writer = none ∨ mutex.readers = []
  writer : ∀ thread,
    mutex.writer = some thread ↔ held thread = some .exclusive
  reader : ∀ thread, thread ∈ mutex.readers ↔ held thread = some .shared

variable {mutex mutex' : SharedMutex Thread}
  {held : Thread → Option LockMode} {thread other : Thread} {mode : LockMode}

namespace Excludes

theorem initial : Excludes ({} : SharedMutex Thread) fun _ => none where
  nodup := .nil
  alone := .inl rfl
  writer := fun _ => iff_of_false nofun nofun
  reader := fun _ => iff_of_false List.not_mem_nil nofun

theorem others (excludes : Excludes mutex held)
    (writes : held thread = some .exclusive) (different : other ≠ thread) :
    held other = none := by
  have isWriter := (excludes.writer thread).mpr writes
  cases holds : held other with
  | none => rfl
  | some mode =>
      cases mode with
      | exclusive =>
          have another := (excludes.writer other).mpr holds
          exact absurd (Option.some.inj (another.symm.trans isWriter)) different
      | shared =>
          have reads := (excludes.reader other).mpr holds
          rcases excludes.alone with none | empty
          · cases none.symm.trans isWriter
          · rw [empty] at reads
            cases reads

variable [DecidableEq Thread]

theorem acquire (excludes : Excludes mutex held) (free : held thread = none)
    (acquired : mutex.acquire thread mode = some mutex') :
    Excludes mutex' (Function.update held thread (some mode)) := by
  cases mode with
  | exclusive =>
      obtain ⟨⟨unwritten, unread⟩, same⟩ :=
        Option.ite_none_right_eq_some.mp acquired
      cases same
      refine ⟨excludes.nodup, .inr unread, fun other => ?_, fun other => ?_⟩
      · by_cases here : other = thread
        · rw [here, Function.update_self]
          exact iff_of_true rfl rfl
        · rw [Function.update_of_ne here, ← excludes.writer, unwritten]
          exact iff_of_false (fun same => here (Option.some.inj same).symm) nofun
      · rw [excludes.reader]
        by_cases here : other = thread
        · rw [here, Function.update_self, free]
          exact iff_of_false nofun nofun
        · rw [Function.update_of_ne here]
  | shared =>
      obtain ⟨unwritten, same⟩ := Option.ite_none_right_eq_some.mp acquired
      cases same
      have new : thread ∉ mutex.readers := by
        rw [excludes.reader, free]
        nofun
      refine ⟨List.nodup_cons.mpr ⟨new, excludes.nodup⟩, .inl unwritten,
        fun other => ?_, fun other => ?_⟩
      · rw [excludes.writer]
        by_cases here : other = thread
        · rw [here, Function.update_self, free]
          exact iff_of_false nofun nofun
        · rw [Function.update_of_ne here]
      · rw [List.mem_cons, excludes.reader]
        by_cases here : other = thread
        · rw [here, Function.update_self]
          exact iff_of_true (.inl rfl) rfl
        · rw [Function.update_of_ne here]
          exact or_iff_right here

theorem release (excludes : Excludes mutex held)
    (holds : held thread = some mode) :
    Excludes (mutex.release thread mode)
      (Function.update held thread none) := by
  cases mode with
  | exclusive =>
      refine ⟨excludes.nodup, .inl rfl, fun other => ?_, fun other => ?_⟩
      · by_cases here : other = thread
        · rw [here, Function.update_self]
          exact iff_of_false nofun nofun
        · rw [Function.update_of_ne here, excludes.others holds here]
          exact iff_of_false nofun nofun
      · change other ∈ mutex.readers ↔ _
        rw [excludes.reader]
        by_cases here : other = thread
        · rw [here, Function.update_self, holds]
          exact iff_of_false nofun nofun
        · rw [Function.update_of_ne here]
  | shared =>
      refine ⟨excludes.nodup.erase thread, ?_, fun other => ?_,
        fun other => ?_⟩
      · exact excludes.alone.imp_right fun empty =>
          (congrArg (List.erase · thread) empty).trans rfl
      · change mutex.writer = some other ↔ _
        rw [excludes.writer]
        by_cases here : other = thread
        · rw [here, Function.update_self, holds]
          exact iff_of_false nofun nofun
        · rw [Function.update_of_ne here]
      · change other ∈ mutex.readers.erase thread ↔ _
        rw [excludes.nodup.mem_erase_iff, excludes.reader]
        by_cases here : other = thread
        · rw [here, Function.update_self]
          exact iff_of_false (fun reads => reads.1 rfl) nofun
        · rw [Function.update_of_ne here]
          exact and_iff_right here

end Excludes

end SharedMutex

/-- What the operations of an object do while they hold its mutex. An access
may read what the mutex does not protect, and what it read there is part of
it. -/
structure LockedObject (Data Outside Operation Place Reading Result Event :
    Type u) where
  mode : Operation → LockMode
  enter : Operation → Place
  access : Operation → Place → Data → Reading → Option (Place × Data)
  result : Operation → Place → Option Result
  /-- What is read outside, and what the access changes there. -/
  reads : Outside → Operation → Place → Reading → Bool
  affects : Outside → Operation → Place → Reading → Outside
  /-- What happens outside without the mutex. -/
  outside : Outside → Event → Option Outside
  shares : ∀ operation place data reading place' data',
    mode operation = .shared →
    access operation place data reading = some (place', data') → data' = data

/-- An operation that holds the mutex, with what it has read. -/
structure Section (Operation Place Reading : Type u) where
  operation : Operation
  place : Place
  readings : List Reading := []

structure LockedState (Thread Data Outside Operation Place Reading : Type u)
    where
  mutex : SharedMutex Thread := {}
  data : Data
  outside : Outside
  inside : Thread → Option (Section Operation Place Reading) := fun _ => none

inductive LockedLabel (Thread Operation Reading Event : Type u)
  | enter (thread : Thread) (operation : Operation)
  | access (thread : Thread) (reading : Reading)
  | leave (thread : Thread)
  | outside (event : Event)

/-- A whole call, as its caller knows it. -/
structure Call (Thread Operation Reading Result : Type u) where
  thread : Thread
  operation : Operation
  readings : List Reading
  result : Result

namespace LockedObject

variable {Thread Data Outside Operation Place Reading Result Event : Type u}

section

variable [DecidableEq Thread]
  (object : LockedObject Data Outside Operation Place Reading Result
  Event)

def step (state : LockedState Thread Data Outside Operation Place Reading) :
    LockedLabel Thread Operation Reading Event →
      Option (LockedState Thread Data Outside Operation Place Reading)
  | .enter thread operation =>
      match state.inside thread with
      | some _ => none
      | none =>
          (state.mutex.acquire thread (object.mode operation)).map fun mutex =>
            { state with
              mutex := mutex
              inside := Function.update state.inside thread
                (some ⟨operation, object.enter operation, []⟩) }
  | .access thread reading =>
      match state.inside thread with
      | none => none
      | some held =>
          if object.reads state.outside held.operation held.place reading then
            (object.access held.operation held.place state.data reading).map
              fun (place, data) =>
                { state with
                  data := data
                  outside := object.affects state.outside held.operation
                    held.place reading
                  inside := Function.update state.inside thread
                    (some { held with
                      place := place
                      readings := held.readings ++ [reading] }) }
          else none
  | .leave thread =>
      match state.inside thread with
      | none => none
      | some held =>
          (object.result held.operation held.place).map fun _ =>
            { state with
              mutex := state.mutex.release thread (object.mode held.operation)
              inside := Function.update state.inside thread none }
  | .outside event =>
      (object.outside state.outside event).map fun outside =>
        { state with outside := outside }

/-- The calls of any threads, access by access. -/
def lockedSystem (initial : Data → Outside → Prop) :
    TransitionSystem
      (LockedState Thread Data Outside Operation Place Reading)
      (LockedLabel Thread Operation Reading Event) :=
  .ofFunction (fun state => ∃ data outside, initial data outside ∧
    state = { data, outside }) object.step

def accesses (operation : Operation) :
    Place → Data → List Reading → Option (Place × Data)
  | place, data, [] => some (place, data)
  | place, data, reading :: readings =>
      (object.access operation place data reading).bind fun (place, data) =>
        accesses operation place data readings

def Calls (data : Data) (call : Call Thread Operation Reading Result)
    (next : Data) : Prop :=
  ∃ place, object.accesses call.operation (object.enter call.operation) data
      call.readings = some (place, next) ∧
    object.result call.operation place = some call.result

/-- The same calls, one after another. -/
def atomicSystem (initial : Data → Prop) :
    TransitionSystem Data (Call Thread Operation Reading Result) where
  initial := initial
  step := object.Calls

/-- A call is seen when it gives the mutex back. -/
def completed (state : LockedState Thread Data Outside Operation Place
    Reading) : LockedLabel Thread Operation Reading Event →
      Option (Call Thread Operation Reading Result)
  | .leave thread =>
      (state.inside thread).bind fun held =>
        (object.result held.operation held.place).map fun result =>
          ⟨thread, held.operation, held.readings, result⟩
  | _ => none

end

variable {object : LockedObject Data Outside Operation Place Reading Result
    Event}
  {state next : LockedState Thread Data Outside Operation Place Reading}
  {image : Data} {thread : Thread} {place : Place} {data : Data}
  {operation : Operation} {readings : List Reading} {reading : Reading}

theorem accesses_snoc {start : Place}
    (before : object.accesses operation start image readings =
      some (place, data)) :
    object.accesses operation start image (readings ++ [reading]) =
      object.access operation place data reading := by
  induction readings generalizing start image with
  | nil =>
      cases before
      rw [List.nil_append, accesses]
      cases object.access operation place data reading with
      | none => rfl
      | some reached => rfl
  | cons first readings induction =>
      rw [accesses, Option.bind_eq_some_iff] at before
      obtain ⟨⟨place', data'⟩, accessed, rest⟩ := before
      rw [List.cons_append, accesses, accessed]
      exact induction rest

theorem accesses_cases {start : Place}
    (ran : object.accesses operation start image readings =
      some (place, data)) :
    (readings = [] ∧ place = start ∧ data = image) ∨
      ∃ first rest place' data', readings = first :: rest ∧
        object.access operation start image first = some (place', data') ∧
        object.accesses operation place' data' rest = some (place, data) := by
  cases readings with
  | nil =>
      cases ran
      exact .inl ⟨rfl, rfl, rfl⟩
  | cons first rest =>
      obtain ⟨⟨place', data'⟩, accessed, ran'⟩ :=
        Option.bind_eq_some_iff.mp ran
      exact .inr ⟨first, rest, place', data', rfl, accessed, ran'⟩

def modes (object : LockedObject Data Outside Operation Place Reading Result
      Event)
    (inside : Thread → Option (Section Operation Place Reading))
    (thread : Thread) : Option LockMode :=
  (inside thread).map fun held => object.mode held.operation

theorem modes_eq {held : Section Operation Place Reading}
    (inside : state.inside thread = some held) :
    object.modes state.inside thread = some (object.mode held.operation) := by
  rw [modes, inside]
  rfl

/-- Whoever is inside has done its accesses to the data as it was between two
calls, and without a writer the data still is that. -/
structure Serial (object : LockedObject Data Outside Operation Place Reading
      Result Event)
    (state : LockedState Thread Data Outside Operation Place Reading)
    (image : Data) : Prop where
  excludes : state.mutex.Excludes (object.modes state.inside)
  ran : ∀ thread held, state.inside thread = some held →
    object.accesses held.operation (object.enter held.operation) image
      held.readings = some (held.place, state.data)
  settled : state.mutex.writer = none → state.data = image

namespace Serial

theorem initial (data : Data) (outside : Outside) :
    Serial object ({ data, outside } : LockedState Thread Data Outside
      Operation Place Reading) data where
  excludes := .initial
  ran := nofun
  settled := fun _ => rfl

theorem alone (serial : Serial object state image)
    {held : Section Operation Place Reading} {other : Thread}
    (inside : state.inside thread = some held)
    (writes : object.mode held.operation = .exclusive)
    (different : other ≠ thread) : state.inside other = none := by
  have holds : object.modes state.inside thread =
      some (object.mode held.operation) := modes_eq inside
  rw [writes] at holds
  exact Option.map_eq_none_iff.mp (serial.excludes.others holds different)

end Serial

variable [DecidableEq Thread]

theorem modes_update (object : LockedObject Data Outside Operation Place
      Reading Result Event)
    (inside : Thread → Option (Section Operation Place Reading))
    (held : Option (Section Operation Place Reading)) :
    object.modes (Function.update inside thread held) =
      Function.update (object.modes inside) thread
        (held.map fun held => object.mode held.operation) := by
  funext other
  by_cases here : other = thread
  · rw [here, modes, Function.update_self, Function.update_self]
  · rw [modes, Function.update_of_ne here, Function.update_of_ne here]
    rfl

inductive Stepped (object : LockedObject Data Outside Operation Place Reading
      Result Event)
    (state : LockedState Thread Data Outside Operation Place Reading) :
    LockedLabel Thread Operation Reading Event →
      LockedState Thread Data Outside Operation Place Reading → Prop
  | enter {thread : Thread} {operation : Operation}
      {mutex : SharedMutex Thread} (free : state.inside thread = none)
      (acquired : state.mutex.acquire thread (object.mode operation) =
        some mutex) :
      Stepped object state (.enter thread operation)
        { state with
          mutex := mutex
          inside := Function.update state.inside thread
            (some ⟨operation, object.enter operation, []⟩) }
  | access {thread : Thread} {reading : Reading}
      {held : Section Operation Place Reading} {place : Place} {data : Data}
      (inside : state.inside thread = some held)
      (reads : object.reads state.outside held.operation held.place reading =
        true)
      (accessed : object.access held.operation held.place state.data reading =
        some (place, data)) :
      Stepped object state (.access thread reading)
        { state with
          data := data
          outside := object.affects state.outside held.operation held.place
            reading
          inside := Function.update state.inside thread
            (some { held with
              place := place
              readings := held.readings ++ [reading] }) }
  | leave {thread : Thread} {held : Section Operation Place Reading}
      {result : Result} (inside : state.inside thread = some held)
      (finished : object.result held.operation held.place = some result) :
      Stepped object state (.leave thread)
        { state with
          mutex := state.mutex.release thread (object.mode held.operation)
          inside := Function.update state.inside thread none }
  | outside {event : Event} {outside : Outside}
      (changed : object.outside state.outside event = some outside) :
      Stepped object state (.outside event) { state with outside := outside }

theorem step_cases {label : LockedLabel Thread Operation Reading Event}
    (step : object.step state label = some next) :
    Stepped object state label next := by
  cases label with
  | enter thread operation =>
      rw [LockedObject.step] at step
      split at step
      next => cases step
      next free =>
        obtain ⟨mutex, acquired, rfl⟩ := Option.map_eq_some_iff.mp step
        exact .enter free acquired
  | access thread reading =>
      rw [LockedObject.step] at step
      split at step
      next => cases step
      next held inside =>
        obtain ⟨reads, step⟩ := Option.ite_none_right_eq_some.mp step
        obtain ⟨⟨place, data⟩, accessed, rfl⟩ := Option.map_eq_some_iff.mp step
        exact .access inside reads accessed
  | leave thread =>
      rw [LockedObject.step] at step
      split at step
      next => cases step
      next held inside =>
        obtain ⟨result, finished, rfl⟩ := Option.map_eq_some_iff.mp step
        exact .leave inside finished
  | outside event =>
      obtain ⟨outside, changed, rfl⟩ := Option.map_eq_some_iff.mp step
      exact .outside changed

namespace Serial

theorem enter (serial : Serial object state image)
    {mutex : SharedMutex Thread} (free : state.inside thread = none)
    (acquired : state.mutex.acquire thread (object.mode operation) =
      some mutex) :
    Serial object { state with
      mutex := mutex
      inside := Function.update state.inside thread
        (some ⟨operation, object.enter operation, []⟩) } image := by
  have unheld : object.modes state.inside thread = none := by
    rw [modes, free]
    rfl
  have excludes := serial.excludes.acquire unheld acquired
  have unwritten : state.mutex.writer = none := by
    cases mode : object.mode operation with
    | exclusive =>
        rw [mode] at acquired
        exact (Option.ite_none_right_eq_some.mp acquired).1.1
    | shared =>
        rw [mode] at acquired
        exact (Option.ite_none_right_eq_some.mp acquired).1
  have same := serial.settled unwritten
  refine ⟨?_, fun other held inside => ?_, fun _ => same⟩
  · rw [modes_update]
    exact excludes
  · dsimp only at inside
    by_cases here : other = thread
    · rw [here, Function.update_self] at inside
      cases inside
      rw [← same]
      rfl
    · rw [Function.update_of_ne here] at inside
      exact serial.ran other held inside

theorem access (serial : Serial object state image)
    {held : Section Operation Place Reading} {outside : Outside}
    (inside : state.inside thread = some held)
    (accessed : object.access held.operation held.place state.data reading =
      some (place, data)) :
    Serial object { state with
      data := data
      outside := outside
      inside := Function.update state.inside thread
        (some { held with
          place := place
          readings := held.readings ++ [reading] }) } image := by
  have modes : object.modes (Function.update state.inside thread
      (some { held with
        place := place
        readings := held.readings ++ [reading] })) =
      object.modes state.inside := by
    rw [modes_update]
    exact Function.update_eq_self_iff.mpr (modes_eq inside).symm
  have ran := (accesses_snoc (serial.ran thread held inside)).trans accessed
  have others : ∀ other, other ≠ thread → ∀ held',
      state.inside other = some held' → data = state.data := by
    intro other different held' inside'
    cases mode : object.mode held.operation with
    | exclusive =>
        cases (serial.alone inside mode different).symm.trans inside'
    | shared => exact object.shares _ _ _ _ _ _ mode accessed
  refine ⟨?_, fun other held' inside' => ?_, fun unwritten => ?_⟩
  · rw [modes]
    exact serial.excludes
  · dsimp only at inside'
    by_cases here : other = thread
    · rw [here, Function.update_self] at inside'
      cases inside'
      exact ran
    · rw [Function.update_of_ne here] at inside'
      rw [others other here held' inside']
      exact serial.ran other held' inside'
  · have reads : object.mode held.operation = .shared := by
      cases mode : object.mode held.operation with
      | shared => rfl
      | exclusive =>
          have holds : object.modes state.inside thread =
              some (object.mode held.operation) := modes_eq inside
          rw [mode, ← serial.excludes.writer, unwritten] at holds
          cases holds
    exact (object.shares _ _ _ _ _ _ reads accessed).trans
      (serial.settled unwritten)

theorem leave (serial : Serial object state image)
    {held : Section Operation Place Reading}
    (inside : state.inside thread = some held) :
    Serial object { state with
      mutex := state.mutex.release thread (object.mode held.operation)
      inside := Function.update state.inside thread none } state.data := by
  have excludes := serial.excludes.release (modes_eq inside)
  refine ⟨?_, fun other held' inside' => ?_, fun _ => rfl⟩
  · rw [modes_update]
    exact excludes
  · dsimp only at inside'
    by_cases here : other = thread
    · rw [here, Function.update_self] at inside'
      cases inside'
    · rw [Function.update_of_ne here] at inside'
      have ran := serial.ran other held' inside'
      cases mode : object.mode held.operation with
      | exclusive => cases (serial.alone inside mode here).symm.trans inside'
      | shared =>
          have unwritten : state.mutex.writer = none := by
            rcases serial.excludes.alone with none | empty
            · exact none
            · have reads := (serial.excludes.reader thread).mpr
                ((modes_eq inside).trans (congrArg some mode))
              rw [empty] at reads
              cases reads
          rw [serial.settled unwritten]
          rw [serial.settled unwritten] at ran
          exact ran

theorem hidden (serial : Serial object state image)
    {label : LockedLabel Thread Operation Reading Event}
    (stepped : Stepped object state label next)
    (unseen : object.completed state label = none) :
    Serial object next image := by
  cases stepped with
  | enter free acquired => exact serial.enter free acquired
  | access inside reads accessed => exact serial.access inside accessed
  | leave inside finished =>
      rw [completed, inside, Option.bind_some, finished] at unseen
      cases unseen
  | outside changed => exact ⟨serial.excludes, serial.ran, serial.settled⟩

theorem visible (serial : Serial object state image)
    {label : LockedLabel Thread Operation Reading Event}
    {call : Call Thread Operation Reading Result}
    (stepped : Stepped object state label next)
    (seen : object.completed state label = some call) :
    object.Calls image call state.data ∧ Serial object next state.data := by
  cases stepped with
  | leave inside finished =>
      rw [completed, inside, Option.bind_some, finished] at seen
      cases seen
      exact ⟨⟨_, serial.ran _ _ inside, finished⟩, serial.leave inside⟩
  | enter | access | outside => cases seen

end Serial

/-- Under its mutex an object is atomic: what its callers get, they could get
from calls that are made one after another, in the order in which they give the
mutex back. -/
theorem serial_simulation
    (object : LockedObject Data Outside Operation Place Reading Result Event)
    (initial : Data → Outside → Prop) :
    Simulation
      (object.lockedSystem initial : TransitionSystem
        (LockedState Thread Data Outside Operation Place Reading)
        (LockedLabel Thread Operation Reading Event))
      (object.atomicSystem fun data => ∃ outside, initial data outside)
      object.completed object.Serial where
  initial := fun state start => by
    obtain ⟨data, outside, isInitial, rfl⟩ := start
    exact ⟨data, ⟨outside, isInitial⟩, .initial data outside⟩
  hidden := fun state label next image _ serial step unseen =>
    serial.hidden (step_cases step) unseen
  visible := fun state label next image call _ serial step seen =>
    ⟨state.data, serial.visible (step_cases step) seen⟩

end LockedObject

end CoUring.Foundation
