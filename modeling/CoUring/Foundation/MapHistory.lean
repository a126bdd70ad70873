import Mathlib.Data.List.Induction
import Mathlib.Data.List.Nodup
import Mathlib.Logic.Function.Basic

namespace CoUring.Foundation

universe u v w

/-- A change of a map; erasures have causes. -/
inductive MapEvent (Key : Type u) (Value : Type v) (Cause : Type w)
  | insert (key : Key) (value : Value)
  | erase (cause : Cause) (key : Key)
  deriving DecidableEq, Repr

namespace MapEvent

variable {Key : Type u} {Value : Type v} {Cause : Type w}
  {events : List (MapEvent Key Value Cause)}
  {event : MapEvent Key Value Cause} {key other : Key} {value : Value}

/-- The value is what was inserted under the key last, and the key was not
erased since. -/
def Present (events : List (MapEvent Key Value Cause)) (key : Key)
    (value : Value) : Prop :=
  ∃ front back, events = front ++ .insert key value :: back ∧
    ∀ cause, .erase cause key ∉ back

def inserted (events : List (MapEvent Key Value Cause)) : List Key :=
  events.filterMap fun
    | .insert key _ => some key
    | .erase _ _ => none

theorem inserted_append (more : List (MapEvent Key Value Cause)) :
    inserted (events ++ more) = inserted events ++ inserted more :=
  List.filterMap_append

theorem Present.inserted (present : Present events key value) :
    key ∈ inserted events := by
  obtain ⟨front, back, rfl, -⟩ := present
  rw [inserted_append]
  exact List.mem_append_right _ (.head _)

theorem present_append_iff :
    Present (events ++ [event]) key value ↔
      event = .insert key value ∨
        Present events key value ∧ ∀ cause, event ≠ .erase cause key := by
  constructor
  · rintro ⟨front, back, split, kept⟩
    rcases List.eq_nil_or_concat back with rfl | ⟨back, last, rfl⟩
    · obtain ⟨-, same⟩ := List.append_inj' split rfl
      exact .inl (List.singleton_inj.mp same)
    · rw [List.concat_eq_append] at split kept
      rw [← List.cons_append, ← List.append_assoc] at split
      obtain ⟨earlier, same⟩ := List.append_inj' split rfl
      obtain rfl := List.singleton_inj.mp same
      refine .inr ⟨⟨front, back, earlier, fun cause member => ?_⟩,
        fun cause same => ?_⟩
      · exact kept cause (List.mem_append_left _ member)
      · exact kept cause (List.mem_append_right _ (List.mem_singleton.mpr
          same.symm))
  · rintro (rfl | ⟨⟨front, back, rfl, kept⟩, different⟩)
    · exact ⟨events, [], rfl, fun _ => List.not_mem_nil⟩
    · refine ⟨front, back ++ [event], by simp, fun cause member => ?_⟩
      rcases List.mem_append.mp member with earlier | last
      · exact kept cause earlier
      · exact different cause (List.mem_singleton.mp last).symm

variable [DecidableEq Key]

def apply (contents : Key → Option Value) :
    MapEvent Key Value Cause → Key → Option Value
  | .insert key value => Function.update contents key (some value)
  | .erase _ key => Function.update contents key none

def contents (events : List (MapEvent Key Value Cause)) :
    Key → Option Value :=
  events.foldl apply fun _ => none

theorem contents_append :
    contents (events ++ [event]) = apply (contents events) event :=
  List.foldl_concat ..

theorem contents_insert :
    contents (events ++ [.insert key value]) other =
      if other = key then some value else contents events other := by
  rw [contents_append, apply, Function.update_apply]

theorem contents_erase (cause : Cause) :
    contents (events ++ [.erase cause key]) other =
      if other = key then none else contents events other := by
  rw [contents_append, apply, Function.update_apply]

theorem contents_erasures (cause : Cause) (keys : List Key) :
    contents (events ++ keys.map (.erase cause)) other =
      if other ∈ keys then none else contents events other := by
  induction keys generalizing events with
  | nil => simp
  | cons key rest induction =>
      rw [List.map_cons, List.append_cons, induction, contents_erase]
      by_cases here : other = key
      · simp [here]
      · simp [here]

/-- Where no key is inserted twice, the map holds what is present. -/
theorem contents_eq_some_iff (distinct : (inserted events).Nodup) :
    contents events key = some value ↔ Present events key value := by
  induction events using List.reverseRecOn with
  | nil =>
      constructor
      · nofun
      · rintro ⟨front, back, split, -⟩
        simp at split
  | append_singleton events event induction =>
      rw [inserted_append] at distinct
      rw [contents_append, present_append_iff,
        ← induction distinct.of_append_left]
      cases event with
      | insert added newest =>
          rw [apply, Function.update_apply]
          split
          next same =>
            subst same
            have absent : contents events key ≠ some value := fun found =>
              List.disjoint_of_nodup_append distinct
                ((induction distinct.of_append_left).mp found).inserted
                (.head _)
            simp [absent]
          next different => simp [Ne.symm different]
      | erase cause erased =>
          rw [apply, Function.update_apply]
          split
          next same => simp [same]
          next different => simp [Ne.symm different]

end MapEvent

end CoUring.Foundation
