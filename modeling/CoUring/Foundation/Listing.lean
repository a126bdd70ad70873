import Mathlib.Data.List.Perm.Basic
import Mathlib.Data.List.Nodup

namespace CoUring.Foundation

universe u

variable {α : Type u}

/-- A list that names each member of a set exactly once. -/
structure Lists (list : List α) (member : α → Prop) : Prop where
  nodup : list.Nodup
  mem_iff : ∀ value, value ∈ list ↔ member value

namespace Lists

variable {list other : List α} {member larger : α → Prop} {added : α}

theorem perm (lists : Lists list member) (same : other.Perm list) :
    Lists other member where
  nodup := same.nodup_iff.mpr lists.nodup
  mem_iff := fun value => same.mem_iff.trans (lists.mem_iff value)

theorem tail {first : α} {rest : List α} (lists : Lists (first :: rest) member) :
    Lists rest fun value => member value ∧ value ≠ first where
  nodup := (List.nodup_cons.mp lists.nodup).2
  mem_iff := fun value => by
    have missing := (List.nodup_cons.mp lists.nodup).1
    constructor
    · intro inRest
      refine ⟨(lists.mem_iff value).mp (List.mem_cons_of_mem _ inRest), ?_⟩
      rintro rfl
      exact missing inRest
    · rintro ⟨isMember, different⟩
      exact (List.mem_cons.mp ((lists.mem_iff value).mpr isMember)).resolve_left
        different

/-! Growing the set by one new member. -/

theorem push (lists : Lists list member) (new : ¬ member added)
    (grows : ∀ value, larger value ↔ member value ∨ value = added) :
    Lists (list ++ [added]) larger where
  nodup := by
    rw [← List.concat_eq_append]
    apply lists.nodup.concat
    intro inList
    exact new ((lists.mem_iff added).mp inList)
  mem_iff := fun value => by
    rw [List.mem_append, List.mem_singleton, lists.mem_iff, grows]

/-- Appending any value lists the larger set just when it is the new member. -/
theorem append_iff (lists : Lists list member) (new : ¬ member added)
    (grows : ∀ value, larger value ↔ member value ∨ value = added)
    (value : α) : Lists (list ++ [value]) larger ↔ value = added := by
  constructor
  · intro listed
    have present := (listed.mem_iff added).mpr ((grows added).mpr (.inr rfl))
    rcases List.mem_append.mp present with inList | inSingle
    · exact absurd ((lists.mem_iff added).mp inList) new
    · exact (List.mem_singleton.mp inSingle).symm
  · rintro rfl
    exact lists.push new grows

/-- Overwriting one entry by the new member lists the larger set just when the
value appended behind it is the entry that was lost. -/
theorem set_append_iff (lists : Lists list member) (new : ¬ member added)
    (grows : ∀ value, larger value ↔ member value ∨ value = added)
    {index : Nat} (bound : index < list.length) (value : α) :
    Lists (list.set index added ++ [value]) larger ↔ value = list[index] := by
  have overwritten := List.set_perm_cons_eraseIdx bound added
  have original := List.getElem_cons_eraseIdx_perm bound
  have lost : list[index] ∉ list.eraseIdx index :=
    (List.nodup_cons.mp (original.nodup_iff.mpr lists.nodup)).1
  have wasMember : member list[index] :=
    (lists.mem_iff _).mp (List.getElem_mem bound)
  constructor
  · intro listed
    have present :=
      (listed.mem_iff list[index]).mpr ((grows _).mpr (.inl wasMember))
    rcases List.mem_append.mp present with inList | inSingle
    · rcases List.mem_cons.mp (overwritten.mem_iff.mp inList) with same | kept
      · exact absurd (same ▸ wasMember) new
      · exact absurd kept lost
    · exact (List.mem_singleton.mp inSingle).symm
  · rintro rfl
    refine (lists.push new grows).perm ?_
    calc
      List.Perm (list.set index added ++ [list[index]])
          (added :: list.eraseIdx index ++ [list[index]]) :=
        overwritten.append_right _
      List.Perm _ (added :: list[index] :: list.eraseIdx index) :=
        (List.perm_append_singleton _ _).cons _
      List.Perm _ (added :: list) := original.cons _
      List.Perm _ (list ++ [added]) := (List.perm_append_singleton _ _).symm

end Lists

/-- A key of its own finds each member of a list. -/
theorem filter_key_eq {κ : Type*} [DecidableEq κ] {list : List α}
    {key : α → κ} (distinct : (list.map key).Nodup) {value : α}
    (member : value ∈ list) :
    list.filter (fun other => key other = key value) = [value] := by
  obtain ⟨before, after, rfl⟩ := List.append_of_mem member
  rw [List.map_append, List.map_cons] at distinct
  have once := (List.nodup_cons.mp (List.nodup_middle.mp distinct)).1
  rw [← List.map_append] at once
  have others : ∀ other ∈ before ++ after, key other ≠ key value := by
    intro other member same
    exact once (List.mem_map.mpr ⟨other, member, same⟩)
  rw [List.filter_append, List.filter_cons_of_pos (by simp),
    List.filter_eq_nil_iff.mpr, List.filter_eq_nil_iff.mpr, List.nil_append]
  · intro other member
    simpa using others other (List.mem_append_right _ member)
  · intro other member
    simpa using others other (List.mem_append_left _ member)

/-! Prefixes. -/

/-- A value of a list continues a prefix just when all that stands before the
value is in the prefix already. -/
theorem prefix_snoc_iff {before after front : List α} {value : α}
    (distinct : (before ++ value :: after).Nodup)
    (isPrefix : front <+: before ++ value :: after)
    (new : value ∉ front) :
    front ++ [value] <+: before ++ value :: after ↔ before ⊆ front := by
  have once : value ∉ before ++ after :=
    (List.nodup_cons.mp (List.nodup_middle.mp distinct)).1
  constructor
  · rintro ⟨tail, continues⟩
    rw [List.append_assoc, List.singleton_append] at continues
    have same := ((List.append_cons_inj_of_notMem
      (fun earlier => once (List.mem_append_left _ earlier))
      fun later => once (List.mem_append_right _ later)).mp continues.symm).1
    rw [same]
    exact fun _ member => member
  · intro covered
    have same : front = before := by
      rcases List.prefix_or_prefix_of_prefix isPrefix
          (List.prefix_append before (value :: after)) with shorter | longer
      · have fits : before.Subperm front :=
          List.subperm_of_subset (List.nodup_append.mp distinct).1 covered
        exact shorter.eq_of_length_le fits.length_le
      · obtain ⟨tail, rfl⟩ := longer
        rw [List.prefix_append_right_inj, List.prefix_cons_iff] at isPrefix
        rcases isPrefix with rfl | ⟨tail', rfl, -⟩
        · exact List.append_nil _
        · exact absurd (by simp) new
    rw [same]
    exact ⟨after, by simp⟩

/-- Where the keys of two lists agree, so does what they decide. -/
theorem prefix_map_of_keys {β κ γ : Type*} {front : List α} {list : List β}
    {key : α → κ} {key' : β → κ} {value : α → γ} {value' : β → γ}
    (keys : front.map key <+: list.map key')
    (agree : ∀ left ∈ front, ∀ right ∈ list, key left = key' right →
      value left = value' right) :
    front.map value <+: list.map value' := by
  induction front generalizing list with
  | nil => exact List.nil_prefix
  | cons left front induction =>
      cases list with
      | nil => simp at keys
      | cons right list =>
          simp only [List.map_cons, List.cons_prefix_cons] at keys ⊢
          refine ⟨agree left (by simp) right (by simp) keys.1,
            induction keys.2 fun left member right member' => ?_⟩
          exact agree left (.tail _ member) right (.tail _ member')

end CoUring.Foundation
