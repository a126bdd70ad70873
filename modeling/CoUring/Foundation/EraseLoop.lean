import Mathlib.Data.List.Basic

namespace CoUring.Foundation

universe u

/-- A loop that walks a container with an iterator and erases nodes on its way.
The erasure hands back the iterator of the node that follows; any other node
is stepped over. -/
structure EraseLoop (α : Type u) where
  nodes : List α
  /-- How many nodes stand before the iterator. -/
  iterator : Nat := 0
  erased : Nat := 0
  examined : List α := []

namespace EraseLoop

variable {α : Type u} (test : Nat → α → Bool)

/-- One iteration; `test` is asked the number of the test as well. -/
def step (loop : EraseLoop α) : Option (EraseLoop α) :=
  (loop.nodes[loop.iterator]?).map fun node =>
    if test loop.examined.length node then
      { nodes := loop.nodes.eraseIdx loop.iterator
        iterator := loop.iterator
        erased := loop.erased + 1
        examined := loop.examined ++ [node] }
    else
      { loop with
        iterator := loop.iterator + 1
        examined := loop.examined ++ [node] }

/-- So many iterations, or fewer if the loop ends before. -/
def run : Nat → EraseLoop α → EraseLoop α
  | 0, loop => loop
  | count + 1, loop =>
      match loop.step test with
      | none => loop
      | some next => run count next

/-- The nodes whose own test is false, the first of them tested as number
`first`. -/
def survivors (first : Nat) : List α → List α
  | [] => []
  | node :: rest =>
      if test first node then survivors (first + 1) rest
      else node :: survivors (first + 1) rest

variable {test} {loop : EraseLoop α} {nodes kept rest : List α} {node : α}

/-! The loop between two iterations. -/

/-- The container is what was kept of the nodes examined, then the others. -/
structure Walks (test : Nat → α → Bool) (nodes rest : List α)
    (loop : EraseLoop α) : Prop where
  split : nodes = loop.examined ++ rest
  left : loop.nodes = survivors test 0 loop.examined ++ rest
  iterator : loop.iterator = (survivors test 0 loop.examined).length
  erased : loop.erased + loop.iterator = loop.examined.length

theorem survivors_snoc (test : Nat → α → Bool) (first : Nat)
    (earlier : List α) (node : α) :
    survivors test first (earlier ++ [node]) =
      survivors test first earlier ++
        if test (first + earlier.length) node then [] else [node] := by
  induction earlier generalizing first with
  | nil => rfl
  | cons head earlier induction =>
      have shifted : first + 1 + earlier.length =
          first + (head :: earlier).length := by
        simp only [List.length_cons]
        omega
      simp only [List.cons_append, survivors, induction, shifted]
      split
      · rfl
      · rfl

theorem Walks.start : Walks test nodes nodes { nodes := nodes } where
  split := rfl
  left := rfl
  iterator := rfl
  erased := rfl

theorem Walks.current (walks : Walks test nodes rest loop) :
    loop.nodes[loop.iterator]? = rest[0]? := by
  rw [walks.left, walks.iterator]
  exact (List.getElem?_append_right (Nat.le_refl _)).trans (by simp)

theorem Walks.step (walks : Walks test nodes (node :: rest) loop) :
    ∃ next, loop.step test = some next ∧ Walks test nodes rest next := by
  have current : loop.nodes[loop.iterator]? = some node := walks.current
  refine ⟨_, congrArg (Option.map _) current, ?_⟩
  have snoc := survivors_snoc test 0 loop.examined node
  rw [Nat.zero_add] at snoc
  have split : nodes = (loop.examined ++ [node]) ++ rest := by
    rw [walks.split, List.append_assoc]
    rfl
  have counts := walks.erased
  dsimp only
  split
  next erases =>
    rw [if_pos erases, List.append_nil] at snoc
    refine ⟨split, ?_, ?_, ?_⟩
    · rw [snoc, walks.left, walks.iterator]
      simp [List.eraseIdx_append_of_length_le]
    · rw [snoc]
      exact walks.iterator
    · simp only [List.length_append, List.length_singleton]
      omega
  next keeps =>
    rw [if_neg keeps] at snoc
    refine ⟨split, ?_, ?_, ?_⟩
    · rw [snoc, walks.left, List.append_assoc]
      rfl
    · rw [snoc, List.length_append, ← walks.iterator]
      rfl
    · simp only [List.length_append, List.length_singleton]
      omega

theorem Walks.ended (walks : Walks test nodes [] loop) :
    loop.step test = none := by
  rw [EraseLoop.step, walks.current]
  rfl

/-! Whole loops. -/

theorem Walks.run (walks : Walks test nodes rest loop) (count : Nat)
    (within : count ≤ rest.length) :
    Walks test nodes (rest.drop count) (run test count loop) := by
  induction count generalizing rest loop with
  | zero => exact walks
  | succ count induction =>
      cases rest with
      | nil => cases within
      | cons node rest =>
          obtain ⟨next, stepped, walks'⟩ := walks.step
          rw [EraseLoop.run, stepped]
          apply induction walks'
          exact Nat.le_of_succ_le_succ within

theorem walks_run (test : Nat → α → Bool) (nodes : List α) (count : Nat)
    (within : count ≤ nodes.length) :
    Walks test nodes (nodes.drop count) (run test count { nodes := nodes }) :=
  Walks.start.run count within

/-- The loop ends when every node was tested once, in order, and what it leaves
are the nodes whose own test was false. -/
theorem run_exact (test : Nat → α → Bool) (nodes : List α) :
    let last := run test nodes.length { nodes := nodes }
    last.step test = none ∧ last.examined = nodes ∧
      last.nodes = survivors test 0 nodes ∧
      last.erased + last.nodes.length = nodes.length := by
  have walks := walks_run test nodes nodes.length (Nat.le_refl _)
  rw [List.drop_length] at walks
  have examined := walks.split
  rw [List.append_nil] at examined
  have left := walks.left
  rw [List.append_nil, ← examined] at left
  refine ⟨walks.ended, examined.symm, left, ?_⟩
  have counts := walks.erased
  rw [walks.iterator, ← examined] at counts
  rw [left]
  exact counts

theorem run_goes_on (test : Nat → α → Bool) (nodes : List α) {count : Nat}
    (before : count < nodes.length) :
    ∃ next, (run test count { nodes := nodes }).step test = some next := by
  have walks := walks_run test nodes count (Nat.le_of_lt before)
  rw [List.drop_eq_getElem_cons before] at walks
  obtain ⟨next, stepped, -⟩ := walks.step
  exact ⟨next, stepped⟩

/-! What survives. -/

theorem mem_survivors_iff {first : Nat} :
    node ∈ survivors test first nodes ↔
      ∃ index, nodes[index]? = some node ∧
        test (first + index) node = false := by
  induction nodes generalizing first with
  | nil => simp [survivors]
  | cons head nodes induction =>
      have later : node ∈ survivors test (first + 1) nodes ↔
          ∃ index, (head :: nodes)[index + 1]? = some node ∧
            test (first + (index + 1)) node = false := by
        rw [induction]
        simp only [List.getElem?_cons_succ, Nat.add_assoc, Nat.add_comm 1]
      have splits : (∃ index, (head :: nodes)[index]? = some node ∧
          test (first + index) node = false) ↔
          (head = node ∧ test first node = false) ∨
            node ∈ survivors test (first + 1) nodes := by
        rw [later]
        constructor
        · rintro ⟨_ | index, found, fresh⟩
          · exact .inl ⟨Option.some.inj found, fresh⟩
          · exact .inr ⟨index, found, fresh⟩
        · rintro (⟨rfl, fresh⟩ | ⟨index, found, fresh⟩)
          · exact ⟨0, rfl, fresh⟩
          · exact ⟨index + 1, found, fresh⟩
      rw [splits, survivors]
      split
      next erases =>
        apply Iff.symm
        apply or_iff_right
        rintro ⟨rfl, fresh⟩
        rw [erases] at fresh
        cases fresh
      next keeps =>
        rw [List.mem_cons]
        apply or_congr_left
        constructor
        · rintro rfl
          exact ⟨rfl, by simpa using keeps⟩
        · rintro ⟨rfl, -⟩
          rfl

theorem survivors_sublist {first : Nat} :
    (survivors test first nodes).Sublist nodes := by
  induction nodes generalizing first with
  | nil => exact .slnil
  | cons head nodes induction =>
      rw [survivors]
      split
      · exact induction.cons head
      · exact induction.cons_cons head

theorem survivors_eq_self {first : Nat}
    (fresh : ∀ index node, nodes[index]? = some node →
      test (first + index) node = false) :
    survivors test first nodes = nodes := by
  induction nodes generalizing first with
  | nil => rfl
  | cons head nodes induction =>
      have headFresh : test first head = false := fresh 0 head rfl
      rw [survivors, if_neg (by simp [headFresh])]
      apply congrArg (head :: ·)
      apply induction
      intro index node found
      rw [Nat.add_assoc, Nat.add_comm 1]
      exact fresh (index + 1) node found

end EraseLoop

end CoUring.Foundation
