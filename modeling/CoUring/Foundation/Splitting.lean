import Mathlib.Data.List.Basic
import Mathlib.Data.List.Infix

namespace CoUring.Foundation

universe u v

/-! Texts cut at the occurrences of a separator of two symbols. -/

/-- What stands before the first separator and what follows each one. -/
structure Pieces (α : Type u) where
  first : List α
  later : List (List α)
  deriving DecidableEq, Repr

namespace Pieces

variable {α : Type u} {β : Type v}

def all (pieces : Pieces α) : List (List α) := pieces.first :: pieces.later

def gaps (pieces : Pieces α) : Nat := pieces.later.length

def prepend (front : List α) (pieces : Pieces α) : Pieces α :=
  { pieces with first := front ++ pieces.first }

def cut (pieces : Pieces α) : Pieces α := ⟨[], pieces.all⟩

def map (f : α → β) (pieces : Pieces α) : Pieces β :=
  ⟨pieces.first.map f, pieces.later.map (List.map f)⟩

/-- The fillers stand for the first separators, the remaining separators for
themselves. -/
def fillLater (separator : List α) :
    List (List α) → List (List α) → List α
  | [], _ => []
  | piece :: later, [] => separator ++ piece ++ fillLater separator later []
  | piece :: later, filler :: fillers =>
      filler ++ piece ++ fillLater separator later fillers

def fill (separator : List α) (pieces : Pieces α)
    (fillers : List (List α)) : List α :=
  pieces.first ++ fillLater separator pieces.later fillers

def join (separator : List α) (pieces : Pieces α) : List α :=
  pieces.fill separator []

variable {separator : List α} {pieces : Pieces α}

@[simp] theorem gaps_cut (pieces : Pieces α) :
    pieces.cut.gaps = pieces.gaps + 1 := rfl

@[simp] theorem gaps_prepend (front : List α) (pieces : Pieces α) :
    (pieces.prepend front).gaps = pieces.gaps := rfl

theorem prepend_append (front back : List α) (pieces : Pieces α) :
    pieces.prepend (front ++ back) = (pieces.prepend back).prepend front := by
  simp [prepend]

@[simp] theorem prepend_nil (pieces : Pieces α) :
    pieces.prepend [] = pieces := rfl

theorem map_prepend (f : α → β) (front : List α) (pieces : Pieces α) :
    (pieces.prepend front).map f = (pieces.map f).prepend (front.map f) := by
  simp [prepend, map]

theorem map_cut (f : α → β) (pieces : Pieces α) :
    pieces.cut.map f = (pieces.map f).cut := rfl

theorem fill_prepend (front : List α) (fillers : List (List α)) :
    (pieces.prepend front).fill separator fillers =
      front ++ pieces.fill separator fillers := by
  simp [fill, prepend]

theorem fill_cut_nil : pieces.cut.fill separator [] =
    separator ++ pieces.fill separator [] := by
  simp [fill, cut, all, fillLater]

theorem fill_cut_cons (filler : List α) (fillers : List (List α)) :
    pieces.cut.fill separator (filler :: fillers) =
      filler ++ pieces.fill separator fillers := by
  simp [fill, cut, all, fillLater]

/-- Fillers beyond the last separator are not used. -/
theorem fill_take (separator : List α) (pieces : Pieces α)
    (fillers : List (List α)) :
    pieces.fill separator (fillers.take pieces.gaps) =
      pieces.fill separator fillers := by
  suffices ∀ later : List (List α),
      fillLater separator later (fillers.take later.length) =
        fillLater separator later fillers by
    rw [fill, fill, gaps, this]
  intro later
  induction later generalizing fillers with
  | nil => rfl
  | cons piece later induction =>
      cases fillers with
      | nil => rfl
      | cons filler fillers =>
          rw [List.length_cons, List.take_succ_cons, fillLater, fillLater,
            induction]

def flatMap (write : α → List β) (pieces : Pieces α) : Pieces β :=
  ⟨pieces.first.flatMap write, pieces.later.map (List.flatMap write)⟩

theorem flatMap_fill (write : α → List β) (separator : List α)
    (pieces : Pieces α) (fillers : List (List α)) :
    (pieces.fill separator fillers).flatMap write =
      (pieces.flatMap write).fill (separator.flatMap write)
        (fillers.map (List.flatMap write)) := by
  suffices ∀ later, (fillLater separator later fillers).flatMap write =
      fillLater (separator.flatMap write) (later.map (List.flatMap write))
        (fillers.map (List.flatMap write)) by
    simp [fill, flatMap, this]
  intro later
  induction later generalizing fillers with
  | nil => rfl
  | cons piece later induction =>
      cases fillers with
      | nil => simp [fillLater, induction []]
      | cons filler fillers => simp [fillLater, induction fillers]

theorem flatMap_map {γ : Type*} (write : β → List γ) (f : α → β)
    (pieces : Pieces α) :
    (pieces.map f).flatMap write = pieces.flatMap fun a => write (f a) := by
  simp [flatMap, map, List.flatMap_map, Function.comp_def]

theorem flatMap_pure (pieces : Pieces α) :
    (pieces.flatMap fun a => [a]) = pieces := by
  have single : List.flatMap (fun a : α => [a]) = id := by
    funext text
    simp
  simp [flatMap, single]

theorem flatMap_singleton (f : α → β) (pieces : Pieces α) :
    (pieces.flatMap fun a => [f a]) = pieces.map f := by
  have single : List.flatMap (fun a => [f a]) = List.map f := by
    funext text
    exact List.map_eq_flatMap.symm
  simp [flatMap, map, single]

theorem map_join (f : α → β) (separator : List α) (pieces : Pieces α) :
    (pieces.join separator).map f =
      (pieces.map f).join (separator.map f) := by
  rw [join, List.map_eq_flatMap, flatMap_fill, flatMap_singleton,
    ← List.map_eq_flatMap, List.map_nil, join]

end Pieces

variable {α : Type u} [DecidableEq α]

/-- Where a text first has the symbol `opening` right before `closing`. -/
def findPair (opening closing : α) : List α → Option Nat
  | [] => none
  | [_] => none
  | symbol :: follower :: rest =>
      if symbol = opening ∧ follower = closing then some 0
      else (findPair opening closing (follower :: rest)).map (· + 1)

/-- The text between the separators, from left to right. -/
def splitPairs (opening closing : α) : List α → Pieces α
  | [] => ⟨[], []⟩
  | [last] => ⟨[last], []⟩
  | symbol :: follower :: rest =>
      if symbol = opening ∧ follower = closing then
        (splitPairs opening closing rest).cut
      else (splitPairs opening closing (follower :: rest)).prepend [symbol]

variable {opening closing : α} {text rest : List α}

theorem splitPairs_pair (opening closing : α) (rest : List α) :
    splitPairs opening closing (opening :: closing :: rest) =
      (splitPairs opening closing rest).cut := by
  rw [splitPairs, if_pos ⟨rfl, rfl⟩]

theorem splitPairs_cons {symbol : α}
    (apart : symbol = opening → rest.head? ≠ some closing) :
    splitPairs opening closing (symbol :: rest) =
      (splitPairs opening closing rest).prepend [symbol] := by
  cases rest with
  | nil => rfl
  | cons follower rest =>
      rw [splitPairs, if_neg]
      rintro ⟨opens, rfl⟩
      exact apart opens rfl

theorem splitPairs_append {front : List α} (closed : opening ∉ front) :
    splitPairs opening closing (front ++ rest) =
      (splitPairs opening closing rest).prepend front := by
  induction front with
  | nil => rfl
  | cons symbol front induction =>
      rw [List.mem_cons, not_or] at closed
      have apart : symbol ≠ opening := Ne.symm closed.1
      rw [List.cons_append, splitPairs_cons fun same => absurd same apart,
        induction closed.2, ← Pieces.prepend_append, List.singleton_append]

theorem splitPairs_of_not_found
    (absent : findPair opening closing text = none) :
    splitPairs opening closing text = ⟨text, []⟩ := by
  induction text with
  | nil => rfl
  | cons symbol rest induction =>
      cases rest with
      | nil => rfl
      | cons follower rest =>
          rw [findPair] at absent
          split at absent
          next => cases absent
          next apart =>
            rw [splitPairs, if_neg apart,
              induction (Option.map_eq_none_iff.mp absent)]
            rfl

theorem splitPairs_of_found {position : Nat}
    (found : findPair opening closing text = some position) :
    splitPairs opening closing text =
      (splitPairs opening closing (text.drop (position + 2))).cut.prepend
        (text.take position) := by
  induction text generalizing position with
  | nil => cases found
  | cons symbol rest induction =>
      cases rest with
      | nil => cases found
      | cons follower rest =>
          rw [findPair] at found
          split at found
          next separator =>
            cases found
            rw [splitPairs, if_pos separator]
            rfl
          next apart =>
            obtain ⟨earlier, later, rfl⟩ := Option.map_eq_some_iff.mp found
            rw [splitPairs, if_neg apart, induction later,
              ← Pieces.prepend_append]
            rfl

theorem join_splitPairs (opening closing : α) (text : List α) :
    (splitPairs opening closing text).join [opening, closing] = text := by
  fun_induction splitPairs opening closing text with
  | case1 => rfl
  | case2 last => rfl
  | case3 symbol follower rest separator induction =>
      rw [Pieces.join, Pieces.fill_cut_nil, ← Pieces.join, induction]
      simp [separator]
  | case4 symbol follower rest apart induction =>
      rw [Pieces.join, Pieces.fill_prepend, ← Pieces.join, induction]
      rfl

theorem first_starts_text (opening closing : α) (text : List α) :
    (splitPairs opening closing text).first <+: text := by
  have joined := join_splitPairs opening closing text
  rw [Pieces.join, Pieces.fill] at joined
  exact ⟨_, joined⟩

theorem splitPairs_free (opening closing : α) (text : List α) :
    ∀ piece ∈ (splitPairs opening closing text).all,
      ¬ [opening, closing] <:+: piece := by
  fun_induction splitPairs opening closing text with
  | case1 => simp [Pieces.all]
  | case2 last =>
      intro piece member inside
      obtain rfl := List.mem_singleton.mp member
      exact absurd inside.length_le (by simp)
  | case3 symbol follower rest separator induction =>
      intro piece member
      obtain rfl | later := List.mem_cons.mp member
      · simp [Pieces.cut]
      · exact induction piece later
  | case4 symbol follower rest apart induction =>
      intro piece member inside
      obtain rfl | later := List.mem_cons.mp member
      · -- The new symbol is not followed by `closing`, and the rest is free.
        obtain front | earlier := List.infix_cons_iff.mp inside
        · obtain ⟨opens, front⟩ := List.cons_prefix_cons.mp front
          have follows := front.trans
            (first_starts_text opening closing (follower :: rest))
          exact apart ⟨opens.symm, (List.cons_prefix_cons.mp follows).1.symm⟩
        · exact induction _ List.mem_cons_self earlier
      · exact induction piece (List.mem_cons_of_mem _ later) inside

/-! Lines: a symbol ends each of them, but perhaps the last one. -/

def linesOf (terminator : α) : List α → List (List α)
  | [] => []
  | symbol :: rest =>
      if symbol = terminator then [] :: linesOf terminator rest
      else
        match linesOf terminator rest with
        | [] => [[symbol]]
        | line :: later => (symbol :: line) :: later

def endLines (terminator : α) (lines : List (List α)) : List α :=
  lines.flatMap (· ++ [terminator])

variable {terminator : α} {lines : List (List α)}

theorem linesOf_append {line : List α} (inside : terminator ∉ line) :
    linesOf terminator (line ++ terminator :: rest) =
      line :: linesOf terminator rest := by
  induction line with
  | nil => rw [List.nil_append, linesOf, if_pos rfl]
  | cons symbol line induction =>
      rw [List.mem_cons, not_or] at inside
      rw [List.cons_append, linesOf, if_neg (Ne.symm inside.1),
        induction inside.2]

theorem not_mem_linesOf {line : List α}
    (member : line ∈ linesOf terminator text) : terminator ∉ line := by
  induction text generalizing line with
  | nil => cases member
  | cons symbol rest induction =>
      rw [linesOf] at member
      split at member
      next =>
        rcases List.mem_cons.mp member with rfl | later
        · exact List.not_mem_nil
        · exact induction later
      next apart =>
        split at member
        next =>
          obtain rfl := List.mem_singleton.mp member
          exact fun same => apart (List.mem_singleton.mp same).symm
        next first later same =>
          rw [same] at induction
          rcases List.mem_cons.mp member with rfl | earlier
          · rw [List.mem_cons, not_or]
            exact ⟨Ne.symm apart, induction (.head _)⟩
          · exact induction (.tail _ earlier)

/-- Lines are read back as they were written if none has the terminator. -/
theorem linesOf_endLines_iff :
    linesOf terminator (endLines terminator lines) = lines ↔
      ∀ line ∈ lines, terminator ∉ line := by
  constructor
  · intro same line member
    rw [← same] at member
    exact not_mem_linesOf member
  · intro inside
    induction lines with
    | nil => rfl
    | cons line lines induction =>
        rw [List.forall_mem_cons] at inside
        rw [endLines, List.flatMap_cons, ← endLines, List.append_assoc,
          List.singleton_append, linesOf_append inside.1, induction inside.2]

end CoUring.Foundation
