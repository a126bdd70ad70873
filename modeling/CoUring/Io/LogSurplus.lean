import CoUring.Io.Logger
import Mathlib.Data.List.TakeWhile

namespace CoUring

open Foundation

universe u

namespace Logger

variable {Value : Type u} {text suffix : Text} {texts rest : List Text}

/-! Arguments for which the format has no placeholder. -/

def IsBlank (text : Text) : Prop := ∀ character ∈ text, character = blank

instance (text : Text) : Decidable (IsBlank text) :=
  inferInstanceAs (Decidable (∀ character ∈ text, character = blank))

/-- The texts in order, with any number of blanks before, between and after
them. -/
inductive Separated : List Text → Text → Prop
  | nil (blanks : Nat) : Separated [] (List.replicate blanks blank)
  | cons (blanks : Nat) (text : Text) {rest : List Text} {suffix : Text}
      (later : Separated rest suffix) :
      Separated (text :: rest) (List.replicate blanks blank ++ text ++ suffix)

/-- The number of texts at the front that show nothing but blanks. -/
def blankRun (texts : List Text) : Nat :=
  (texts.takeWhile fun text => decide (IsBlank text)).length

/-- Dropping the first of these texts goes unseen. -/
def LossUnseen : List Text → Prop
  | [] => True
  | [dropped] => dropped = []
  | dropped :: rest => IsBlank dropped ∧ dropped.length ≤ 1 + blankRun rest

instance (texts : List Text) : Decidable (LossUnseen texts) :=
  match texts with
  | [] => isTrue trivial
  | [dropped] => inferInstanceAs (Decidable (dropped = []))
  | dropped :: next :: rest =>
      inferInstanceAs (Decidable (IsBlank dropped ∧
        dropped.length ≤ 1 + blankRun (next :: rest)))

def shown (texts : List Text) : Text := texts.flatMap (· ++ [blank])

def surplusText : List Text → Text
  | [] => []
  | [_] => []
  | _ :: rest => blank :: shown rest

theorem surplusText_cons (dropped next : Text) (rest : List Text) :
    surplusText (dropped :: next :: rest) = blank :: shown (next :: rest) := rfl

/-! Leading blanks. -/

def leading (text : Text) : Nat := (text.takeWhile (· = blank)).length

theorem isBlank_replicate (blanks : Nat) :
    IsBlank (List.replicate blanks blank) :=
  fun _ member => List.eq_of_mem_replicate member

theorem leading_blank_append (isBlank : IsBlank text) (after : Text) :
    leading (text ++ after) = text.length + leading after := by
  rw [leading, List.takeWhile_append_of_pos, List.length_append, leading]
  intro character member
  exact decide_eq_true (isBlank character member)

theorem leading_blank_cons (text : Text) :
    leading (blank :: text) = 1 + leading text := by
  have single := leading_blank_append (isBlank_replicate 1) text
  exact single

theorem leading_append (notBlank : ¬ IsBlank text) (after : Text) :
    leading (text ++ after) = leading text := by
  rw [leading, List.takeWhile_append, if_neg, leading]
  intro whole
  apply notBlank
  intro character member
  have front := List.takeWhile_prefix (l := text) fun c => decide (c = blank)
  rw [← front.eq_of_length whole] at member
  simpa using List.mem_takeWhile_imp member

theorem isBlank_iff_replicate :
    IsBlank text ↔ text = List.replicate text.length blank :=
  List.eq_replicate_length.symm

theorem Separated.leading_le (separated : Separated texts suffix) :
    leading texts.flatten ≤ leading suffix := by
  induction separated with
  | nil blanks => exact Nat.zero_le _
  | cons blanks text later induction =>
      rw [List.flatten_cons, List.append_assoc,
        leading_blank_append (isBlank_replicate blanks)]
      by_cases isBlank : IsBlank text
      · rw [leading_blank_append isBlank, leading_blank_append isBlank]
        omega
      · rw [leading_append isBlank, leading_append isBlank]
        omega

theorem leading_shown (texts : List Text) :
    leading (shown texts) = blankRun texts + leading texts.flatten := by
  induction texts with
  | nil => rfl
  | cons text rest induction =>
      rw [shown, List.flatMap_cons, ← shown, List.append_assoc,
        List.flatten_cons, blankRun, List.takeWhile_cons]
      by_cases isBlank : IsBlank text
      · rw [leading_blank_append isBlank, leading_blank_append isBlank,
          List.singleton_append, leading_blank_cons, induction, blankRun]
        simp [isBlank]
        omega
      · rw [leading_append isBlank, leading_append isBlank]
        simp [isBlank]

/-! Symbols that are no blanks. -/

def inked (text : Text) : Nat := text.countP (· ≠ blank)

theorem inked_append (before after : Text) :
    inked (before ++ after) = inked before + inked after :=
  List.countP_append

theorem inked_blank_cons (text : Text) :
    inked (blank :: text) = inked text := by
  simp [inked]

theorem inked_eq_zero : inked text = 0 ↔ IsBlank text := by
  simp [inked, IsBlank]

theorem Separated.inked_eq (separated : Separated texts suffix) :
    inked suffix = inked texts.flatten := by
  induction separated with
  | nil blanks => exact inked_eq_zero.mpr (isBlank_replicate blanks)
  | cons blanks text later induction =>
      rw [inked_append, inked_append,
        inked_eq_zero.mpr (isBlank_replicate blanks), induction,
        List.flatten_cons, inked_append, Nat.zero_add]

theorem inked_shown (texts : List Text) :
    inked (shown texts) = inked texts.flatten := by
  induction texts with
  | nil => rfl
  | cons text rest induction =>
      rw [shown, List.flatMap_cons, ← shown, List.append_assoc, inked_append,
        List.singleton_append, inked_blank_cons, induction,
        List.flatten_cons, inked_append]

/-! Blank texts go anywhere. -/

theorem Separated.blanks (separated : Separated texts suffix)
    (blanks : Nat) :
    Separated texts (List.replicate blanks blank ++ suffix) := by
  cases separated with
  | nil more =>
      rw [List.replicate_append_replicate]
      exact .nil _
  | cons more text later =>
      rw [← List.append_assoc, ← List.append_assoc,
        List.replicate_append_replicate]
      exact .cons _ text later

theorem separated_shown (blanks : Nat) (texts : List Text) :
    Separated texts (List.replicate blanks blank ++ shown texts) := by
  induction texts generalizing blanks with
  | nil => exact .blanks (.nil 0) blanks
  | cons text rest induction =>
      rw [shown, List.flatMap_cons, ← shown, List.append_assoc,
        ← List.append_assoc]
      exact .cons blanks text (induction 1)

theorem Separated.front (front : List Text)
    (separated : Separated rest suffix) :
    Separated (front ++ rest) (front.flatten ++ suffix) := by
  induction front with
  | nil => exact separated
  | cons text front induction =>
      rw [List.flatten_cons, List.append_assoc]
      exact .cons 0 text induction

theorem shown_append (before after : List Text) :
    shown (before ++ after) = shown before ++ shown after :=
  List.flatMap_append

theorem length_shown (texts : List Text) :
    (shown texts).length = texts.flatten.length + texts.length := by
  induction texts with
  | nil => rfl
  | cons text rest induction =>
      rw [shown, List.flatMap_cons, ← shown]
      simp [induction]
      omega

theorem isBlank_append {before after : Text} (first : IsBlank before)
    (second : IsBlank after) : IsBlank (before ++ after) :=
  fun character member => (List.mem_append.mp member).elim
    (first character) (second character)

theorem isBlank_flatten (areBlank : ∀ text ∈ texts, IsBlank text) :
    IsBlank texts.flatten := by
  intro character member
  obtain ⟨text, inside, within⟩ := List.mem_flatten.mp member
  exact areBlank text inside character within

theorem isBlank_shown (areBlank : ∀ text ∈ texts, IsBlank text) :
    IsBlank (shown texts) := by
  intro character member
  obtain ⟨text, inside, within⟩ := List.mem_flatMap.mp member
  exact isBlank_append (areBlank text inside) (isBlank_replicate 1) character
    within

theorem isBlank_eq {before after : Text} (first : IsBlank before)
    (second : IsBlank after) (same : before.length = after.length) :
    before = after := by
  rw [isBlank_iff_replicate.mp first, isBlank_iff_replicate.mp second, same]

/-- The blanks that are written make room for a short blank text. -/
theorem separated_blank {dropped : Text} (isBlank : IsBlank dropped)
    (short : dropped.length ≤ 1 + blankRun rest) :
    Separated (dropped :: rest) (blank :: shown rest) := by
  let front := rest.takeWhile fun text => decide (IsBlank text)
  let others := rest.dropWhile fun text => decide (IsBlank text)
  have split : front ++ others = rest := List.takeWhile_append_dropWhile
  have areBlank : ∀ text ∈ front, IsBlank text := fun text member => by
    simpa using List.mem_takeWhile_imp member
  have room : blank :: shown front = (dropped :: front).flatten ++
      List.replicate (1 + front.length - dropped.length) blank := by
    apply isBlank_eq
    · exact isBlank_append (isBlank_replicate 1) (isBlank_shown areBlank)
    · apply isBlank_append _ (isBlank_replicate _)
      apply isBlank_flatten
      intro text member
      obtain rfl | member := List.mem_cons.mp member
      · exact isBlank
      · exact areBlank text member
    · have bounded : dropped.length ≤ 1 + front.length := short
      simp only [List.length_cons, List.length_append, length_shown,
        List.flatten_cons, List.length_replicate]
      omega
  rw [← split, shown_append, ← List.cons_append, ← List.cons_append, room,
    List.append_assoc]
  exact (separated_shown _ others).front (dropped :: front)

theorem separated_surplusText_iff (texts : List Text) :
    Separated texts (surplusText texts) ↔ LossUnseen texts := by
  match texts with
  | [] => exact iff_of_true (.nil 0) trivial
  | [dropped] =>
      constructor
      · intro separated
        rw [surplusText] at separated
        generalize shownNothing : ([] : Text) = suffix at separated
        cases separated with
        | cons blanks _ later =>
            have empty := List.append_eq_nil_iff.mp shownNothing.symm
            exact (List.append_eq_nil_iff.mp empty.1).2
      · rintro rfl
        exact .cons 0 [] (.nil 0)
  | dropped :: next :: rest =>
      constructor
      · intro separated
        -- No symbol may be missing, so only blanks were dropped.
        have ink := separated.inked_eq
        rw [surplusText_cons, inked_blank_cons, inked_shown,
          List.flatten_cons (l := dropped), inked_append] at ink
        have isBlank : IsBlank dropped := inked_eq_zero.mp (by omega)
        have front := separated.leading_le
        rw [surplusText_cons, leading_blank_cons, leading_shown,
          List.flatten_cons (l := dropped),
          leading_blank_append isBlank] at front
        exact ⟨isBlank, by omega⟩
      · rintro ⟨isBlank, short⟩
        exact separated_blank isBlank short

theorem str_surplus (write : Value → Text) (args : List Value) :
    Ostringstream.str write (surplus args) = surplusText (args.map write) := by
  match args with
  | [] => rfl
  | [_] => rfl
  | dropped :: next :: rest =>
      simp [surplus, surplusText, shown, Ostringstream.str, Emitted.text,
        List.flatMap_map, List.flatMap_assoc]

theorem formatHelper_str (write : Value → Text) (format : Text)
    (args : List Value) :
    (formatHelper [] format args).str write =
      (pieces format).fill placeholder
        ((args.take (pieces format).gaps).map write) ++
        surplusText ((args.drop (pieces format).gaps).map write) := by
  rw [formatHelper_eq, str_append, List.nil_append, str_filled, str_surplus,
    List.map_take, Pieces.fill_take]

/-- With more arguments than placeholders, the first one left over is not
written. -/
theorem surplus_arguments_iff (write : Value → Text) (format : Text)
    (args : List Value) :
    (∃ suffix,
      Separated ((args.drop (pieces format).gaps).map write) suffix ∧
      (formatHelper [] format args).str write =
        (pieces format).fill placeholder
          ((args.take (pieces format).gaps).map write) ++ suffix) ↔
      LossUnseen ((args.drop (pieces format).gaps).map write) := by
  rw [← separated_surplusText_iff, formatHelper_str]
  constructor
  · rintro ⟨suffix, separated, same⟩
    rwa [List.append_cancel_left same]
  · intro separated
    exact ⟨_, separated, rfl⟩

theorem surplus_argument_lost :
    ¬ ∀ (format : Text) (args : List Text),
      (pieces format).gaps < args.length →
      ∃ suffix, Separated (args.drop (pieces format).gaps) suffix ∧
        (formatHelper [] format args).str id =
          (pieces format).fill placeholder (args.take (pieces format).gaps) ++
            suffix := by
  intro claimed
  obtain ⟨suffix, separated, output⟩ := claimed ['f', 'd', ':', '{', '}']
    [['3'], ['7'], ['9']] (by decide)
  have written : (formatHelper [] ['f', 'd', ':', '{', '}']
      [['3'], ['7'], ['9']]).str id =
        ['f', 'd', ':', '3'] ++ [' ', '9', ' '] := by decide
  rw [written] at output
  obtain rfl := List.append_cancel_left output
  exact absurd separated.inked_eq (by decide)

end Logger

end CoUring
