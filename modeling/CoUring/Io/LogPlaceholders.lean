import CoUring.Io.Logger

namespace CoUring

open Foundation

universe u

namespace Logger

/-! Formats with placeholders of both kinds. -/

/-- A format as it is meant: a placeholder may have a format specification. -/
inductive Segment
  | literal (character : Char)
  | placeholder (spec : Option Text)
  deriving DecidableEq, Repr

variable {Value : Type u} {segments : List Segment} {format spec : Text}
  {args : List Value}

def Segment.specified : Segment → Bool
  | .literal _ => false
  | .placeholder none => false
  | .placeholder (some _) => true

def literals (text : Text) : List Segment := text.map .literal

inductive Reading
  | text
  | opened
  | spec (spec : Text)
  deriving DecidableEq, Repr

def scanFrom : Reading → Text → List Segment
  | .text, [] => []
  | .opened, [] => [.literal '{']
  | .spec spec, [] => literals ('{' :: ':' :: spec)
  | .text, character :: rest =>
      if character = '{' then scanFrom .opened rest
      else .literal character :: scanFrom .text rest
  | .opened, character :: rest =>
      if character = '}' then .placeholder none :: scanFrom .text rest
      else if character = ':' then scanFrom (.spec []) rest
      else if character = '{' then .literal '{' :: scanFrom .opened rest
      else .literal '{' :: .literal character :: scanFrom .text rest
  | .spec spec, character :: rest =>
      if character = '}' then .placeholder (some spec) :: scanFrom .text rest
      else if character = '{' then
        literals ('{' :: ':' :: spec) ++ scanFrom .opened rest
      else scanFrom (.spec (spec ++ [character])) rest

def scan (format : Text) : List Segment := scanFrom .text format

def placeholders : List Segment → Nat
  | [] => 0
  | .literal _ :: segments => placeholders segments
  | .placeholder _ :: segments => placeholders segments + 1

/-- The argument at the place of each placeholder, the text between them
unchanged. -/
def expected : List Segment → List Value → Ostringstream Value
  | [], _ => []
  | .literal character :: segments, args =>
      .char character :: expected segments args
  | .placeholder _ :: segments, [] => expected segments []
  | .placeholder _ :: segments, value :: args =>
      .value value :: expected segments args

/-! What `format.find` sees of the segments. -/

def piecesOf : List Segment → Pieces Char
  | [] => ⟨[], []⟩
  | .literal character :: segments => (piecesOf segments).prepend [character]
  | .placeholder none :: segments => (piecesOf segments).cut
  | .placeholder (some spec) :: segments =>
      (piecesOf segments).prepend ('{' :: ':' :: spec ++ ['}'])

def Reading.pending : Reading → Text
  | .text => []
  | .opened => ['{']
  | .spec spec => '{' :: ':' :: spec

/-- No brace has been read since the last one opened. -/
def Reading.Closed : Reading → Prop
  | .text => True
  | .opened => True
  | .spec spec => '{' ∉ spec

theorem piecesOf_literals (text : Text) (segments : List Segment) :
    piecesOf (literals text ++ segments) =
      (piecesOf segments).prepend text := by
  induction text with
  | nil => rfl
  | cons character text induction =>
      rw [literals, List.map_cons, List.cons_append, piecesOf, ← literals,
        induction, ← Pieces.prepend_append, List.singleton_append]

theorem pieces_cons {character : Char} (notBrace : character ≠ '{')
    (rest : Text) :
    pieces (character :: rest) = (pieces rest).prepend [character] :=
  splitPairs_cons fun opens => absurd opens notBrace

theorem pieces_opened {character : Char} (notClosing : character ≠ '}')
    (rest : Text) :
    pieces ('{' :: character :: rest) =
      (pieces (character :: rest)).prepend ['{'] :=
  splitPairs_cons fun _ same => notClosing (Option.some.inj same)

theorem pieces_spec (closed : '{' ∉ spec) (rest : Text) :
    pieces ('{' :: ':' :: spec ++ rest) =
      (pieces rest).prepend ('{' :: ':' :: spec) := by
  have noBrace : '{' ∉ ':' :: spec := by
    simpa using closed
  have passed : pieces (':' :: spec ++ rest) =
      (pieces rest).prepend (':' :: spec) := splitPairs_append noBrace
  rw [List.cons_append, List.cons_append, pieces_opened (by decide),
    ← List.cons_append, passed, ← Pieces.prepend_append,
    List.singleton_append]

theorem pieces_scanFrom (reading : Reading) (closed : reading.Closed)
    (rest : Text) :
    pieces (reading.pending ++ rest) = piecesOf (scanFrom reading rest) := by
  -- One case for each line of the scanner.
  fun_induction scanFrom reading rest with
  | case1 => rfl
  | case2 => rfl
  | case3 spec =>
      have passed := pieces_spec closed []
      have scanned := piecesOf_literals ('{' :: ':' :: spec) []
      rw [List.append_nil] at scanned
      exact passed.trans scanned.symm
  | case4 rest induction => exact induction trivial
  | case5 character rest notBrace induction =>
      rw [piecesOf, ← induction trivial]
      exact pieces_cons notBrace rest
  | case6 rest induction =>
      rw [piecesOf, ← induction trivial]
      exact splitPairs_pair '{' '}' rest
  | case7 rest notClosing induction => exact induction List.not_mem_nil
  | case8 rest notClosing notColon induction =>
      rw [piecesOf, ← induction trivial]
      exact pieces_opened notClosing rest
  | case9 character rest notClosing notColon notBrace induction =>
      rw [piecesOf, piecesOf, ← induction trivial]
      exact (pieces_opened notClosing rest).trans
        (congrArg _ (pieces_cons notBrace rest))
  | case10 spec rest induction =>
      have ended : pieces ('}' :: rest) = (pieces rest).prepend ['}'] :=
        pieces_cons (by decide) rest
      rw [piecesOf, ← induction trivial, Pieces.prepend_append]
      exact (pieces_spec closed ('}' :: rest)).trans (congrArg _ ended)
  | case11 spec rest notClosing induction =>
      rw [piecesOf_literals, ← induction trivial]
      exact pieces_spec closed ('{' :: rest)
  | case12 spec character rest notClosing notBrace induction =>
      have longer : '{' ∉ spec ++ [character] := by
        simpa using ⟨closed, Ne.symm notBrace⟩
      rw [← induction longer]
      simp [Reading.pending]

theorem pieces_scan (format : Text) : pieces format = piecesOf (scan format) :=
  pieces_scanFrom .text trivial format

/-! Which arguments are written. -/

def values (oss : Ostringstream Value) : List Value :=
  oss.filterMap fun
    | .char _ => none
    | .value value => some value

theorem values_put (oss : Ostringstream Value) (text : Text) :
    values (oss.put text) = values oss := by
  simp [values, Ostringstream.put]

theorem values_putValue (oss : Ostringstream Value) (value : Value) :
    values (oss.putValue value) = values oss ++ [value] := by
  simp [values, Ostringstream.putValue]

theorem values_foldl (oss : Ostringstream Value) (args : List Value) :
    values (args.foldl (fun oss arg => (oss.putValue arg).put [blank]) oss) =
      values oss ++ args := by
  induction args generalizing oss with
  | nil => simp
  | cons arg args induction =>
      rw [List.foldl_cons, induction, values_put, values_putValue,
        List.append_assoc, List.singleton_append]

/-- All arguments are written but the first one that finds no placeholder. -/
theorem values_formatHelper (oss : Ostringstream Value) (format : Text)
    (args : List Value) :
    values (formatHelper oss format args) = values oss ++
      args.take (pieces format).gaps ++
        (args.drop (pieces format).gaps).tail := by
  induction args generalizing oss format with
  | nil => simp [formatHelper, values_put]
  | cons value args induction =>
      cases found : find format with
      | some pos =>
          simp only [formatHelper, found]
          rw [induction, values_putValue, values_put, pieces_of_found found]
          simp
      | none =>
          simp only [formatHelper, found]
          rw [pieces_of_not_found found]
          split
          next => simp [values_foldl, values_put, Pieces.gaps]
          next none =>
            have empty : args = [] := List.length_eq_zero_iff.mp (by omega)
            simp [values_put, Pieces.gaps, empty]

theorem values_expected (matching : args.length = placeholders segments) :
    values (expected segments args) = args := by
  induction segments generalizing args with
  | nil =>
      obtain rfl := List.length_eq_zero_iff.mp matching
      rfl
  | cons segment segments induction =>
      cases segment with
      | literal character => exact induction matching
      | placeholder spec =>
          cases args with
          | nil => cases matching
          | cons value args =>
              have rest := induction (Nat.succ.inj matching)
              exact congrArg (value :: ·) rest

theorem gaps_piecesOf (segments : List Segment) :
    (piecesOf segments).gaps ≤ placeholders segments ∧
      ((piecesOf segments).gaps = placeholders segments ↔
        ∀ segment ∈ segments, segment.specified = false) := by
  induction segments with
  | nil => simp [piecesOf, placeholders, Pieces.gaps]
  | cons segment segments induction =>
      obtain ⟨bounded, exactly⟩ := induction
      cases segment with
      | literal character =>
          simpa [piecesOf, placeholders, Segment.specified] using
            ⟨bounded, exactly⟩
      | placeholder spec =>
          cases spec with
          | none =>
              simpa [piecesOf, placeholders, Segment.specified] using
                ⟨bounded, exactly⟩
          | some spec =>
              rw [piecesOf, placeholders, Pieces.gaps_prepend]
              refine ⟨by omega, iff_of_false (by omega) ?_⟩
              intro plain
              cases plain _ List.mem_cons_self

theorem expected_of_plain (matching : args.length = placeholders segments)
    (plain : ∀ segment ∈ segments, segment.specified = false) :
    expected segments args =
      ((piecesOf segments).map .char).fill (placeholder.map .char)
        (args.map fun arg => [.value arg]) := by
  induction segments generalizing args with
  | nil => rfl
  | cons segment segments induction =>
      have later : ∀ other ∈ segments, other.specified = false :=
        fun other member => plain other (List.mem_cons_of_mem _ member)
      cases segment with
      | literal character =>
          rw [expected, piecesOf, Pieces.map_prepend, Pieces.fill_prepend,
            induction matching later]
          rfl
      | placeholder spec =>
          cases spec with
          | some spec => cases plain _ List.mem_cons_self
          | none =>
              cases args with
              | nil => cases matching
              | cons value args =>
                  rw [expected, piecesOf, Pieces.map_cut, List.map_cons,
                    Pieces.fill_cut_cons,
                    induction (Nat.succ.inj matching) later]
                  rfl

/-- Every argument stands at its placeholder just when no placeholder has a
format specification: `find` does not see those. -/
theorem placeholders_shown_iff (format : Text) (args : List Value)
    (matching : args.length = placeholders (scan format)) :
    formatHelper [] format args = expected (scan format) args ↔
      ∀ segment ∈ scan format, segment.specified = false := by
  obtain ⟨bounded, exactly⟩ := gaps_piecesOf (scan format)
  rw [← pieces_scan] at bounded exactly
  rw [← exactly]
  constructor
  · intro same
    -- If one were missing, an argument would not be written at all.
    have written := congrArg List.length
      ((congrArg values same).trans (values_expected matching))
    rw [values_formatHelper] at written
    simp [values] at written
    omega
  · intro all
    have fits : args.drop (pieces format).gaps = [] :=
      List.drop_eq_nil_of_le (by omega)
    rw [formatHelper_eq, fits, surplus, List.append_nil, List.nil_append,
      filled, pieces_scan]
    exact (expected_of_plain matching (exactly.mp all)).symm

theorem plain_placeholders_shown :
    formatHelper [] "fd: \x7b\x7d, size: \x7b\x7d".toList [5, 64] =
      expected (scan "fd: \x7b\x7d, size: \x7b\x7d".toList) [5, 64] :=
  (placeholders_shown_iff _ _ (by decide)).mpr (by decide)

/-- The format of `send_awaiter::await_suspend`: the size is not written, its
place shows the coroutine. -/
theorem size_shows_coroutine :
    ∃ (format : Text) (args : List Text),
      args.length = placeholders (scan format) ∧
      (formatHelper [] format args).str id =
        "fd: 5, coroutine: 0x\x7b:016x\x7d, size: 4096".toList ∧
      formatHelper [] format args ≠ expected (scan format) args := by
  refine ⟨"fd: \x7b\x7d, coroutine: 0x\x7b:016x\x7d, size: \x7b\x7d".toList,
    ["5".toList, "4096".toList, "64".toList], ?_, ?_, ?_⟩
  · decide
  · decide
  · decide

end Logger

end CoUring
