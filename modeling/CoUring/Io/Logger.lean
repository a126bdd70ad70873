import CoUring.Foundation.Splitting

namespace CoUring

open Foundation

universe u

/-! `Logger::formatHelper`. -/

/-- A `std::string` by its characters. -/
abbrev Text := List Char

/-- One thing written to the stream: a character of the format, or an argument
with whatever its `operator<<` writes. -/
inductive Emitted (Value : Type u)
  | char (character : Char)
  | value (value : Value)
  deriving DecidableEq, Repr

def Emitted.text {Value : Type u} (write : Value → Text) :
    Emitted Value → Text
  | .char character => [character]
  | .value argument => write argument

abbrev Ostringstream (Value : Type u) := List (Emitted Value)

namespace Ostringstream

variable {Value : Type u}

def put (oss : Ostringstream Value) (text : Text) : Ostringstream Value :=
  oss ++ text.map .char

def putValue (oss : Ostringstream Value) (value : Value) :
    Ostringstream Value :=
  oss ++ [.value value]

def str (write : Value → Text) (oss : Ostringstream Value) : Text :=
  oss.flatMap (Emitted.text write)

end Ostringstream

def blank : Char := ' '

namespace Logger

variable {Value : Type u}

def find (format : Text) : Option Nat := findPair '{' '}' format

/-- The arguments left when the format has no placeholder any more: one of
them is already split off as `value`. -/
def formatHelper (oss : Ostringstream Value) (format : Text) :
    List Value → Ostringstream Value
  | [] => oss.put format
  | value :: args =>
      match find format with
      | some pos =>
          formatHelper ((oss.put (format.take pos)).putValue value)
            (format.drop (pos + 2)) args
      | none =>
          let oss := oss.put format
          if args.length > 0 then
            args.foldl (fun oss arg => (oss.putValue arg).put [blank])
              (oss.put [blank])
          else oss

variable {oss : Ostringstream Value} {format : Text}
  {args : List Value} {write : Value → Text}

def placeholder : Text := ['{', '}']

def pieces (format : Text) : Pieces Char := splitPairs '{' '}' format

/-! The output, for any number of arguments. -/

/-- The placeholders are filled with the arguments as far as they go. -/
def filled (format : Text) (args : List Value) : Ostringstream Value :=
  ((pieces format).map .char).fill (placeholder.map .char)
    (args.map fun arg => [.value arg])

def surplus : List Value → Ostringstream Value
  | [] => []
  | [_] => []
  | _ :: rest => .char blank :: rest.flatMap fun arg =>
      [.value arg, .char blank]

theorem pieces_of_not_found (absent : find format = none) :
    pieces format = ⟨format, []⟩ :=
  splitPairs_of_not_found absent

theorem pieces_of_found {pos : Nat} (found : find format = some pos) :
    pieces format = (pieces (format.drop (pos + 2))).cut.prepend
      (format.take pos) :=
  splitPairs_of_found found

theorem filled_nil (format : Text) :
    filled format ([] : List Value) = format.map .char := by
  rw [filled, List.map_nil, ← Pieces.join, placeholder, pieces,
    ← Pieces.map_join, join_splitPairs]

theorem filled_of_found {pos : Nat} (found : find format = some pos)
    (value : Value) (args : List Value) :
    filled format (value :: args) = (format.take pos).map .char ++
      .value value :: filled (format.drop (pos + 2)) args := by
  rw [filled, pieces_of_found found, Pieces.map_prepend, Pieces.fill_prepend,
    Pieces.map_cut, List.map_cons, Pieces.fill_cut_cons]
  rfl

theorem foldl_surplus (oss : Ostringstream Value) (args : List Value) :
    args.foldl (fun oss arg => (oss.putValue arg).put [blank]) oss =
      oss ++ args.flatMap fun arg => [.value arg, .char blank] := by
  induction args generalizing oss with
  | nil => simp
  | cons arg args induction =>
      rw [List.foldl_cons, induction]
      simp [Ostringstream.put, Ostringstream.putValue]

theorem formatHelper_eq (oss : Ostringstream Value) (format : Text)
    (args : List Value) :
    formatHelper oss format args = oss ++ filled format args ++
      surplus (args.drop (pieces format).gaps) := by
  induction args generalizing oss format with
  | nil => simp [formatHelper, filled_nil, Ostringstream.put, surplus]
  | cons value args induction =>
      cases found : find format with
      | some pos =>
          simp only [formatHelper, found]
          rw [induction, filled_of_found found, pieces_of_found found]
          simp [Ostringstream.put, Ostringstream.putValue]
      | none =>
          simp only [formatHelper, found]
          rw [foldl_surplus, filled, pieces_of_not_found found]
          cases args with
          | nil => simp [Ostringstream.put, surplus, Pieces.gaps, Pieces.fill,
              Pieces.fillLater, Pieces.map]
          | cons next args =>
              simp [Ostringstream.put, surplus, Pieces.gaps, Pieces.fill,
                Pieces.fillLater, Pieces.map]

theorem str_append (write : Value → Text)
    (before after : Ostringstream Value) :
    (Ostringstream.str write (before ++ after)) =
      before.str write ++ after.str write :=
  List.flatMap_append

theorem str_filled (write : Value → Text) (format : Text)
    (args : List Value) :
    (filled format args).str write =
      (pieces format).fill placeholder (args.map write) := by
  have texts : (args.map fun arg => [Emitted.value arg]).map
      (List.flatMap (Emitted.text write)) = args.map write := by
    simp [Emitted.text, Function.comp_def]
  rw [Ostringstream.str, filled, Pieces.flatMap_fill, Pieces.flatMap_map,
    texts]
  simp only [Emitted.text, Pieces.flatMap_pure]
  rfl

/-- The first placeholders are replaced in order, and nothing else changes. -/
theorem formatHelper_positional (write : Value → Text) (format : Text)
    (args : List Value) (enough : args.length ≤ (pieces format).gaps) :
    (pieces format).join placeholder = format ∧
      (∀ piece ∈ (pieces format).all, ¬ placeholder <:+: piece) ∧
      (formatHelper [] format args).str write =
        (pieces format).fill placeholder (args.map write) := by
  refine ⟨join_splitPairs _ _ _, splitPairs_free _ _ _, ?_⟩
  rw [formatHelper_eq, List.drop_eq_nil_of_le enough, surplus, List.append_nil,
    List.nil_append, str_filled]

/-- An argument that looks like a placeholder, in a format with one left
over. -/
theorem braces_in_argument :
    (formatHelper [] ['{', '{', '}', '}', ' ', '{', '}', '{']
      [['{', '}', 'a']]).str id =
        ['{', '{', '}', 'a', '}', ' ', '{', '}', '{'] :=
  (formatHelper_positional id ['{', '{', '}', '}', ' ', '{', '}', '{']
    [['{', '}', 'a']] (by decide)).2.2.trans (by decide)

end Logger

end CoUring
