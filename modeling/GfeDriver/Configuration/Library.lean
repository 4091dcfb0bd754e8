import Mathlib.Data.List.Sort
import Mathlib.Data.String.Basic

/-!
# The `--library` option and its help text

`libraries_help_screen()` writes `The library to evaluate: ` and then the names of
`library::implementations()`, sorted by name with `std::sort`, each after `", "` but the first:
a `first` flag, not the length of the text, decides the separator, so an empty name is listed
too. `Configuration::initialise` lower-cases the value of `--library` with `::tolower` and takes
the first implementation of that name; it raises an error when the option is missing or when no
implementation has the name.

Sorted lists of the same names are equal, so the help text is the names in ascending order
whatever order `std::sort` leaves implementations of equal names in
(`librariesHelpScreen_spec`).
-/

namespace GfeDriver

namespace Configuration

/-- The part of an entry of `library::implementations()` these functions read: `m_name`. -/
structure Implementation where
  mName : String

/-- What `std::sort` promises of the implementations ordered by `lib1.m_name < lib2.m_name`: a
permutation in which no name is below the one before it. -/
def SortResult (libs sorted : List Implementation) : Prop :=
  sorted.Perm libs ∧ sorted.Sorted fun lib1 lib2 => ¬lib2.mName < lib1.mName

/-- One pass of the loop of `libraries_help_screen`: `", "` unless `first`, then `l.m_name`. -/
def helpScreenStep (acc : Bool × String) (l : Implementation) : Bool × String :=
  (false, (if acc.1 then acc.2 else acc.2 ++ ", ") ++ l.mName)

/-- `libraries_help_screen()` on the implementations as `sort` left them. -/
def librariesHelpScreen (sorted : List Implementation) : String :=
  (sorted.foldl helpScreenStep (true, "The library to evaluate: ")).2

/-- `transform(begin(library_name), end(library_name), begin(library_name), ::tolower)`. -/
def lowerCase (s : String) : String := ⟨s.data.map Char.toLower⟩

/-- The `--library` branch of `Configuration::initialise`: the `m_name` it selects, or the text
of the error it raises. -/
def libraryOption (libs : List Implementation) (library : Option String) : Except String String :=
  match library with
  | none => .error "Missing mandatory argument --library. Which library do you want to evaluate??"
  | some value =>
    match libs.find? fun candidate => lowerCase value == candidate.mName with
    | none => .error ("Library not recognised: `" ++ value ++ "'")
    | some found => .ok found.mName

theorem intercalate_go_append (p acc : String) (l : List String) :
    String.intercalate.go (p ++ acc) ", " l = p ++ String.intercalate.go acc ", " l := by
  induction l generalizing acc with
  | nil => rfl
  | cons s l ih =>
    rw [String.intercalate.go, String.intercalate.go, String.append_assoc, String.append_assoc,
      ← String.append_assoc acc, ih]

theorem foldl_helpScreenStep (acc : String) (libs : List Implementation) :
    (libs.foldl helpScreenStep (false, acc)).2 =
      String.intercalate.go acc ", " (libs.map (·.mName)) := by
  induction libs generalizing acc with
  | nil => rfl
  | cons l libs ih => exact ih _

/-- The help text is the names joined by `", "`, empty names included. -/
theorem librariesHelpScreen_eq (sorted : List Implementation) :
    librariesHelpScreen sorted =
      "The library to evaluate: " ++ ", ".intercalate (sorted.map (·.mName)) := by
  cases sorted with
  | nil => rfl
  | cons l libs =>
    rw [librariesHelpScreen, List.foldl_cons, helpScreenStep, if_pos rfl, foldl_helpScreenStep,
      intercalate_go_append]
    rfl

/-- `libraries_help_screen()` lists the names of all implementations in ascending order, joined
by `", "`, whichever order `std::sort` leaves implementations of equal names in. -/
theorem librariesHelpScreen_spec (libs sorted : List Implementation) (h : SortResult libs sorted) :
    librariesHelpScreen sorted = "The library to evaluate: " ++
      ", ".intercalate ((libs.map (·.mName)).mergeSort fun a b => decide (a ≤ b)) := by
  have hnames : (sorted.map (·.mName)).Sorted (· ≤ ·) :=
    List.pairwise_map.2 (h.2.imp fun hab => not_lt.1 hab)
  have hmerge := @List.sorted_mergeSort _ (fun a b : String => decide (a ≤ b))
    (fun a b c hab hbc => by simp only [decide_eq_true_eq] at *; exact le_trans hab hbc)
    (fun a b => by simpa using le_total a b) (libs.map (·.mName))
  have hperm : (sorted.map (·.mName)).Perm
      ((libs.map (·.mName)).mergeSort fun a b => decide (a ≤ b)) :=
    (h.1.map _).trans (List.mergeSort_perm _ _).symm
  rw [librariesHelpScreen_eq, List.eq_of_perm_of_sorted hperm hnames (by simpa using hmerge)]

theorem librariesHelpScreen_spec_two :
    SortResult [⟨"stinger"⟩, ⟨"llama"⟩] [⟨"llama"⟩, ⟨"stinger"⟩] ∧
      librariesHelpScreen [⟨"llama"⟩, ⟨"stinger"⟩] =
        "The library to evaluate: " ++ ", ".intercalate
          ((([⟨"stinger"⟩, ⟨"llama"⟩] : List Implementation).map (·.mName)).mergeSort
            fun a b => decide (a ≤ b)) := by
  have h : SortResult [⟨"stinger"⟩, ⟨"llama"⟩] [⟨"llama"⟩, ⟨"stinger"⟩] :=
    ⟨List.Perm.swap _ _ _, List.sorted_cons.2
      ⟨by simp only [List.mem_singleton, forall_eq]; rw [not_lt, String.le_iff_toList_le]; decide,
        List.sorted_singleton _⟩⟩
  exact ⟨h, librariesHelpScreen_spec _ _ h⟩

end Configuration

end GfeDriver
