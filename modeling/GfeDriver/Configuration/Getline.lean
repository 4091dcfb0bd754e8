import Mathlib.Data.List.Basic

/-!
# Splitting an option value with `std::getline`

`Configuration::initialise` reads the value of `--blacklist` through a `stringstream` with
`while(getline(ss, algorithm, ','))`. A call extracts characters up to the first `','`, which
it extracts and drops, or up to the end of the stream; it fails, ending the loop, only when it
extracts nothing at all. So a trailing `','` opens no further field, while an empty field
between two commas, or before a first comma, is read.

`readFields` is the loop. Its fields are characterised by how they render the string back
(`readFields_eq_iff`): each field but possibly the last is followed by a `','`, and the last
one, when no `','` follows it, is not empty.
-/

namespace GfeDriver

namespace Configuration

/-- `std::getline(ss, algorithm, ',')` on the characters left in the stream: `none` when
nothing is left, so nothing is extracted and the stream fails; otherwise the characters before
the first `','` and those after it. -/
def getline : List Char → Option (List Char × List Char)
  | [] => none
  | s@(_ :: _) => some (s.takeWhile (· != ','), (s.dropWhile (· != ',')).drop 1)

theorem getline_of_ne_nil {s : List Char} (hs : s ≠ []) :
    getline s = some (s.takeWhile (· != ','), (s.dropWhile (· != ',')).drop 1) := by
  match s, hs with
  | _ :: _, _ => rfl

theorem getline_rest_length {s field rest : List Char} (h : getline s = some (field, rest)) :
    rest.length < s.length := by
  have hs : s ≠ [] := by
    rintro rfl
    cases h
  rw [getline_of_ne_nil hs, Option.some.injEq, Prod.mk.injEq] at h
  rw [← h.2, List.length_drop]
  have : (s.dropWhile (· != ',')).length ≤ s.length := (List.dropWhile_suffix _).length_le
  have := List.length_pos.2 hs
  omega

/-- The fields `while(getline(ss, algorithm, ','))` reads from the characters `s`, in order. -/
def readFields (s : List Char) : List (List Char) :=
  match h : getline s with
  | none => []
  | some (field, rest) => field :: readFields rest
termination_by s.length
decreasing_by exact getline_rest_length h

/-- What one successful call extracts: a comma-free field, then the `','` that ends it, or the
end of the stream after a field that is not empty. -/
theorem getline_eq_some {s field rest : List Char} (h : getline s = some (field, rest)) :
    ',' ∉ field ∧ (s = field ++ ',' :: rest ∨ (s = field ∧ rest = [] ∧ field ≠ [])) := by
  have hs : s ≠ [] := by
    rintro rfl
    cases h
  rw [getline_of_ne_nil hs, Option.some.injEq, Prod.mk.injEq] at h
  obtain ⟨rfl, rfl⟩ := h
  refine ⟨fun hc => by simpa using List.mem_takeWhile_imp hc, ?_⟩
  have hsplit := List.takeWhile_append_dropWhile (· != ',') s
  cases hd : s.dropWhile (· != ',') with
  | nil =>
    rw [hd, List.append_nil] at hsplit
    exact .inr ⟨hsplit.symm, rfl, by rwa [hsplit]⟩
  | cons c r =>
    have hc := List.head_dropWhile_not (· != ',') s (by simp [hd])
    simp only [hd, List.head_cons, bne_eq_false_iff_eq] at hc
    rw [hd, hc] at hsplit
    exact .inl hsplit.symm

/-- A field is comma-free; `renderFields ts` writes each field followed by its `','`. -/
def renderFields (ts : List (List Char)) : List Char := (ts.map (· ++ [','])).flatten

@[simp] theorem renderFields_nil : renderFields [] = [] := rfl

@[simp] theorem renderFields_cons (t : List Char) (ts : List (List Char)) :
    renderFields (t :: ts) = t ++ ',' :: renderFields ts := by
  simp [renderFields]

theorem getline_field {t : List Char} (ht : ',' ∉ t) (rest : List Char) :
    getline (t ++ ',' :: rest) = some (t, rest) := by
  have hpos : ∀ c ∈ t, (c != ',') = true := fun c hc => by
    simpa using fun h : c = ',' => ht (h ▸ hc)
  rw [getline_of_ne_nil (by simp), List.takeWhile_append_of_pos hpos,
    List.dropWhile_append_of_pos hpos]
  simp

theorem getline_last {t : List Char} (ht : ',' ∉ t) (hne : t ≠ []) :
    getline t = some (t, []) := by
  have hpos : ∀ c ∈ t, (c != ',') = true := fun c hc => by
    simpa using fun h : c = ',' => ht (h ▸ hc)
  rw [getline_of_ne_nil hne, Option.some.injEq, Prod.mk.injEq]
  exact ⟨List.takeWhile_eq_self_iff.2 hpos, by rw [List.dropWhile_eq_nil_iff.2 hpos]; rfl⟩

theorem readFields_nil : readFields [] = [] := by
  rw [readFields]
  rfl

theorem readFields_field {t : List Char} (ht : ',' ∉ t) (rest : List Char) :
    readFields (t ++ ',' :: rest) = t :: readFields rest := by
  rw [readFields]
  split <;> simp_all [getline_field ht]

theorem readFields_last {t : List Char} (ht : ',' ∉ t) (hne : t ≠ []) : readFields t = [t] := by
  rw [readFields]
  split <;> simp_all [getline_last ht hne, readFields_nil]

theorem readFields_renderFields {ts : List (List Char)} (hts : ∀ t ∈ ts, ',' ∉ t) (last : List Char) :
    readFields (renderFields ts ++ last) = ts ++ readFields last := by
  induction ts with
  | nil => rfl
  | cons t ts ih =>
    simp only [List.mem_cons, forall_eq_or_imp] at hts
    rw [renderFields_cons, List.append_assoc, List.cons_append, readFields_field hts.1,
      ih hts.2, List.cons_append]

/-- `ts` are the fields `std::getline(ss, t, ',')` yields for the characters `s`, in the words of
its documentation: comma-free fields, each ended by a `','`, but for a last non-empty one that
may end the string instead. -/
def IsFields (s : List Char) (ts : List (List Char)) : Prop :=
  (∀ t ∈ ts, ',' ∉ t) ∧
    (s = renderFields ts ∨ ∃ init t, ts = init ++ [t] ∧ t ≠ [] ∧ s = renderFields init ++ t)

/-- The loop reads exactly the fields the string is made of. -/
theorem readFields_eq_of_isFields {s : List Char} {ts : List (List Char)} (h : IsFields s ts) :
    readFields s = ts := by
  obtain ⟨hts, rfl | ⟨init, t, rfl, hne, rfl⟩⟩ := h
  · simpa [readFields_nil] using readFields_renderFields hts []
  · simp only [List.mem_append, List.mem_singleton] at hts
    rw [readFields_renderFields (fun u hu => hts u (.inl hu)),
      readFields_last (hts t (.inr rfl)) hne]

/-- The fields the loop reads render the string back, by induction on the loop. -/
theorem readFields_spec (s : List Char) :
    (∀ t ∈ readFields s, ',' ∉ t) ∧
      (s = renderFields (readFields s) ∨
        ∃ init t, readFields s = init ++ [t] ∧ t ≠ [] ∧ s = renderFields init ++ t) := by
  induction s using readFields.induct with
  | case1 s h =>
    have hs : s = [] := by
      cases s
      · rfl
      · simp [getline] at h
    subst hs
    simp [readFields_nil]
  | case2 s field rest h ih =>
    obtain ⟨hfield, hs | ⟨hs, hrest, hne⟩⟩ := getline_eq_some h
    · subst hs
      rw [readFields_field hfield]
      obtain ⟨hts, hrest | ⟨init, t, hinit, hne, hrest⟩⟩ := ih
      · exact ⟨by simpa [hfield] using hts, .inl (by rw [renderFields_cons, ← hrest])⟩
      · refine ⟨by simpa [hfield] using hts, .inr ⟨field :: init, t, by rw [hinit]; rfl, hne, ?_⟩⟩
        rw [hrest, renderFields_cons, List.append_assoc, List.cons_append]
    · subst hs
      rw [readFields_last hfield hne]
      exact ⟨by simpa using hfield, .inr ⟨[], s, rfl, hne, rfl⟩⟩

/-- The string the fields come from, seen through the fields: every field is comma-free, and
the string is the fields each followed by a `','`, or so with the last `','` left out when the
last field is not empty. -/
theorem readFields_eq_iff (s : List Char) (ts : List (List Char)) :
    readFields s = ts ↔ (∀ t ∈ ts, ',' ∉ t) ∧
      (s = renderFields ts ∨
        ∃ init t, ts = init ++ [t] ∧ t ≠ [] ∧ s = renderFields init ++ t) := by
  constructor
  · rintro rfl
    exact readFields_spec s
  · exact readFields_eq_of_isFields

end Configuration

end GfeDriver
