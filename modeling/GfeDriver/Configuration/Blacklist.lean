import GfeDriver.Configuration.Getline
import Mathlib.Data.List.DropRight
import Mathlib.Data.List.Sort
import Mathlib.Data.String.Basic

/-!
# The algorithm blacklist

`Configuration::initialise` turns the value of `--blacklist` into `m_blacklist`: it reads the
fields with `getline`, erases the leading and the trailing `isspace` characters of each, lower-
cases it, appends it, and sorts the whole vector at the end. `Configuration::blacklist` then
runs `do_blacklist` on the `m_enabled` flag of each of the six Graphalytics algorithms, which
turns the flag off, with a log line, when the algorithm's name is in `m_blacklist`.

The fields are stated as `std::getline` documents them (`IsFields`) and the name of a field as
the option documents it (`IsName`): `trim` and the lower-casing give exactly that name
(`blacklistEntry_of_isName`). From the configuration as constructed, the blacklist step keeps
an algorithm enabled exactly when it was and no field of the option names it
(`initialise_blacklist_disables`).
-/

namespace GfeDriver

/-- The part of `gfe::Configuration` the blacklist reads and writes: `m_blacklist`. -/
structure Configuration where
  mBlacklist : List String

/-- The `m_enabled` flag of each algorithm of `gfe::experiment::GraphalyticsAlgorithms`. -/
structure GraphalyticsAlgorithms where
  bfs : Bool
  cdlp : Bool
  lcc : Bool
  pagerank : Bool
  sssp : Bool
  wcc : Bool

/-- The six algorithms, each known to `Configuration::blacklist` by its lower-case name. -/
inductive Algorithm
  | bfs
  | cdlp
  | lcc
  | pagerank
  | sssp
  | wcc

/-- The name `Configuration::blacklist` passes to `do_blacklist` for the algorithm. -/
def Algorithm.name : Algorithm → String
  | .bfs => "bfs"
  | .cdlp => "cdlp"
  | .lcc => "lcc"
  | .pagerank => "pagerank"
  | .sssp => "sssp"
  | .wcc => "wcc"

/-- Every algorithm, in the order `Configuration::blacklist` visits them. -/
def Algorithm.all : List Algorithm := [.bfs, .cdlp, .lcc, .pagerank, .sssp, .wcc]

/-- The `m_enabled` flag of the algorithm. -/
def GraphalyticsAlgorithms.enabled (algorithms : GraphalyticsAlgorithms) : Algorithm → Bool
  | .bfs => algorithms.bfs
  | .cdlp => algorithms.cdlp
  | .lcc => algorithms.lcc
  | .pagerank => algorithms.pagerank
  | .sssp => algorithms.sssp
  | .wcc => algorithms.wcc

/-- A flag record is determined by its six flags. -/
theorem GraphalyticsAlgorithms.ext_enabled {a b : GraphalyticsAlgorithms}
    (h : ∀ X, a.enabled X = b.enabled X) : a = b := by
  cases a
  cases b
  simp only [GraphalyticsAlgorithms.mk.injEq]
  exact ⟨h .bfs, h .cdlp, h .lcc, h .pagerank, h .sssp, h .wcc⟩

namespace Configuration

/-- `std::isspace` in the "C" locale: space, `\t`, `\n`, `\v`, `\f` and `\r`. -/
def isspace (c : Char) : Bool :=
  c == ' ' || c == '\t' || c == '\n' || c == '\x0B' || c == '\x0C' || c == '\r'

/-- The `// trim` step on one field: erase the leading `isspace` characters, then the
trailing ones. -/
def trim (algorithm : List Char) : List Char :=
  (algorithm.dropWhile isspace).rdropWhile isspace

/-- The `// trim` and `// to lower case` steps on one field: `trim`, then map `std::tolower`,
which in the "C" locale is `Char.toLower`. -/
def blacklistEntry (algorithm : List Char) : String :=
  String.mk ((trim algorithm).map Char.toLower)

/-- `Char.toLower` moves `A` to `Z` up by 32 and fixes every other character. -/
theorem toLower_cases (c : Char) :
    (65 ≤ c.toNat ∧ c.toNat ≤ 90 ∧ c.toLower.toNat = c.toNat + 32) ∨
      (¬(65 ≤ c.toNat ∧ c.toNat ≤ 90) ∧ c.toLower = c) := by
  by_cases h : 65 ≤ c.toNat ∧ c.toNat ≤ 90
  · refine .inl ⟨h.1, h.2, ?_⟩
    rw [Char.toLower, if_pos h, Char.ofNat, dif_pos (Or.inl (by omega))]
    rfl
  · exact .inr ⟨h, if_neg h⟩

theorem toLower_toLower (c : Char) : c.toLower.toLower = c.toLower := by
  rcases toLower_cases c with ⟨h1, -, h⟩ | ⟨-, h⟩
  · rcases toLower_cases c.toLower with ⟨-, h', -⟩ | ⟨-, h'⟩
    · omega
    · exact h'
  · rw [h, h]

/-- Every space character lies below `'!'`. -/
theorem isspace_eq_false {c : Char} (h : 32 < c.toNat) : isspace c = false := by
  by_contra hs
  simp only [isspace, Bool.not_eq_false, Bool.or_eq_true, beq_iff_eq] at hs
  rcases hs with (((((rfl | rfl) | rfl) | rfl) | rfl) | rfl) <;> exact absurd h (by decide)

/-- Lower-casing neither makes nor unmakes a space. -/
theorem isspace_toLower (c : Char) : isspace c.toLower = isspace c := by
  rcases toLower_cases c with ⟨h1, -, h⟩ | ⟨-, h⟩
  · rw [isspace_eq_false (by omega), isspace_eq_false (by omega)]
  · rw [h]

theorem eq_comma_of_toLower {c : Char} (h : c.toLower = ',') : c = ',' := by
  rcases toLower_cases c with ⟨h1, -, h'⟩ | ⟨-, h'⟩
  · rw [h, show ','.toNat = 44 from rfl] at h'
    omega
  · rwa [h'] at h

theorem trim_sublist (l : List Char) : (trim l).Sublist l :=
  (List.rdropWhile_prefix _ _).sublist.trans (List.dropWhile_suffix _).sublist

theorem trim_map_toLower (l : List Char) :
    trim (l.map Char.toLower) = (trim l).map Char.toLower := by
  have hp : isspace ∘ Char.toLower = isspace := funext isspace_toLower
  simp only [trim, List.rdropWhile, List.dropWhile_map, hp, ← List.map_reverse]

/-- Trimming twice is trimming once: what the first pass leaves starts with no space. -/
theorem trim_trim (l : List Char) : trim (trim l) = trim l := by
  have hhead : ∀ a rest, l.dropWhile isspace = a :: rest → isspace a = false := by
    intro a rest h
    simpa [h] using List.head_dropWhile_not isspace l (by simp [h])
  have hfront : ((l.dropWhile isspace).rdropWhile isspace).dropWhile isspace =
      (l.dropWhile isspace).rdropWhile isspace := by
    obtain ⟨r, hr⟩ := List.rdropWhile_prefix isspace (l.dropWhile isspace)
    cases h : (l.dropWhile isspace).rdropWhile isspace with
    | nil => rfl
    | cons a t =>
      rw [h, List.cons_append] at hr
      exact List.dropWhile_cons_of_neg (by simp [hhead a _ hr.symm])
  unfold trim
  rw [hfront, List.rdropWhile_idempotent]

@[simp] theorem blacklistEntry_data (l : List Char) :
    (blacklistEntry l).data = (trim l).map Char.toLower := rfl

/-- An entry is trimmed and lower-cased already, so the steps of `initialise` fix it. -/
theorem blacklistEntry_blacklistEntry (l : List Char) :
    blacklistEntry (blacklistEntry l).data = blacklistEntry l := by
  rw [blacklistEntry_data, blacklistEntry, trim_map_toLower, trim_trim, List.map_map,
    blacklistEntry]
  congr 1
  exact List.map_congr_left fun c _ => toLower_toLower c

theorem blacklistEntry_space_cons (l : List Char) : blacklistEntry (' ' :: l) = blacklistEntry l := by
  simp only [blacklistEntry, trim, List.dropWhile_cons_of_pos (show isspace ' ' = true from rfl)]

/-- `n` is the name of the field `t` in the words of the documentation of the option: `t` with
its leading and trailing `isspace` characters removed and every character lower-cased. -/
def IsName (t : List Char) (n : String) : Prop :=
  ∃ pre core post, t = pre ++ core ++ post ∧ (∀ c ∈ pre, isspace c) ∧ (∀ c ∈ post, isspace c) ∧
    (∀ c ∈ core.head?, isspace c = false) ∧ (∀ c ∈ core.getLast?, isspace c = false) ∧
    n.data = core.map Char.toLower

/-- `trim` removes exactly the spaces around a core that neither starts nor ends with one. -/
theorem trim_eq_core {pre core post : List Char} (hpre : ∀ c ∈ pre, isspace c)
    (hpost : ∀ c ∈ post, isspace c) (hhead : ∀ c ∈ core.head?, isspace c = false)
    (hlast : ∀ c ∈ core.getLast?, isspace c = false) : trim (pre ++ core ++ post) = core := by
  rw [trim, List.append_assoc, List.dropWhile_append_of_pos hpre]
  cases core with
  | nil => simp [List.dropWhile_eq_nil_iff.2 hpost]
  | cons a rest =>
    have hpost' : ∀ c ∈ post.reverse, isspace c := by simpa using hpost
    rw [List.cons_append, List.dropWhile_cons_of_neg (by simp [hhead a rfl]), ← List.cons_append,
      List.rdropWhile, List.reverse_append, List.dropWhile_append_of_pos hpost', ← List.rdropWhile,
      List.rdropWhile_eq_self_iff]
    exact fun hl => by simp [hlast _ (List.getLast?_eq_getLast _ hl)]

/-- The `// trim` and `// to lower case` steps give the name of the field. -/
theorem blacklistEntry_of_isName {t : List Char} {n : String} (h : IsName t n) :
    blacklistEntry t = n := by
  obtain ⟨pre, core, post, rfl, hpre, hpost, hhead, hlast, hn⟩ := h
  exact String.ext (by rw [blacklistEntry_data, trim_eq_core hpre hpost hhead hlast, hn])

theorem map_blacklistEntry_of_forall₂ {ts : List (List Char)} {names : List String}
    (h : List.Forall₂ IsName ts names) : ts.map blacklistEntry = names := by
  induction h with
  | nil => rfl
  | cons hname _ ih => rw [List.map_cons, blacklistEntry_of_isName hname, ih]

theorem comma_not_mem_blacklistEntry {l : List Char} (h : ',' ∉ l) :
    ',' ∉ (blacklistEntry l).data := by
  rw [blacklistEntry_data, List.mem_map]
  rintro ⟨c, hc, hcomma⟩
  exact h (eq_comma_of_toLower hcomma ▸ (trim_sublist l).subset hc)

/-- The configuration `g_configuration` starts from: `m_blacklist` empty. -/
def initial : Configuration := ⟨[]⟩

/-- The `--blacklist` branch of `Configuration::initialise`: given the option, each field is
trimmed, lower-cased and pushed to `m_blacklist`, which is then sorted; without it nothing
changes. -/
def initialiseBlacklist (blacklist : Option String) (cfg : Configuration) : Configuration :=
  match blacklist with
  | none => cfg
  | some s =>
    ⟨(cfg.mBlacklist ++ (readFields s.toList).map blacklistEntry).mergeSort
      fun a b => decide (a ≤ b)⟩

/-- `Configuration::do_blacklist(property_enabled, name)`: the new `property_enabled`, and the
line it logs when it turns the algorithm off. -/
def doBlacklist (cfg : Configuration) (propertyEnabled : Bool) (name : String) :
    Bool × List String :=
  if propertyEnabled then
    if name ∈ cfg.mBlacklist then
      (false, ["> Ignore " ++ name.toUpper ++ ", algorithm blacklisted"])
    else (propertyEnabled, [])
  else (propertyEnabled, [])

/-- `Configuration::blacklist(algorithms)`: `do_blacklist` on each algorithm in turn, with the
lines logged in that order. -/
def blacklist (cfg : Configuration) (algorithms : GraphalyticsAlgorithms) :
    GraphalyticsAlgorithms × List String :=
  let bfs := cfg.doBlacklist algorithms.bfs "bfs"
  let cdlp := cfg.doBlacklist algorithms.cdlp "cdlp"
  let lcc := cfg.doBlacklist algorithms.lcc "lcc"
  let pagerank := cfg.doBlacklist algorithms.pagerank "pagerank"
  let sssp := cfg.doBlacklist algorithms.sssp "sssp"
  let wcc := cfg.doBlacklist algorithms.wcc "wcc"
  (⟨bfs.1, cdlp.1, lcc.1, pagerank.1, sssp.1, wcc.1⟩,
    bfs.2 ++ cdlp.2 ++ lcc.2 ++ pagerank.2 ++ sssp.2 ++ wcc.2)

theorem doBlacklist_fst (cfg : Configuration) (propertyEnabled : Bool) (name : String) :
    (cfg.doBlacklist propertyEnabled name).1 =
      (propertyEnabled && !decide (name ∈ cfg.mBlacklist)) := by
  unfold doBlacklist
  split_ifs <;> simp_all

/-- `blacklist` turns an algorithm off exactly when its name is in `m_blacklist`. -/
theorem blacklist_enabled (cfg : Configuration) (algorithms : GraphalyticsAlgorithms)
    (X : Algorithm) :
    (cfg.blacklist algorithms).1.enabled X =
      (algorithms.enabled X && !decide (X.name ∈ cfg.mBlacklist)) := by
  cases X <;> exact doBlacklist_fst _ _ _

theorem doBlacklist_snd (cfg : Configuration) (propertyEnabled : Bool) (name : String) :
    (cfg.doBlacklist propertyEnabled name).2 =
      if propertyEnabled && decide (name ∈ cfg.mBlacklist) then
        ["> Ignore " ++ name.toUpper ++ ", algorithm blacklisted"]
      else [] := by
  unfold doBlacklist
  split_ifs <;> simp_all

theorem map_filter_eq_flatMap {α β : Type} (p : α → Bool) (f : α → β) (l : List α) :
    (l.filter p).map f = l.flatMap fun x => if p x then [f x] else [] := by
  induction l with
  | nil => rfl
  | cons x l ih => by_cases h : p x <;> simp [List.filter_cons, h, ih]

/-- The log of `blacklist`: one line per algorithm it turns off, in the order it visits them. -/
theorem blacklist_log (cfg : Configuration) (algorithms : GraphalyticsAlgorithms) :
    (cfg.blacklist algorithms).2 =
      (Algorithm.all.filter fun X => algorithms.enabled X && decide (X.name ∈ cfg.mBlacklist)).map
        fun X => "> Ignore " ++ X.name.toUpper ++ ", algorithm blacklisted" := by
  rw [map_filter_eq_flatMap]
  simp only [blacklist, doBlacklist_snd, Algorithm.all, List.flatMap_cons, List.flatMap_nil,
    List.append_nil, List.append_assoc]
  rfl

/-- `blacklist` reads `m_blacklist` only through which of the six names it holds. -/
theorem blacklist_congr {cfg cfg' : Configuration}
    (h : ∀ X : Algorithm, X.name ∈ cfg.mBlacklist ↔ X.name ∈ cfg'.mBlacklist) :
    cfg.blacklist = cfg'.blacklist := by
  funext algorithms
  refine Prod.ext (GraphalyticsAlgorithms.ext_enabled fun X => ?_) ?_
  · simp only [blacklist_enabled, h]
  · simp only [blacklist_log, h]

theorem initialiseBlacklist_perm (s : String) (cfg : Configuration) :
    (initialiseBlacklist (some s) cfg).mBlacklist.Perm
      (cfg.mBlacklist ++ (readFields s.toList).map blacklistEntry) :=
  List.mergeSort_perm _ _

theorem initialiseBlacklist_sorted (s : String) (cfg : Configuration) :
    (initialiseBlacklist (some s) cfg).mBlacklist.Sorted (· ≤ ·) := by
  have := @List.sorted_mergeSort _ (fun a b : String => decide (a ≤ b))
    (fun a b c hab hbc => by simp only [decide_eq_true_eq] at *; exact le_trans hab hbc)
    (fun a b => by simpa using le_total a b)
    (cfg.mBlacklist ++ (readFields s.toList).map blacklistEntry)
  simpa [initialiseBlacklist] using this

/-- From the configuration as constructed and the `--blacklist` value `s`, whose fields are `ts`
and their names `names`: `m_blacklist` is `names` sorted, and `blacklist` leaves an algorithm
enabled exactly when it was and no name is its own. -/
theorem initialise_blacklist_disables (s : String) (ts : List (List Char))
    (hts : IsFields s.toList ts) (names : List String) (hnames : List.Forall₂ IsName ts names)
    (algorithms : GraphalyticsAlgorithms) :
    (∀ X : Algorithm,
      ((initialiseBlacklist (some s) initial).blacklist algorithms).1.enabled X =
        (algorithms.enabled X && decide (∀ n ∈ names, X.name ≠ n))) ∧
    (initialiseBlacklist (some s) initial).mBlacklist.Perm names ∧
    (initialiseBlacklist (some s) initial).mBlacklist.Sorted (· ≤ ·) := by
  have hperm : (initialiseBlacklist (some s) initial).mBlacklist.Perm names := by
    simpa [initial, ← map_blacklistEntry_of_forall₂ hnames, ← readFields_eq_of_isFields hts]
      using initialiseBlacklist_perm s initial
  refine ⟨fun X => ?_, hperm, initialiseBlacklist_sorted s initial⟩
  simp [blacklist_enabled, hperm.mem_iff, List.forall_mem_ne]

/-- The value `" BFS,lcc "`: a field with a leading space and upper-case letters, then a last
field with a trailing space and no comma after it. -/
theorem initialise_blacklist_disables_spaced :
    IsFields " BFS,lcc ".toList [" BFS".toList, "lcc ".toList] ∧
      List.Forall₂ IsName [" BFS".toList, "lcc ".toList] ["bfs", "lcc"] ∧
      ((initialiseBlacklist (some " BFS,lcc ") initial).blacklist
        ⟨true, true, true, true, true, true⟩).1.enabled .bfs = false := by
  have hts : IsFields " BFS,lcc ".toList [" BFS".toList, "lcc ".toList] :=
    ⟨by decide, .inr ⟨[" BFS".toList], "lcc ".toList, rfl, by decide, by decide⟩⟩
  have hnames : List.Forall₂ IsName [" BFS".toList, "lcc ".toList] ["bfs", "lcc"] :=
    .cons ⟨[' '], "BFS".toList, [], by decide, by decide, by decide, by decide, by decide,
      by decide⟩
      (.cons ⟨[], "lcc".toList, [' '], by decide, by decide, by decide, by decide, by decide,
        by decide⟩ .nil)
  exact ⟨hts, hnames, ((initialise_blacklist_disables " BFS,lcc " _ hts _ hnames
    ⟨true, true, true, true, true, true⟩).1 .bfs).trans (by decide)⟩

/-- What `initialise` leaves, from any `--blacklist` value or none, is sorted. -/
theorem initialiseBlacklist_initial_sorted (blacklist : Option String) :
    (initialiseBlacklist blacklist initial).mBlacklist.Sorted (· ≤ ·) := by
  cases blacklist with
  | none => exact List.sorted_nil
  | some s => exact initialiseBlacklist_sorted s initial

/-- Every entry `initialise` pushes is comma-free and fixed by trimming and lower-casing. -/
theorem initialiseBlacklist_entries (blacklist : Option String) :
    ∀ e ∈ (initialiseBlacklist blacklist initial).mBlacklist,
      blacklistEntry e.data = e ∧ ',' ∉ e.data := by
  cases blacklist with
  | none => simp [initialiseBlacklist, initial]
  | some s =>
    intro e he
    rw [(initialiseBlacklist_perm s initial).mem_iff] at he
    simp only [initial, List.nil_append, List.mem_map] at he
    obtain ⟨t, ht, rfl⟩ := he
    exact ⟨blacklistEntry_blacklistEntry t,
      comma_not_mem_blacklistEntry ((readFields_spec s.toList).1 t ht)⟩

/-- One pass of the loop of `save_parameters` over `m_blacklist`: `ss << ", "` when
`ss.tellp() > 0`, that is once something has been written, then `ss << s`. -/
def saveParametersStep (ss s : String) : String :=
  (if 0 < ss.length then ss ++ ", " else ss) ++ s

/-- The `blacklist` parameter `Configuration::save_parameters` pushes: none when `m_blacklist`
is empty, otherwise what its loop leaves in the `stringstream`. -/
def saveParametersBlacklist (cfg : Configuration) : Option String :=
  if cfg.mBlacklist.isEmpty then none else some (cfg.mBlacklist.foldl saveParametersStep "")

theorem foldl_saveParametersStep_of_pos {acc : String} (hacc : 0 < acc.length)
    (l : List String) : l.foldl saveParametersStep acc = String.intercalate.go acc ", " l := by
  induction l generalizing acc with
  | nil => rfl
  | cons s l ih =>
    rw [List.foldl_cons, saveParametersStep, if_pos hacc, ih (by simp; omega)]
    rfl

theorem eq_empty_of_le_empty {s : String} (h : s ≤ "") : s = "" :=
  le_antisymm h (String.le_iff_toList_le.2 List.nil_le)

/-- On a sorted `m_blacklist` the loop writes the non-empty entries joined by `", "`: the empty
ones, all at the front, write nothing and leave the first non-empty one without a separator. -/
theorem foldl_saveParametersStep_sorted {l : List String} (hl : l.Sorted (· ≤ ·)) :
    l.foldl saveParametersStep "" = ", ".intercalate (l.filter (· ≠ "")) := by
  induction l with
  | nil => rfl
  | cons s l ih =>
    rw [List.sorted_cons] at hl
    by_cases hs : s = ""
    · subst hs
      simpa [saveParametersStep] using ih hl.2
    · have hne : ∀ t ∈ l, t ≠ "" := fun t ht h => hs (eq_empty_of_le_empty (h ▸ hl.1 t ht))
      have hpos : 0 < s.length := by
        rcases s with ⟨_ | ⟨c, cs⟩⟩
        · exact absurd rfl hs
        · exact Nat.succ_pos _
      rw [List.filter_cons_of_pos (by simpa using hs), List.filter_eq_self.2 (by simpa using hne),
        List.foldl_cons, saveParametersStep, if_neg (show ¬0 < "".length from lt_irrefl 0),
        String.empty_append,
        foldl_saveParametersStep_of_pos hpos]
      rfl

theorem saveParametersBlacklist_eq {cfg : Configuration} (h : cfg.mBlacklist.Sorted (· ≤ ·)) :
    cfg.saveParametersBlacklist =
      if cfg.mBlacklist = [] then none
      else some (", ".intercalate (cfg.mBlacklist.filter (· ≠ ""))) := by
  simp only [saveParametersBlacklist, List.isEmpty_iff, foldl_saveParametersStep_sorted h]

theorem intercalate_go_data (acc : String) (l : List String) :
    (String.intercalate.go acc ", " l).data =
      acc.data ++ (l.map fun e => ',' :: ' ' :: e.data).flatten := by
  induction l generalizing acc with
  | nil => simp [String.intercalate.go]
  | cons e l ih =>
    rw [String.intercalate.go, ih]
    simp

/-- Read back, the text `", "` puts between the fields gives each later field a leading space. -/
theorem readFields_join {t : List Char} (ht : ',' ∉ t) (hne : t ≠ []) {l : List String}
    (hl : ∀ e ∈ l, ',' ∉ e.data) :
    readFields (t ++ (l.map fun e => ',' :: ' ' :: e.data).flatten) =
      t :: l.map fun e => ' ' :: e.data := by
  induction l generalizing t with
  | nil => simpa using readFields_last ht hne
  | cons e l ih =>
    simp only [List.mem_cons, forall_eq_or_imp] at hl
    have he : ',' ∉ ' ' :: e.data := by simpa using hl.1
    rw [List.map_cons, List.flatten_cons, List.cons_append, readFields_field ht,
      ih he (List.cons_ne_nil _ _) hl.2, List.map_cons]

/-- Entries joined by `", "`, read as a `--blacklist` value, give back the entries. -/
theorem initialiseBlacklist_intercalate {l : List String} (hsorted : l.Sorted (· ≤ ·))
    (hl : ∀ e ∈ l, e ≠ "" ∧ blacklistEntry e.data = e ∧ ',' ∉ e.data) :
    (initialiseBlacklist (some (", ".intercalate l)) initial).mBlacklist = l := by
  have hfields : (readFields (", ".intercalate l).toList).map blacklistEntry = l := by
    cases l with
    | nil => simp [String.intercalate, readFields_nil]
    | cons e l =>
      simp only [List.mem_cons, forall_eq_or_imp] at hl
      have hne : e.data ≠ [] := fun h => hl.1.1 (String.ext h)
      rw [String.intercalate, String.toList, intercalate_go_data,
        readFields_join hl.1.2.2 hne fun e he => (hl.2 e he).2.2]
      simp only [List.map_cons, List.map_map, hl.1.2.1]
      congr 1
      exact (List.map_congr_left fun e he =>
        (blacklistEntry_space_cons _).trans (hl.2 e he).2.1).trans (List.map_id' l)
  simp only [initialiseBlacklist, initial, List.nil_append, hfields]
  exact List.mergeSort_eq_self hsorted

/-- The `blacklist` parameter `save_parameters` stores for the `m_blacklist` that `initialise`
leaves from any `--blacklist` value: absent when `m_blacklist` is empty, otherwise its
non-empty entries in order joined by `", "`. Read back as a `--blacklist` value it gives
`m_blacklist` without its empty entries, so `blacklist` turns off the same algorithms with the
same log. -/
theorem saveParameters_blacklist_roundtrip (blacklist : Option String) :
    let cfg := initialiseBlacklist blacklist initial
    cfg.saveParametersBlacklist =
        (if cfg.mBlacklist = [] then none
        else some (", ".intercalate (cfg.mBlacklist.filter (· ≠ "")))) ∧
      (initialiseBlacklist cfg.saveParametersBlacklist initial).mBlacklist =
        cfg.mBlacklist.filter (· ≠ "") ∧
      (initialiseBlacklist cfg.saveParametersBlacklist initial).blacklist = cfg.blacklist := by
  intro cfg
  have hsorted := initialiseBlacklist_initial_sorted blacklist
  have hsave := saveParametersBlacklist_eq hsorted
  have hback : (initialiseBlacklist cfg.saveParametersBlacklist initial).mBlacklist =
      cfg.mBlacklist.filter (· ≠ "") := by
    rw [hsave]
    split
    · rename_i hnil
      have hnil' : cfg.mBlacklist = [] := hnil
      simp [initialiseBlacklist, initial, hnil']
    · refine initialiseBlacklist_intercalate (hsorted.filter _) fun e he => ?_
      rw [List.mem_filter] at he
      exact ⟨by simpa using he.2, initialiseBlacklist_entries blacklist e he.1⟩
  refine ⟨hsave, hback, blacklist_congr fun X => ?_⟩
  have hname : X.name ≠ "" := by cases X <;> decide
  simp [hback, hname]

end Configuration

end GfeDriver
