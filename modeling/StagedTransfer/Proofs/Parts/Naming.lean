import StagedTransfer.Parts.RemotePath
import StagedTransfer.Proofs.Http.Segments

/-!
# Names of remote files

Which texts name a remote file, and what a name is split into. A component stands between two
slashes or at an end of the path, so that a path has a relative component if and only if `/./` or
`/../` stands in it once it is put between slashes. The split is made at the last slash, while the
components are looked at for themselves: the two meet where a path is put together from what
stands on both sides of its last slash.
-/

namespace StagedTransfer

namespace Text

variable {separator : Char} {cs piece : List Char}

/-- The pieces of two texts with a separator between them. -/
lemma pieces_append (separator : Char) (cs ds : List Char) :
    pieces separator (cs ++ separator :: ds) = pieces separator cs ++ pieces separator ds := by
  induction cs with
  | nil => simp only [List.nil_append, pieces, if_true, List.singleton_append]
  | cons c cs ih =>
    obtain ⟨first, rest, cut⟩ := List.exists_cons_of_ne_nil (pieces_ne_nil separator cs)
    by_cases same : c = separator
    · rw [List.cons_append, pieces, if_pos same, ih, pieces, if_pos same, List.cons_append]
    · rw [List.cons_append, pieces, if_neg same, ih, pieces, if_neg same, cut]
      rfl

/-- The text between two separators. -/
def fenced (separator : Char) (cs : List Char) : List Char :=
  separator :: (cs ++ [separator])

lemma pieces_fenced (separator : Char) (cs : List Char) :
    pieces separator (fenced separator cs) = [] :: (pieces separator cs ++ [[]]) := by
  rw [fenced, pieces, if_pos rfl, pieces_append, pieces]

/-- Separators after each of the texts and one before them all are separators before each of them
and one after them all. -/
lemma cons_flatMap (separator : Char) (segments : List (List Char)) :
    separator :: segments.flatMap (· ++ [separator]) =
      segments.flatMap (separator :: ·) ++ [separator] := by
  induction segments with
  | nil => rfl
  | cons s segments ih =>
    rw [List.flatMap_cons, List.flatMap_cons, List.append_assoc, List.singleton_append, ih,
      List.cons_append, List.cons_append, List.append_assoc]

lemma fenced_intercalate {segments : List (List Char)} (some' : segments ≠ []) :
    fenced separator ([separator].intercalate segments) =
      separator :: segments.flatMap (· ++ [separator]) := by
  rw [fenced]
  congr 1
  induction segments with
  | nil => exact absurd rfl some'
  | cons s segments ih =>
    cases segments with
    | nil => simp [List.intercalate_singleton]
    | cons t segments =>
      rw [List.intercalate_cons_cons, List.flatMap_cons, ← ih (List.cons_ne_nil _ _),
        List.append_assoc]

/-- The pieces of a text are what has a separator on each side of it, and none in it, once the
text itself has one on each side. -/
lemma mem_pieces_iff :
    piece ∈ pieces separator cs ↔
      separator ∉ piece ∧ fenced separator piece <:+: fenced separator cs := by
  constructor
  · intro mem
    refine ⟨not_mem_of_mem_pieces mem, ?_⟩
    obtain ⟨before, after, cut⟩ := List.append_of_mem mem
    have whole : fenced separator cs = separator :: (before ++ piece :: after).flatMap
        (· ++ [separator]) := by
      rw [← cut, ← fenced_intercalate (pieces_ne_nil separator cs), intercalate_pieces]
    refine ⟨before.flatMap (separator :: ·), after.flatMap (· ++ [separator]), ?_⟩
    rw [whole, List.flatMap_append, ← List.cons_append, cons_flatMap, List.flatMap_cons, fenced,
      List.append_assoc, List.append_assoc, List.cons_append, List.singleton_append,
      List.append_assoc]
  · rintro ⟨clear, before, after, whole⟩
    have cut : pieces separator before ++ piece :: pieces separator after =
        [] :: (pieces separator cs ++ [[]]) := by
      rw [← pieces_fenced, ← whole, fenced, List.append_assoc, List.cons_append, List.append_assoc,
        List.singleton_append, pieces_append, pieces_append_cons clear]
    -- the first and the last piece are those outside of the fence
    obtain ⟨first, rest, opened⟩ := List.exists_cons_of_ne_nil (pieces_ne_nil separator before)
    obtain ⟨init, last, closed⟩ :=
      (List.eq_nil_or_concat (pieces separator after)).resolve_left (pieces_ne_nil separator after)
    rw [opened, closed, List.concat_eq_append, List.cons_append, List.cons.injEq] at cut
    have inner : (rest ++ piece :: init) ++ [last] = pieces separator cs ++ [[]] := by
      rw [List.append_assoc, List.cons_append, cut.2]
    rw [← List.append_inj_left' inner rfl]
    exact List.mem_append_right _ List.mem_cons_self

end Text

namespace RemotePath

variable {cs component : List Char} {path dir name what : String}

/-! ### The last slash -/

/-- A path with a slash is put together from what stands on both sides of the last one. -/
lemma exists_eq_append (slash : '/' ∈ cs) : ∃ ds last, cs = ds ++ '/' :: last ∧ '/' ∉ last := by
  obtain ⟨back, front, found, clear⟩ := List.eq_append_cons_of_mem (List.mem_reverse.2 slash)
  refine ⟨front.reverse, back.reverse, ?_, fun h => clear (List.mem_reverse.1 h)⟩
  rw [← List.reverse_inj, found]
  simp

variable {ds last : List Char}

lemma reverse_append_slash (ds : List Char) (clear : '/' ∉ last) :
    (ds ++ '/' :: last).reverse = last.reverse ++ '/' :: ds.reverse ∧
      ∀ c ∈ last.reverse, decide (c ≠ '/') = true := by
  refine ⟨by simp, fun c hc => decide_eq_true ?_⟩
  rintro rfl
  exact clear (List.mem_reverse.1 hc)

lemma lastName_append (clear : '/' ∉ last) : lastName (ds ++ '/' :: last) = last := by
  obtain ⟨back, plain⟩ := reverse_append_slash ds clear
  rw [lastName, back, List.takeWhile_append_of_pos plain, List.takeWhile_cons_of_neg (by decide),
    List.append_nil, List.reverse_reverse]

lemma folder_append (clear : '/' ∉ last) : folder (ds ++ '/' :: last) = ds := by
  obtain ⟨back, plain⟩ := reverse_append_slash ds clear
  rw [folder, back, List.dropWhile_append_of_pos plain, List.dropWhile_cons_of_neg (by decide),
    List.drop_one, List.tail_cons, List.reverse_reverse]

lemma components_append (clear : '/' ∉ last) :
    components (ds ++ '/' :: last) = components ds ++ [last] := by
  rw [components, Text.pieces_append, Text.pieces_of_not_mem clear, components]

lemma getLast?_append (clear : '/' ∉ last) :
    (ds ++ '/' :: last).getLast? = some '/' ↔ last = [] := by
  rcases List.eq_nil_or_concat last with rfl | ⟨init, c, rfl⟩
  · simp
  · have apart : c ≠ '/' := by
      rintro rfl
      simp at clear
    simp [List.getLast?_cons, apart]

/-! ### Names of files -/

/-- What stands between two slashes of a path, or between one and an end of it. -/
def IsComponent (path component : List Char) : Prop :=
  '/' ∉ component ∧ Text.fenced '/' component <:+: Text.fenced '/' path

/-- No component leads to where it stands or above. -/
def Straight (path : List Char) : Prop :=
  ∀ component, IsComponent path component → component ≠ ['.'] ∧ component ≠ ['.', '.']

/-- The path names a file. -/
structure NamesFile (path : String) : Prop where
  absolute : path.toList.head? = some '/'
  named : path.toList.getLast? ≠ some '/'
  straight : Straight path.toList

/-- The directory and the name are the two sides of the last slash of a path, and the directory
above all others has its slash for a name. -/
structure SplitsInto (path dir name : String) : Prop where
  named : name ≠ ""
  apart : '/' ∉ name.toList
  last : (components path.toList).getLast? = some name.toList
  absolute : dir.toList.head? = some '/'
  straight : Straight dir.toList
  whole : path = dir ++ "/" ++ name ∨ dir = "/" ∧ path = "/" ++ name

/-- What is said of a path that names no file. -/
inductive Refused (path : String) : String → Prop
  | empty (none' : path = "") : Refused path "empty path"
  | relative (some' : path ≠ "") (start : path.toList.head? ≠ some '/') :
      Refused path ("remote path must be absolute: " ++ path)
  | crooked (start : path.toList.head? = some '/') (crooked : ¬ Straight path.toList) :
      Refused path ("relative components not allowed: " ++ path)
  | nameless (start : path.toList.head? = some '/') (straight : Straight path.toList)
      (bare : path.toList.getLast? = some '/') : Refused path ("missing file name: " ++ path)

lemma mem_components_iff : component ∈ components cs ↔ IsComponent cs component :=
  Text.mem_pieces_iff

lemma straight_iff : Straight cs ↔ (components cs).any isRelative = false := by
  simp only [Straight, ← mem_components_iff, List.any_eq_false, isRelative, Bool.or_eq_true,
    decide_eq_true_eq, not_or, ne_eq]

lemma Refused.not_namesFile (h : Refused path what) : ¬ NamesFile path := by
  rintro ⟨absolute, named, straight⟩
  cases h with
  | empty none' => simp [none'] at absolute
  | relative _ start => exact start absolute
  | crooked _ crooked => exact crooked straight
  | nameless _ _ bare => exact named bare

/-! ### Splitting -/

/-- A path that names no file is refused for one reason. -/
lemma namesFile_or_refused (path : String) : NamesFile path ∨ ∃ what, Refused path what := by
  by_cases none' : path = ""
  · exact .inr ⟨_, .empty none'⟩
  by_cases start : path.toList.head? = some '/'
  · by_cases straight : Straight path.toList
    · by_cases bare : path.toList.getLast? = some '/'
      · exact .inr ⟨_, .nameless start straight bare⟩
      · exact .inl ⟨start, bare, straight⟩
    · exact .inr ⟨_, .crooked start straight⟩
  · exact .inr ⟨_, .relative none' start⟩

lemma Refused.split_eq (h : Refused path what) : split path = .error (.invalidPath what) := by
  cases h with
  | empty none' => rw [none']; rfl
  | relative some' start =>
    rw [split, if_neg fun none' => some' (String.toList_eq_nil_iff.1 none'), if_pos start]
  | crooked start crooked =>
    have some' : path.toList ≠ [] := List.ne_nil_of_mem (List.mem_of_mem_head? start)
    rw [straight_iff, Bool.not_eq_false] at crooked
    rw [split, if_neg some', if_neg (not_not_intro start), if_pos crooked]
  | nameless start straight bare =>
    have some' : path.toList ≠ [] := List.ne_nil_of_mem (List.mem_of_mem_head? start)
    obtain ⟨ds, last, found, clear⟩ := exists_eq_append (List.mem_of_mem_head? start)
    have unnamed : lastName path.toList = [] := by
      rw [found, getLast?_append clear] at bare
      rw [found, lastName_append clear, bare]
    rw [split, if_neg some', if_neg (not_not_intro start),
      if_neg (Bool.not_eq_true _ ▸ straight_iff.1 straight), if_pos unnamed]

lemma straight_of_append (h : Straight (ds ++ '/' :: last)) (clear : '/' ∉ last) :
    Straight ds := by
  intro component mem
  refine h component (mem_components_iff.1 ?_)
  rw [components_append clear]
  exact List.mem_append_left _ (mem_components_iff.2 mem)

/-- The path of a file splits at its last slash. -/
lemma NamesFile.split_eq (h : NamesFile path) :
    ∃ dir name, split path = .ok (dir, name) ∧ SplitsInto path dir name := by
  obtain ⟨start, bare, straight⟩ := h
  have some' : path.toList ≠ [] := List.ne_nil_of_mem (List.mem_of_mem_head? start)
  obtain ⟨ds, last, found, clear⟩ := exists_eq_append (List.mem_of_mem_head? start)
  have named : last ≠ [] := by rwa [Ne, found, getLast?_append clear] at bare
  have divided : split path =
      .ok (String.ofList (if ds = [] then ['/'] else ds), String.ofList last) := by
    rw [split, if_neg some', if_neg (not_not_intro start),
      if_neg (Bool.not_eq_true _ ▸ straight_iff.1 straight), found, lastName_append clear,
      folder_append clear, if_neg named]
  have rejoined : path = String.ofList ds ++ "/" ++ String.ofList last := by
    rw [← String.toList_inj, found]
    simp
  have final : (components path.toList).getLast? = some (String.ofList last).toList := by
    rw [found, components_append clear, List.getLast?_concat, String.toList_ofList]
  have some'' : String.ofList last ≠ "" := by
    rwa [Ne, ← String.toList_inj, String.toList_ofList]
  have apart : '/' ∉ (String.ofList last).toList := by rwa [String.toList_ofList]
  rw [found] at start straight
  cases ds with
  | nil =>
    refine ⟨_, _, divided, some'', apart, final, rfl, ?_, .inr ⟨rfl, ?_⟩⟩
    · exact straight_iff.2 (by decide)
    · rw [rejoined]
      rfl
  | cons d ds =>
    rw [if_neg (List.cons_ne_nil d ds)] at divided
    refine ⟨_, _, divided, some'', apart, final, ?_, ?_, .inl rejoined⟩
    · rwa [String.toList_ofList]
    · rw [String.toList_ofList]
      exact straight_of_append straight clear

/-- A path splits if and only if it names a file: it starts with a slash and ends with none, and
none of its components is relative. It splits into what is left and right of its last slash, and
nothing is lost; a path that names no file is refused, and told why. -/
theorem split_names_file (path : String) :
    ((∃ parts, split path = .ok parts) ↔ NamesFile path) ∧
      (∀ dir name, split path = .ok (dir, name) → SplitsInto path dir name) ∧
      ∀ e, split path = .error e → ∃ what, e = .invalidPath what ∧ Refused path what := by
  rcases namesFile_or_refused path with named | ⟨what, refused⟩
  · obtain ⟨dir, name, divided, parts⟩ := named.split_eq
    refine ⟨⟨fun _ => named, fun _ => ⟨_, divided⟩⟩, ?_, ?_⟩
    · intro dir' name' divided'
      cases divided.symm.trans divided'
      exact parts
    · intro e failed
      cases divided.symm.trans failed
  · have failed := refused.split_eq
    refine ⟨⟨?_, fun named => absurd named refused.not_namesFile⟩, ?_, ?_⟩
    · rintro ⟨parts, divided⟩
      cases failed.symm.trans divided
    · intro dir name divided
      cases failed.symm.trans divided
    · intro e failed'
      cases failed.symm.trans failed'
      exact ⟨what, rfl, refused⟩

example : split "//..a" = .ok ("/", "..a") := by
  rfl

end RemotePath

end StagedTransfer
