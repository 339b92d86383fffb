import TutaBridge.Std.Text

/-!
# Paths as text

A path is read as its components: the names between the slashes, without those that stand for the
directory they are in. An extension goes to what stands behind the last slash, and a name that is
put behind a path is one component more.
-/

namespace TutaBridge.Std.UnixPaths

open TutaBridge.Std

inductive Component where
  | rootDir
  | curDir
  | parentDir
  | normal (name : Text)
deriving DecidableEq, Repr

namespace Component

def isNormal : Component → Bool
  | normal _ => true
  | _ => false

def name? : Component → Option Text
  | normal name => some name
  | _ => none

/-- What stands between two slashes: nothing and `.` are no component. -/
def ofSegment? (segment : Text) : Option Component :=
  if segment = [] ∨ segment = ['.'] then none
  else if segment = ['.', '.'] then some parentDir
  else some (normal segment)

end Component

/-- `Path::components`. A `.` counts at the start only. -/
def components (path : Text) : List Component :=
  (if path.head? = some '/' then [.rootDir]
    else if (path.splitOnP (· = '/')).head? = some ['.'] then [.curDir] else []) ++
    (path.splitOnP (· = '/')).filterMap Component.ofSegment?

/-- The names of a path. -/
def names (path : Text) : List Text := (components path).filterMap Component.name?

/-- The names of the segments. -/
def nameOfSegment? (segment : Text) : Option Text := (Component.ofSegment? segment).bind Component.name?

theorem names_eq (path : Text) : names path = (path.splitOnP (· = '/')).filterMap nameOfSegment? := by
  have noName : (if path.head? = some '/' then [Component.rootDir]
      else if (path.splitOnP (· = '/')).head? = some ['.'] then [.curDir] else []).filterMap Component.name? = [] := by
    split
    · rfl
    · split <;> rfl
  rw [names, components, List.filterMap_append, noName, List.nil_append, List.filterMap_filterMap]
  rfl

/-- A longer segment is a name. -/
theorem nameOfSegment?_of_length {segment : Text} (long : 2 < segment.length) :
    nameOfSegment? segment = some segment := by
  have notEmpty : ¬(segment = [] ∨ segment = ['.']) := by
    rintro (rfl | rfl) <;> simp at long
  have notParent : segment ≠ ['.', '.'] := by
    rintro rfl
    simp at long
  rw [nameOfSegment?, Component.ofSegment?, if_neg notEmpty, if_neg notParent]
  rfl

section

variable {extension : Text} (noSlash : ∀ char ∈ extension, char ≠ '/')

include noSlash

/-- An extension goes to the last segment. -/
theorem splitOnP_append_extension (path : Text) :
    ∃ segments last, path.splitOnP (· = '/') = segments ++ [last] ∧
      (path ++ extension).splitOnP (· = '/') = segments ++ [last ++ extension] := by
  induction path with
  | nil =>
    refine ⟨[], [], rfl, ?_⟩
    rw [List.nil_append, List.splitOnP_eq_singleton fun char mem => by simpa using noSlash char mem]
    rfl
  | cons head rest ih =>
    obtain ⟨segments, last, isPath, isExtended⟩ := ih
    rw [List.cons_append, List.splitOnP_cons_eq_if_modifyHead, List.splitOnP_cons_eq_if_modifyHead, isPath,
      isExtended]
    split
    · exact ⟨[] :: segments, last, rfl, rfl⟩
    · cases segments with
      | nil => exact ⟨[], head :: last, rfl, rfl⟩
      | cons first others => exact ⟨(head :: first) :: others, last, rfl, rfl⟩

/-- With an extension the last name of a path is longer, or there is one name more. -/
theorem names_append_extension
    (long : 2 < extension.length) (path : Text) : ∃ before item, names (path ++ extension) = before ++ [item] ∧
      (names path = before ∨ ∃ last, names path = before ++ [last]) := by
  obtain ⟨segments, last, isPath, isExtended⟩ := splitOnP_append_extension noSlash path
  have longer : 2 < (last ++ extension).length := by
    rw [List.length_append]
    omega
  refine ⟨segments.filterMap nameOfSegment?, last ++ extension, ?_, ?_⟩
  · rw [names_eq, isExtended, List.filterMap_append, List.filterMap_cons_some (nameOfSegment?_of_length longer),
      List.filterMap_nil]
  · rw [names_eq, isPath, List.filterMap_append]
    cases isName : nameOfSegment? last with
    | none =>
      rw [List.filterMap_cons_none isName, List.filterMap_nil, List.append_nil]
      exact .inl rfl
    | some name =>
      rw [List.filterMap_cons_some isName, List.filterMap_nil]
      exact .inr ⟨name, rfl⟩

/-- The file of an extended path is under the parent of the path. -/
theorem exists_names_append_extension
    (long : 2 < extension.length) {path : Text} (nonempty : names path ≠ []) :
    ∃ item more, names (path ++ extension) = (names path).dropLast ++ item :: more := by
  obtain ⟨before, item, isExtended, same | ⟨last, isLonger⟩⟩ := names_append_extension noSlash long path
  · rw [isExtended, ← same]
    refine ⟨(names path).getLast nonempty, [item], ?_⟩
    have isPath := List.dropLast_append_getLast nonempty
    calc names path ++ [item]
        = (names path).dropLast ++ [(names path).getLast nonempty] ++ [item] := by rw [isPath]
      _ = _ := List.append_assoc _ _ _
  · exact ⟨item, [], by rw [isExtended, isLonger, List.dropLast_concat]⟩

end

/-! ## Names that are put behind a path -/

/-- `PathBuf::push`. -/
def push (path name : Text) : Text :=
  if name.head? = some '/' then name
  else if path = [] ∨ path.getLast? = some '/' then path ++ name
  else path ++ '/' :: name

/-- A segment that is one name. -/
structure IsName (name : Text) : Prop where
  noSlash : '/' ∉ name
  isNormal : Component.ofSegment? name = some (.normal name)

theorem IsName.splitOnP_eq {name : Text} (isName : IsName name) : name.splitOnP (· = '/') = [name] := by
  apply List.splitOnP_eq_singleton
  intro char mem
  exact decide_eq_false fun same => isName.noSlash (same ▸ mem)

theorem IsName.head?_ne {name : Text} (isName : IsName name) : name.head? ≠ some '/' := fun first =>
  isName.noSlash (List.mem_of_head? first)

/-- What is behind a slash does not change how a path begins. -/
theorem components_append_slash (path behind : Text) : components (path ++ '/' :: behind) =
      components (path ++ ['/']) ++ (behind.splitOnP (· = '/')).filterMap Component.ofSegment? := by
  have split : ∀ rest : Text, (path ++ '/' :: rest).splitOnP (· = '/') =
      path.splitOnP (· = '/') ++ rest.splitOnP (· = '/') := fun rest =>
    List.splitOnP_append_cons path rest (decide_eq_true rfl)
  have first : ∀ rest : Text, (path ++ '/' :: rest).head? = some (path.head?.getD '/') := by
    intro rest
    cases path <;> rfl
  have firstSegment : ∀ rest : List Text, (path.splitOnP (· = '/') ++ rest).head? =
      (path.splitOnP (· = '/')).head? := by
    intro rest
    exact List.head?_append_of_ne_nil _ (List.splitOnP_ne_nil _ _)
  simp only [components, split, first, firstSegment, List.filterMap_append, List.append_assoc]
  rfl

/-- A path that ends in a slash has the components of what stands before the slash. -/
theorem components_append_slash_nil {path : Text} (notEmpty : path ≠ []) :
    components (path ++ ['/']) = components path := by
  obtain ⟨head, rest, rfl⟩ := List.exists_cons_of_ne_nil notEmpty
  have split : (head :: rest ++ ['/']).splitOnP (· = '/') = (head :: rest).splitOnP (· = '/') ++ [[]] :=
    List.splitOnP_append_cons (head :: rest) [] (decide_eq_true rfl)
  have firstSegment : ((head :: rest).splitOnP (· = '/') ++ [[]]).head? =
      ((head :: rest).splitOnP (· = '/')).head? :=
    List.head?_append_of_ne_nil _ (List.splitOnP_ne_nil _ _)
  rw [components, split, firstSegment, List.filterMap_append, List.cons_append, List.head?_cons]
  exact congrArg _ (List.append_nil _)

/-- A name that is put behind a path is its last component. -/
theorem components_push {name : Text} (isName : IsName name) (path : Text) :
    components (push path name) = components path ++ [.normal name] := by
  have segments : (name.splitOnP (· = '/')).filterMap Component.ofSegment? = [.normal name] := by
    rw [isName.splitOnP_eq, List.filterMap_cons_some isName.isNormal, List.filterMap_nil]
  rw [push, if_neg isName.head?_ne]
  split
  next bare =>
    rcases bare with rfl | slash
    · have notCurrent : some name ≠ some ['.'] := by
        rintro ⟨⟩
        exact absurd isName.isNormal (by decide)
      rw [List.nil_append, components, if_neg isName.head?_ne, segments, isName.splitOnP_eq, List.head?_cons,
        if_neg notCurrent]
      rfl
    · obtain ⟨before, rfl⟩ := List.getLast?_eq_some_iff.mp slash
      rw [List.append_assoc, List.singleton_append, components_append_slash, segments]
  next apart =>
    rw [components_append_slash, segments, components_append_slash_nil fun isEmpty => apart (.inl isEmpty)]

/-- The components of names that are put behind a path are the names. -/
theorem components_foldl_push {names : List Text} (areNames : ∀ name ∈ names, IsName name) (path : Text) :
    components (names.foldl push path) = components path ++ names.map .normal := by
  induction names generalizing path with
  | nil => exact (List.append_nil _).symm
  | cons name rest ih =>
    obtain ⟨isName, others⟩ := List.forall_mem_cons.mp areNames
    rw [List.foldl_cons, ih others, components_push isName, List.append_assoc]
    rfl

/-- Paths under one directory are the same path when their names are the same. -/
theorem foldl_push_inj {first second : List Text} (firstNames : ∀ name ∈ first, IsName name)
    (secondNames : ∀ name ∈ second, IsName name) {path : Text}
    (same : first.foldl push path = second.foldl push path) : first = second := by
  have components := congrArg components same
  rw [components_foldl_push firstNames, components_foldl_push secondNames] at components
  refine List.map_injective_iff.mpr ?_ (List.append_cancel_left components)
  exact fun _ _ => Component.normal.inj

end TutaBridge.Std.UnixPaths
