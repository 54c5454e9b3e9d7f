import Mathlib.Data.List.Basic

/-! # Paths

`path.resolve` on a POSIX system, and when the text of one resolved path begins with another.
-/

namespace Advance.JavaScript

/-- The names of a path, between its slashes. -/
def pathNames : List Char → List (List Char)
  | [] => [[]]
  | c :: rest =>
    if c = '/' then [] :: pathNames rest
    else
      match pathNames rest with
      | [] => [[c]]
      | name :: names => (c :: name) :: names

def enterName (entered : List (List Char)) (name : List Char) : List (List Char) :=
  if name = [] ∨ name = ['.'] then entered
  else if name = ['.', '.'] then entered.dropLast
  else entered ++ [name]

def resolvedNames (workingDirectory path : String) : List (List Char) :=
  let names :=
    if path.toList.head? = some '/' then pathNames path.toList
    else pathNames workingDirectory.toList ++ pathNames path.toList
  names.foldl enterName []

def slashed (names : List (List Char)) : List Char := names.flatMap fun name => '/' :: name

def renderPath (names : List (List Char)) : List Char :=
  if names = [] then ['/'] else slashed names

/-- `path.resolve(path)` -/
def resolve (workingDirectory path : String) : String :=
  String.ofList (renderPath (resolvedNames workingDirectory path))

/-! ## Names -/

/-- Names as they come out of a path: not empty, without a slash. -/
def ProperNames (names : List (List Char)) : Prop := ∀ name ∈ names, name ≠ [] ∧ '/' ∉ name

theorem slash_not_mem_pathNames {path name : List Char} (member : name ∈ pathNames path) : '/' ∉ name := by
  induction path generalizing name with
  | nil =>
    obtain rfl := List.mem_singleton.mp member
    exact List.not_mem_nil
  | cons c rest ih =>
    unfold pathNames at member
    split at member
    · rcases List.mem_cons.mp member with rfl | later
      · exact List.not_mem_nil
      · exact ih later
    next other =>
      cases found : pathNames rest with
      | nil =>
        rw [found] at member
        obtain rfl := List.mem_singleton.mp member
        simpa using Ne.symm other
      | cons first names =>
        rw [found] at member ih
        rcases List.mem_cons.mp member with rfl | later
        · have free := ih List.mem_cons_self
          simp [Ne.symm other, free]
        · exact ih (List.mem_cons_of_mem _ later)

theorem resolvedNames_proper (workingDirectory path : String) :
    ProperNames (resolvedNames workingDirectory path) := by
  have entered : ∀ (names start : List (List Char)), (∀ name ∈ names, '/' ∉ name) → ProperNames start →
      ProperNames (names.foldl enterName start) := by
    intro names
    induction names with
    | nil => exact fun _ _ proper => proper
    | cons first names ih =>
      intro start free proper
      refine ih _ (fun name member => free name (List.mem_cons_of_mem _ member)) ?_
      unfold enterName
      split
      · exact proper
      · split
        · exact fun name member => proper name (List.dropLast_subset _ member)
        next named _ =>
          intro name member
          rcases List.mem_append.mp member with before | new
          · exact proper name before
          · obtain rfl := List.mem_singleton.mp new
            exact ⟨fun empty => named (.inl empty), free name List.mem_cons_self⟩
  refine entered _ [] ?_ nofun
  intro name member
  split at member
  · exact slash_not_mem_pathNames member
  · rcases List.mem_append.mp member with base | own
    · exact slash_not_mem_pathNames base
    · exact slash_not_mem_pathNames own

/-! ## Texts of paths -/

@[simp] theorem slashed_nil : slashed [] = [] := rfl

@[simp] theorem slashed_cons (name : List Char) (names : List (List Char)) :
    slashed (name :: names) = '/' :: (name ++ slashed names) := rfl

/-- A text that is empty or begins with a slash. -/
def AtSlash (text : List Char) : Prop := ∀ c rest, text = c :: rest → c = '/'

theorem slashed_atSlash (names : List (List Char)) : AtSlash (slashed names) := by
  cases names with
  | nil => exact nofun
  | cons name names =>
    rintro c rest same
    exact (List.cons.inj same).1.symm

variable {left right before after : List Char}

theorem name_isPrefix (leftFree : '/' ∉ left)
    (rightFree : '/' ∉ right) (following : AtSlash after) :
    left ++ '/' :: before <+: right ++ after ↔ left = right ∧ '/' :: before <+: after := by
  induction left generalizing right with
  | nil =>
    cases right with
    | nil => simp
    | cons c right =>
      refine iff_of_false (fun isPrefix => ?_) (fun both => nomatch both.1)
      obtain ⟨same, _⟩ := List.cons_prefix_cons.mp isPrefix
      exact rightFree (same ▸ List.mem_cons_self)
  | cons c left ih =>
    cases right with
    | nil =>
      refine iff_of_false (fun isPrefix => ?_) (fun both => nomatch both.1)
      cases after with
      | nil => simp at isPrefix
      | cons d after =>
        obtain ⟨same, _⟩ := List.cons_prefix_cons.mp isPrefix
        have slash := following d after rfl
        exact leftFree (by rw [same, slash]; exact List.mem_cons_self)
    | cons d right =>
      rw [List.mem_cons, not_or] at leftFree rightFree
      rw [List.cons_append, List.cons_append, List.cons_prefix_cons, ih leftFree.2 rightFree.2,
        List.cons.injEq, and_assoc]

variable {parent child : List (List Char)}

/-- One path goes on below another just if its names go on after the other's. -/
theorem slashed_isPrefix (parentProper : ProperNames parent)
    (childProper : ProperNames child) :
    slashed parent ++ ['/'] <+: slashed child ↔ parent <+: child ∧ parent ≠ child := by
  induction parent generalizing child with
  | nil =>
    cases child with
    | nil => simp
    | cons name names => simp
  | cons first parent ih =>
    cases child with
    | nil => simp
    | cons name names =>
      have firstFree := (parentProper first List.mem_cons_self).2
      have nameFree := (childProper name List.mem_cons_self).2
      have rest := ih (fun other member => parentProper other (List.mem_cons_of_mem _ member))
        (fun other member => childProper other (List.mem_cons_of_mem _ member))
      obtain ⟨tail, begins⟩ : ∃ tail, slashed parent ++ ['/'] = '/' :: tail := by
        cases parent with
        | nil => exact ⟨[], rfl⟩
        | cons second parent => exact ⟨_, rfl⟩
      rw [slashed_cons, slashed_cons, List.cons_append, List.append_assoc, begins,
        List.cons_prefix_cons, name_isPrefix firstFree nameFree (slashed_atSlash names), ← begins, rest]
      simp only [List.cons_prefix_cons, ne_eq, List.cons.injEq]
      tauto

theorem name_eq (leftFree : '/' ∉ left) (rightFree : '/' ∉ right)
    (beforeSlash : AtSlash before) (afterSlash : AtSlash after) (same : left ++ before = right ++ after) :
    left = right ∧ before = after := by
  induction left generalizing right with
  | nil =>
    cases right with
    | nil => exact ⟨rfl, same⟩
    | cons c right =>
      obtain rfl := beforeSlash c _ same
      exact absurd List.mem_cons_self rightFree
  | cons c left ih =>
    cases right with
    | nil =>
      obtain rfl := afterSlash c _ same.symm
      exact absurd List.mem_cons_self leftFree
    | cons d right =>
      rw [List.mem_cons, not_or] at leftFree rightFree
      obtain ⟨rfl, rest⟩ := List.cons.inj same
      obtain ⟨rfl, both⟩ := ih leftFree.2 rightFree.2 rest
      exact ⟨rfl, both⟩

theorem slashed_injective {left right : List (List Char)} (leftProper : ProperNames left)
    (rightProper : ProperNames right) (same : slashed left = slashed right) : left = right := by
  induction left generalizing right with
  | nil =>
    cases right with
    | nil => rfl
    | cons name names => cases same
  | cons first left ih =>
    cases right with
    | nil => cases same
    | cons name names =>
      obtain ⟨rfl, rest⟩ := name_eq (leftProper first List.mem_cons_self).2
        (rightProper name List.mem_cons_self).2 (slashed_atSlash left) (slashed_atSlash names)
        (List.cons.inj same).2
      rw [ih (fun other member => leftProper other (List.mem_cons_of_mem _ member))
        (fun other member => rightProper other (List.mem_cons_of_mem _ member)) rest]

variable {names : List (List Char)}

theorem ProperNames.head {name : List Char}
    (proper : ProperNames (name :: names)) : ∃ c rest, name = c :: rest ∧ c ≠ '/' := by
  obtain ⟨nonempty, free⟩ := proper name List.mem_cons_self
  cases name with
  | nil => exact absurd rfl nonempty
  | cons c rest => exact ⟨c, rest, rfl, fun same => free (same ▸ List.mem_cons_self)⟩

theorem slashed_ne_root (proper : ProperNames names) : slashed names ≠ ['/'] := by
  cases names with
  | nil => exact nofun
  | cons name names =>
    obtain ⟨c, rest, rfl, _⟩ := proper.head
    simp

theorem renderPath_injective {left right : List (List Char)} (leftProper : ProperNames left)
    (rightProper : ProperNames right) (same : renderPath left = renderPath right) : left = right := by
  unfold renderPath at same
  split at same
  next root =>
    split at same
    next alsoRoot => rw [root, alsoRoot]
    next => exact absurd same.symm (slashed_ne_root rightProper)
  next =>
    split at same
    next => exact absurd same (slashed_ne_root leftProper)
    next => exact slashed_injective leftProper rightProper same

theorem renderPath_isPrefix (parentProper : ProperNames parent)
    (childProper : ProperNames child) : renderPath parent ++ ['/'] <+: renderPath child ↔
      parent ≠ [] ∧ parent <+: child ∧ parent ≠ child := by
  by_cases root : parent = []
  · subst root
    refine iff_of_false (fun isPrefix => ?_) fun below => below.1 rfl
    cases child with
    | nil => exact absurd isPrefix (by decide)
    | cons name names =>
      obtain ⟨c, rest, rfl, other⟩ := childProper.head
      simp [renderPath, Ne.symm other] at isPrefix
  · rw [and_iff_right root, ← slashed_isPrefix parentProper childProper, renderPath, if_neg root]
    by_cases childRoot : child = []
    · subst childRoot
      obtain ⟨name, names, rfl⟩ := List.exists_cons_of_ne_nil root
      obtain ⟨c, rest, rfl, _⟩ := parentProper.head
      simp [renderPath]
    · rw [renderPath, if_neg childRoot]

/-! ## Climbing -/

/-- How far names lead up from where they begin, and which names they enter from there. -/
def climbName : Nat × List (List Char) → List Char → Nat × List (List Char)
  | (up, entered), name =>
    if name = [] ∨ name = ['.'] then (up, entered)
    else if name = ['.', '.'] then
      if entered = [] then (up + 1, []) else (up, entered.dropLast)
    else (up, entered ++ [name])

def climb (names : List (List Char)) : Nat × List (List Char) := names.foldl climbName (0, [])

theorem enterName_climbed (directory : List (List Char)) (up : Nat) (entered : List (List Char)) (name : List Char) :
    enterName (directory.take (directory.length - up) ++ entered) name =
      directory.take (directory.length - (climbName (up, entered) name).1) ++ (climbName (up, entered) name).2 := by
  unfold enterName climbName
  by_cases stays : name = [] ∨ name = ['.']
  · simp [stays]
  · by_cases parent : name = ['.', '.']
    · by_cases empty : entered = []
      · have shorter : min (directory.length - up - 1) directory.length = directory.length - (up + 1) := by omega
        simp [parent, empty, List.dropLast_eq_take, List.take_take, shorter]
      · simp [parent, empty, List.dropLast_append_of_ne_nil]
    · simp [stays, parent]

theorem foldl_enterName (directory names : List (List Char)) : names.foldl enterName directory =
    directory.take (directory.length - (climb names).1) ++ (climb names).2 := by
  have walked : ∀ (up : Nat) (entered : List (List Char)),
      names.foldl enterName (directory.take (directory.length - up) ++ entered) =
        directory.take (directory.length - (names.foldl climbName (up, entered)).1) ++
          (names.foldl climbName (up, entered)).2 := by
    induction names with
    | nil => exact fun up entered => rfl
    | cons name names ih =>
      intro up entered
      rw [List.foldl_cons, List.foldl_cons, enterName_climbed]
      exact ih _ _
  have start := walked 0 []
  rwa [Nat.sub_zero, List.take_length, List.append_nil] at start

/-- What the names climb over, they enter again, and go on. -/
def ComesBack (directory names : List (List Char)) : Prop :=
  directory.drop (directory.length - (climb names).1) <+: (climb names).2 ∧
    directory.drop (directory.length - (climb names).1) ≠ (climb names).2

instance (directory names : List (List Char)) : Decidable (ComesBack directory names) :=
  inferInstanceAs (Decidable (_ ∧ _))

theorem stays_iff_comesBack (directory names : List (List Char)) :
    (directory <+: names.foldl enterName directory ∧ directory ≠ names.foldl enterName directory) ↔
      ComesBack directory names := by
  rw [foldl_enterName, ComesBack]
  have split := List.take_append_drop (directory.length - (climb names).1) directory
  constructor
  · rintro ⟨isPrefix, differ⟩
    nth_rewrite 1 [← split] at isPrefix
    refine ⟨(List.prefix_append_right_inj _).mp isPrefix, fun same => differ ?_⟩
    rw [← same, split]
  · rintro ⟨isPrefix, differ⟩
    refine ⟨?_, fun same => differ ?_⟩
    · nth_rewrite 1 [← split]
      exact (List.prefix_append_right_inj _).mpr isPrefix
    · exact List.append_cancel_left (split.trans same)

theorem pathNames_ne_nil (path : List Char) : pathNames path ≠ [] := by
  cases path with
  | nil => simp [pathNames]
  | cons c rest =>
    unfold pathNames
    split
    · simp
    · split <;> simp

theorem pathNames_append (left right : List Char) :
    pathNames (left ++ '/' :: right) = pathNames left ++ pathNames right := by
  induction left with
  | nil => simp [pathNames]
  | cons c left ih =>
    by_cases slash : c = '/'
    · simp [pathNames, slash, ih]
    · rw [List.cons_append, pathNames, if_neg slash, ih, pathNames, if_neg slash]
      cases found : pathNames left with
      | nil => exact absurd found (pathNames_ne_nil left)
      | cons name names => rfl

theorem resolvedNames_below (workingDirectory rest : String) {base : String} (named : base.toList ≠ []) :
    resolvedNames workingDirectory (base ++ "/" ++ rest) =
      (pathNames rest.toList).foldl enterName (resolvedNames workingDirectory base) := by
  have text : (base ++ "/" ++ rest).toList = base.toList ++ '/' :: rest.toList := by simp
  have begins : (base.toList ++ '/' :: rest.toList).head? = base.toList.head? := by
    cases found : base.toList with
    | nil => exact absurd found named
    | cons c more => rfl
  unfold resolvedNames
  rw [text, begins, pathNames_append]
  by_cases absolute : base.toList.head? = some '/'
  · simp [absolute]
  · simp [absolute]

/-! ## Resolving what is resolved -/

theorem resolvedNames_undotted (workingDirectory path : String) :
    ∀ name ∈ resolvedNames workingDirectory path, name ≠ ['.'] ∧ name ≠ ['.', '.'] := by
  have entered : ∀ (names start : List (List Char)), (∀ name ∈ start, name ≠ ['.'] ∧ name ≠ ['.', '.']) →
      ∀ name ∈ names.foldl enterName start, name ≠ ['.'] ∧ name ≠ ['.', '.'] := by
    intro names
    induction names with
    | nil => exact fun _ undotted => undotted
    | cons first names ih =>
      intro start undotted
      refine ih _ ?_
      unfold enterName
      split
      · exact undotted
      next own =>
        split
        · exact fun name member => undotted name (List.dropLast_subset _ member)
        next parent =>
          intro name member
          rcases List.mem_append.mp member with before | new
          · exact undotted name before
          · obtain rfl := List.mem_singleton.mp new
            exact ⟨fun same => own (.inr same), parent⟩
  exact entered _ [] (by simp)

theorem pathNames_name {name : List Char} (slashless : '/' ∉ name) : pathNames name = [name] := by
  induction name with
  | nil => rfl
  | cons c rest ih =>
    have other : c ≠ '/' := fun same => slashless (by simp [same])
    rw [pathNames, if_neg other, ih fun member => slashless (List.mem_cons_of_mem _ member)]

theorem pathNames_slashed (proper : ProperNames names) :
    pathNames (slashed names) = [] :: names := by
  induction names with
  | nil => rfl
  | cons name names ih =>
    have own := pathNames_name (proper name List.mem_cons_self).2
    have rest := ih fun other member => proper other (List.mem_cons_of_mem _ member)
    rw [slashed_cons, pathNames, if_pos rfl]
    cases names with
    | nil => rw [slashed_nil, List.append_nil, own]
    | cons next names =>
      rw [slashed_cons, pathNames, if_pos rfl] at rest
      rw [slashed_cons, pathNames_append, own, (List.cons.inj rest).2]
      rfl

theorem foldl_enterName_proper {names entered : List (List Char)} (proper : ProperNames names)
    (undotted : ∀ name ∈ names, name ≠ ['.'] ∧ name ≠ ['.', '.']) :
    names.foldl enterName entered = entered ++ names := by
  induction names generalizing entered with
  | nil => rw [List.foldl_nil, List.append_nil]
  | cons name names ih =>
    have own : enterName entered name = entered ++ [name] := by
      have filled := (proper name List.mem_cons_self).1
      obtain ⟨notDot, notParent⟩ := undotted name List.mem_cons_self
      rw [enterName, if_neg (by simp [filled, notDot]), if_neg notParent]
    rw [List.foldl_cons, own, ih (fun other member => proper other (List.mem_cons_of_mem _ member))
      fun other member => undotted other (List.mem_cons_of_mem _ member), List.append_assoc]
    rfl

theorem resolve_resolve (workingDirectory directory path : String) :
    resolve workingDirectory (resolve directory path) = resolve directory path := by
  have proper := resolvedNames_proper directory path
  have undotted := resolvedNames_undotted directory path
  have names : (pathNames (renderPath (resolvedNames directory path))).foldl enterName [] =
      resolvedNames directory path := by
    by_cases empty : resolvedNames directory path = []
    · simp [renderPath, empty, pathNames, enterName]
    · rw [renderPath, if_neg empty, pathNames_slashed proper, List.foldl_cons]
      exact foldl_enterName_proper proper undotted
  have begins : (renderPath (resolvedNames directory path)).head? = some '/' := by
    unfold renderPath
    split
    · rfl
    next filled =>
      obtain ⟨name, rest, same⟩ := List.exists_cons_of_ne_nil filled
      rw [same, slashed_cons]
      rfl
  have again : resolvedNames workingDirectory (resolve directory path) = resolvedNames directory path := by
    unfold resolvedNames
    rw [show (resolve directory path).toList = renderPath (resolvedNames directory path) from String.toList_ofList,
      if_pos begins]
    exact names
  rw [resolve, again]
  rfl

theorem resolve_absolute {path : String} (absolute : path.toList.head? = some '/')
    (workingDirectory directory : String) : resolve workingDirectory path = resolve directory path := by
  simp [resolve, resolvedNames, absolute]

theorem resolve_ne_empty (workingDirectory path : String) : resolve workingDirectory path ≠ "" := by
  intro empty
  have text : renderPath (resolvedNames workingDirectory path) = [] := by
    have whole := congrArg String.toList empty
    rwa [resolve, String.toList_ofList] at whole
  unfold renderPath at text
  split at text
  · cases text
  next filled =>
    obtain ⟨name, rest, same⟩ := List.exists_cons_of_ne_nil filled
    rw [same, slashed_cons] at text
    cases text

end Advance.JavaScript
