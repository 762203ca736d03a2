/-
  LOCATIONS — what two paths have to do with each other when both lead somewhere.

  1. **Steps** — a walk stays where it is at an empty name and at a single dot.  The steps of a
     path are its other names, and where a path leads depends on these alone (`locate_eq`).  A
     path without steps leads to a directory.

  2. **The last step** — a parent is found by looking at the text of a path from its end.  It has
     all steps of the path but the last one, and that one is the name of the path
     (`exists_parent`).

  3. **Neighbours** — so the state file stands beside the settings file, and if both paths lead to
     the same file, then the settings file has the name of the state file
     (`Expansion.format_of_same`).
-/
import CommandLauncher.Expansion
import CommandLauncher.Proofs.Rewriting

namespace CommandLauncher

namespace Path

/-! ## Steps -/

/-- The names of a path that lead from one place to another. -/
def steps (p : List Char) : List (List Char) :=
  (Text.splitChars '/' p).filter fun name => name ≠ [] ∧ name ≠ ['.']

theorem steps_append_slash (p q : List Char) : steps (p ++ '/' :: q) = steps p ++ steps q := by
  rw [steps, Text.splitChars_append_sep, List.filter_append]
  rfl

theorem steps_slash (p : List Char) : steps ('/' :: p) = steps p := steps_append_slash [] p

/-- A name is a step or nothing. -/
theorem steps_name {name : List Char} (h : '/' ∉ name) :
    steps name = if name ≠ [] ∧ name ≠ ['.'] then [name] else [] := by
  rw [steps, Text.splitChars_of_not_mem h, List.filter_cons, List.filter_nil]
  simp only [decide_eq_true_eq]

end Path

open CommandLauncher.Path

namespace FileSystem

variable {fs : FileSystem}

/-- Where a name leads. -/
def step (at' : Location) (name : String) : Location :=
  if name = "" ∨ name = "." then at'
  else if name = ".." then at'.dropLast
  else at' ++ [name]

/-- Where names lead. -/
def follow (at' : Location) (names : List String) : Location := names.foldl step at'

/-- A walk that ends well ends where its names lead. -/
theorem walkFrom_eq (names : List String) : ∀ {start stop : Location},
    fs.walkFrom start names = .ok stop → stop = follow start names := by
  induction names with
  | nil => exact fun h => (Except.ok.inj h).symm
  | cons name names ih =>
    intro start stop h
    rw [walkFrom] at h
    show stop = follow (step start name) names
    rw [step]
    split at h
    · cases h
    · cases h
    split at h
    · rename_i hstays
      rw [if_pos hstays]
      exact ih h
    rename_i hstays
    rw [if_neg hstays]
    split at h
    · rename_i hup
      rw [if_pos hup]
      exact ih h
    rename_i hup
    rw [if_neg hup]
    split at h
    · cases h
    · exact ih h

theorem stays_ofList_iff {name : List Char} :
    (String.ofList name = "" ∨ String.ofList name = ".") ↔ (name = [] ∨ name = ['.']) := by
  rw [← String.toList_inj, ← String.toList_inj, String.toList_ofList]
  exact Iff.rfl

/-- Only steps matter. -/
theorem follow_steps (names : List (List Char)) : ∀ at' : Location,
    follow at' (names.map String.ofList) =
      follow at' ((names.filter fun name => name ≠ [] ∧ name ≠ ['.']).map String.ofList) := by
  induction names with
  | nil => exact fun _ => rfl
  | cons name names ih =>
    intro at'
    by_cases hstays : name = [] ∨ name = ['.']
    · have hskip : ¬ (name ≠ [] ∧ name ≠ ['.']) := fun h => hstays.elim h.1 h.2
      rw [List.filter_cons_of_neg (by simpa using hskip), ← ih]
      show follow (step at' (String.ofList name)) (names.map String.ofList) = _
      rw [step, if_pos (stays_ofList_iff.mpr hstays)]
    · have hstep : name ≠ [] ∧ name ≠ ['.'] := not_or.mp hstays
      rw [List.filter_cons_of_pos (by simpa using hstep)]
      exact ih (step at' (String.ofList name))

/-- A walk that goes nowhere is in a directory. -/
theorem get?_of_walkFrom_stays (names : List String) (hne : names ≠ [])
    (hstays : ∀ name ∈ names, name = "" ∨ name = ".") : ∀ {start stop : Location},
    fs.walkFrom start names = .ok stop → fs.get? stop = some .directory := by
  induction names with
  | nil => exact absurd rfl hne
  | cons name names ih =>
    intro start stop h
    obtain ⟨hname, hnames⟩ := List.forall_mem_cons.mp hstays
    rw [walkFrom] at h
    split at h
    · cases h
    · cases h
    · rename_i hdir
      rw [if_pos hname] at h
      cases names with
      | nil =>
        obtain rfl : start = stop := Except.ok.inj h
        exact hdir
      | cons next rest => exact ih (List.cons_ne_nil next rest) hnames h

/-- Where a path starts. -/
def startOf (fs : FileSystem) (p : List Char) : Location :=
  if isRooted p then [] else fs.workingDirectory

theorem walkFrom_of_locate {path : String} {at' : Location} (h : fs.locate path = .ok at') :
    fs.walkFrom (fs.startOf path.toList) (names path) = .ok at' := by
  rw [locate] at h
  split at h
  · cases h
  split at h
  · cases h
  · exact h

/-- **Where a path leads** is a matter of its steps, and of where it starts. -/
theorem locate_eq {path : String} {at' : Location} (h : fs.locate path = .ok at') :
    at' = follow (fs.startOf path.toList) ((steps path.toList).map String.ofList) := by
  rw [walkFrom_eq _ (walkFrom_of_locate h), names, Text.split, follow_steps]
  rfl

/-- A path that does not lead to a directory has steps. -/
theorem steps_ne_nil_of_locate {path : String} {at' : Location} (h : fs.locate path = .ok at')
    (hfile : fs.get? at' ≠ some .directory) : steps path.toList ≠ [] := by
  intro hnil
  refine hfile (get?_of_walkFrom_stays (names path) ?_ (fun name hname => ?_) (walkFrom_of_locate h))
  · exact mt List.map_eq_nil_iff.mp (Text.splitChars_ne_nil '/' path.toList)
  · obtain ⟨cs, hcs, rfl⟩ := List.mem_map.mp hname
    have hnot := List.filter_eq_nil_iff.mp hnil cs hcs
    rw [stays_ofList_iff]
    simpa [Classical.or_iff_not_imp_left] using hnot

end FileSystem

namespace Path

/-! ## The last step -/

theorem slash_not_mem_lastName (down : List Char) : '/' ∉ (lastName down).reverse := by
  intro h
  simpa using List.all_eq_true.mp List.all_takeWhile '/' (List.mem_reverse.mp h)

/-- The last name of a body comes behind all the others. -/
theorem steps_reverse (down : List Char) :
    steps down.reverse = steps (withoutLast down).reverse ++ steps (lastName down).reverse := by
  have hsplit : lastName down ++ down.dropWhile (· ≠ '/') = down := List.takeWhile_append_dropWhile
  rw [withoutLast]
  cases hrest : down.dropWhile (· ≠ '/') with
  | nil =>
    rw [hrest, List.append_nil] at hsplit
    rw [hsplit]
    rfl
  | cons c rest =>
    have hslash : c = '/' := by
      have hnot := List.head?_dropWhile_not (fun c : Char => decide (c ≠ '/')) down
      rw [hrest] at hnot
      simpa using hnot
    have hreverse : down.reverse = rest.reverse ++ '/' :: (lastName down).reverse := by
      rw [← congrArg List.reverse hsplit, hrest, hslash, List.reverse_append, List.reverse_cons,
        List.append_assoc]
      rfl
    rw [hreverse, steps_append_slash]
    rfl

/-- What means nothing at the end of a body is no step. -/
theorem steps_trimBody (down : List Char) : steps (trimBody down).reverse = steps down.reverse := by
  fun_induction trimBody down with
  | case1 => rfl
  | case2 down hne hlast ih =>
    have hnothing : steps (lastName down).reverse = [] := by
      rcases hlast with hlast | hlast
      · rw [hlast]
        rfl
      · rw [hlast]
        rfl
    rw [ih, steps_reverse down, hnothing, List.append_nil]
  | case3 down hne hlast => rfl

/-- The last name of a trimmed body is a step. -/
theorem lastName_trimBody {down : List Char} (h : trimBody down ≠ []) :
    lastName (trimBody down) ≠ [] ∧ lastName (trimBody down) ≠ ['.'] := by
  fun_induction trimBody down with
  | case1 => exact absurd rfl h
  | case2 down hne hlast ih => exact ih h
  | case3 down hne hlast => exact not_or.mp hlast

theorem withoutLast_suffix (down : List Char) : withoutLast down <:+ down :=
  (List.drop_suffix _ _).trans (List.dropWhile_suffix _)

theorem trimBody_suffix (down : List Char) : trimBody down <:+ down := by
  fun_induction trimBody down with
  | case1 => exact List.suffix_refl []
  | case2 down hne hlast ih => exact ih.trans (withoutLast_suffix down)
  | case3 down hne hlast => exact List.suffix_refl down

/-! ### Bases -/

/-- What follows the base. -/
def body (p : List Char) : List Char := p.drop (base p).length

theorem base_append_body (p : List Char) : base p ++ body p = p := by
  have hbase : base p <+: p := by
    rw [base]
    split
    · exact List.take_prefix 1 p
    · exact List.nil_prefix
  exact List.prefix_iff_eq_append.mp hbase

theorem reverse_bodyDown (p : List Char) : (bodyDown p).reverse = body p := List.reverse_reverse _

/-- The first character says whether a path starts at the root. -/
theorem isRooted_append {p : List Char} (h : p ≠ []) (q : List Char) :
    isRooted (p ++ q) = isRooted p := by
  cases p with
  | nil => exact absurd rfl h
  | cons c p =>
    have hfirst : ∀ rest : List Char, isRooted (c :: rest) = decide (c = '/') := by
      intro rest
      unfold isRooted
      split
      · rename_i heq
        simpa using (List.cons.inj heq).1
      · rename_i hnot
        simpa using fun hc : c = '/' => hnot rest (by rw [hc])
    rw [List.cons_append, hfirst, hfirst]

theorem exists_of_isRooted {p : List Char} (h : isRooted p = true) : ∃ q, p = '/' :: q := by
  unfold isRooted at h
  split at h
  · exact ⟨_, rfl⟩
  · cases h

theorem exists_of_startsHere {p : List Char} (h : startsHere p = true) :
    ∃ q, p = '.' :: q ∧ (q = [] ∨ ∃ r, q = '/' :: r) := by
  unfold startsHere at h
  split at h
  · exact ⟨[], rfl, .inl rfl⟩
  · exact ⟨_, rfl, .inr ⟨_, rfl⟩⟩
  · cases h

/-- A path starts at the root, with a leading dot, or with its body. -/
theorem base_cases (p : List Char) :
    (∃ q, p = '/' :: q ∧ base p = ['/'] ∧ body p = q) ∨
    (∃ q, p = '.' :: q ∧ base p = ['.'] ∧ body p = q ∧ (q = [] ∨ ∃ r, q = '/' :: r)) ∨
    isRooted p = false ∧ startsHere p = false ∧ base p = [] ∧ body p = p := by
  by_cases hroot : isRooted p = true
  · obtain ⟨q, rfl⟩ := exists_of_isRooted hroot
    exact .inl ⟨q, rfl, rfl, rfl⟩
  have hrelative : isRooted p = false := Bool.eq_false_iff.mpr hroot
  by_cases hhere : startsHere p = true
  · obtain ⟨q, rfl, hq⟩ := exists_of_startsHere hhere
    have hbase : base ('.' :: q) = ['.'] := by rw [base, hhere, Bool.or_true, if_pos rfl]; rfl
    have hbody : body ('.' :: q) = q := by rw [body, hbase]; rfl
    exact .inr (.inl ⟨q, rfl, hbase, hbody, hq⟩)
  · have hnowhere : startsHere p = false := Bool.eq_false_iff.mpr hhere
    have hbase : base p = [] := by rw [base, hrelative, hnowhere]; rfl
    have hbody : body p = p := by rw [body, hbase]; rfl
    exact .inr (.inr ⟨hrelative, hnowhere, hbase, hbody⟩)

/-- Behind a leading dot there is nothing or a slash, also in each part of the path. -/
theorem nil_or_slash_of_part {q start : List Char} (h : start <+: q)
    (hq : q = [] ∨ ∃ r, q = '/' :: r) : start = [] ∨ ∃ r, start = '/' :: r := by
  cases start with
  | nil => exact .inl rfl
  | cons c start =>
    obtain ⟨rest, hrest⟩ := h
    rcases hq with rfl | ⟨r, rfl⟩
    · cases hrest
    · obtain rfl : c = '/' := (List.cons.inj hrest).1
      exact .inr ⟨start, rfl⟩

/-- A base is no step, and it says whether the path starts at the root, however much of the body
    is behind it. -/
theorem base_append {p start : List Char} (h : start <+: body p) :
    steps (base p ++ start) = steps start ∧ isRooted (base p ++ start) = isRooted p := by
  rcases base_cases p with ⟨q, rfl, hbase, -⟩ | ⟨q, rfl, hbase, hbody, hq⟩ |
    ⟨hrelative, -, hbase, hbody⟩
  · rw [hbase]
    exact ⟨steps_slash start, rfl⟩
  · rw [hbase]
    refine ⟨?_, rfl⟩
    rcases nil_or_slash_of_part (hbody ▸ h) hq with rfl | ⟨r, rfl⟩
    · rfl
    · rw [steps_slash]
      exact steps_append_slash ['.'] r
  · rw [hbase]
    refine ⟨rfl, ?_⟩
    obtain ⟨rest, hrest⟩ := hbody ▸ h
    cases start with
    | nil => exact hrelative.symm
    | cons c start =>
      rw [← hrest]
      exact (isRooted_append (List.cons_ne_nil c start) rest).symm

/-- What means nothing at the end of a path is no step. -/
theorem steps_eq_trimBody (p : List Char) : steps p = steps (trimBody (bodyDown p)).reverse := by
  rw [steps_trimBody, reverse_bodyDown, ← (base_append (List.prefix_refl (body p))).1,
    base_append_body]

theorem steps_lastName {down : List Char} (h : trimBody down ≠ []) :
    steps (lastName (trimBody down)).reverse = [(lastName (trimBody down)).reverse] := by
  obtain ⟨hname, hdot⟩ := lastName_trimBody h
  rw [steps_name (slash_not_mem_lastName _)]
  exact if_pos ⟨mt List.reverse_eq_nil_iff.mp hname, fun hrev => hdot (List.reverse_eq_iff.mp hrev)⟩

/-- Nothing is left of the body of a path without steps. -/
theorem trimBody_eq_nil_iff {p : List Char} : trimBody (bodyDown p) = [] ↔ steps p = [] := by
  rw [steps_eq_trimBody]
  refine ⟨fun hnil => by rw [hnil]; rfl, fun hsteps => Classical.byContradiction fun hne => ?_⟩
  rw [steps_reverse, steps_lastName hne] at hsteps
  exact List.cons_ne_nil _ _ (List.append_eq_nil_iff.mp hsteps).2

/-- A parent is a part of the path. -/
theorem prefix_of_parentBody (p : List Char) :
    (trimBody (withoutLast (trimBody (bodyDown p)))).reverse <+: body p := by
  rw [← reverse_bodyDown]
  refine List.reverse_prefix.mpr ((trimBody_suffix _).trans ?_)
  exact (withoutLast_suffix _).trans (trimBody_suffix _)

/-- **A path with steps has a parent**, which has all of them but the last; and that one is the
    last name of the path. -/
theorem exists_parent {p : List Char} (h : steps p ≠ []) :
    ∃ parent name, parentChars? p = some parent ∧ steps p = steps parent ++ [name] ∧
      isRooted parent = isRooted p ∧ name = (lastName (trimBody (bodyDown p))).reverse := by
  have hne : trimBody (bodyDown p) ≠ [] := mt trimBody_eq_nil_iff.mp h
  obtain ⟨hparent, hrooted⟩ := base_append (prefix_of_parentBody p)
  refine ⟨_, _, if_neg hne, ?_, hrooted, rfl⟩
  rw [hparent, steps_trimBody, steps_eq_trimBody, steps_reverse, steps_lastName hne]

/-! ## Neighbours -/

/-- The steps below a directory come behind its own. -/
theorem steps_join {d q : String} (hd : d ≠ "") (hq : isRooted q.toList = false) :
    steps (join d q).toList = steps d.toList ++ steps q.toList ∧
      isRooted (join d q).toList = isRooted d.toList := by
  have hne : d.toList ≠ [] := mt String.toList_eq_nil_iff.mp hd
  rw [join, hq, if_neg Bool.false_ne_true]
  split
  · rename_i hend
    have hslash : d.toList.getLast? = some '/' := by simpa [hd] using hend
    obtain ⟨cs, hcs⟩ := List.getLast?_eq_some_iff.mp hslash
    rw [String.toList_append]
    refine ⟨?_, isRooted_append hne _⟩
    have hsteps : steps d.toList = steps cs := by
      rw [hcs, steps_append_slash]
      exact List.append_nil _
    rw [hsteps, hcs, List.append_assoc]
    exact steps_append_slash cs q.toList
  · rw [String.toList_append, String.toList_append, List.append_assoc]
    exact ⟨steps_append_slash d.toList q.toList, isRooted_append hne _⟩

end Path

/-- The directory of a settings file has all its steps but the last. -/
theorem Store.exists_directory {s : Store} (h : steps s.path.toList ≠ []) :
    ∃ name, steps s.path.toList = steps s.directory.toList ++ [name] ∧
      isRooted s.directory.toList = isRooted s.path.toList ∧ s.directory ≠ "" ∧
      name = (lastName (trimBody (bodyDown s.path.toList))).reverse := by
  obtain ⟨parent, name, hparent, hsteps, hrooted, hname⟩ := exists_parent h
  have hdirectory : s.directory =
      if (String.ofList parent).isEmpty then "." else String.ofList parent := by
    rw [Store.directory, parent?, hparent]
    rfl
  refine ⟨name, ?_⟩
  rw [hsteps, ← hrooted, hdirectory]
  split
  · rename_i hempty
    have hnil : parent = [] := String.ofList_eq_empty_iff.mp (String.isEmpty_iff.mp hempty)
    subst hnil
    exact ⟨rfl, rfl, by decide, hname⟩
  · rename_i hsome
    rw [String.toList_ofList]
    exact ⟨rfl, rfl, fun hempty => hsome (String.isEmpty_iff.mpr hempty), hname⟩

namespace Expansion

/-- A file with the name of the state file holds JSON. -/
theorem format_of_fileName {path : String} (h : fileName? path = some fileName) :
    Format.ofPath path = .json := by
  have hextension : extension? path = some "json" := by
    rw [extension?, h]
    decide +kernel
  rw [Format.ofPath, if_pos hextension]

/-- Only its own name leads to the state file from its directory. -/
theorem eq_of_step {place : Location} {name : String}
    (h : FileSystem.step place name = place ++ [fileName]) : name = fileName := by
  have hlength := congrArg List.length h
  rw [List.length_append, List.length_singleton] at hlength
  rw [FileSystem.step] at h hlength
  split at h
  · rename_i hstays
    rw [if_pos hstays] at hlength
    omega
  rename_i hstays
  rw [if_neg hstays] at hlength
  split at h
  · rename_i hup
    rw [if_pos hup, List.length_dropLast] at hlength
    omega
  · exact List.singleton_inj.mp (List.append_cancel_left h)

/-- **The state file stands beside the settings file.**  If they are the same file, then it has
    the name of the state file. -/
theorem fileName_of_same {s : Store} {fs : FileSystem} {at' : Location}
    (hsettings : fs.locate s.path = .ok at') (hfile : fs.get? at' ≠ some .directory)
    (hstate : fs.locate (pathFor s) = .ok at') : fileName? s.path = some fileName := by
  obtain ⟨name, hsteps, hrooted, hne, hname⟩ :=
    Store.exists_directory (FileSystem.steps_ne_nil_of_locate hsettings hfile)
  obtain ⟨hbelow, hsameStart⟩ := steps_join (q := fileName) hne (by decide +kernel)
  have hown : (steps fileName.toList).map String.ofList = [fileName] := by decide +kernel
  -- both paths go from the same place to the directory, and then one step further
  let place := FileSystem.follow (fs.startOf s.path.toList)
    ((steps s.directory.toList).map String.ofList)
  have hat : at' = FileSystem.step place (String.ofList name) := by
    rw [FileSystem.locate_eq hsettings, hsteps, List.map_append, FileSystem.follow, List.foldl_append]
    rfl
  have hbeside : at' = FileSystem.step place fileName := by
    rw [FileSystem.locate_eq hstate, pathFor, hbelow, List.map_append, hown, FileSystem.follow,
      List.foldl_append, FileSystem.startOf, hsameStart, hrooted]
    rfl
  have hordinary : FileSystem.step place fileName = place ++ [fileName] := by
    rw [FileSystem.step, if_neg (by decide), if_neg (by decide)]
  have hfileName : String.ofList name = fileName := eq_of_step (hat.symm.trans (hbeside.trans hordinary))
  have hchars : name = fileName.toList := by rw [← hfileName, String.toList_ofList]
  rw [fileName?, ← hname, hchars, if_neg (by decide), String.ofList_toList]

/-- If the state file is the settings file, then it holds JSON. -/
theorem format_of_same {s : Store} {fs : FileSystem} {at' : Location}
    (hsettings : fs.locate s.path = .ok at') (hfile : fs.get? at' ≠ some .directory)
    (hstate : fs.locate (pathFor s) = .ok at') : Format.ofPath s.path = .json :=
  format_of_fileName (fileName_of_same hsettings hfile hstate)

end Expansion

end CommandLauncher
