/-
  THE NEAREST FILE — which settings a start directory belongs to.

  1. **Going up** — a path's parent is found in its text.  It is a part of the path, it starts
     where the path starts, and it has all of its names but the last (`parentChars?_spec`).  So
     the parents are counted by the names that are dropped, and a path has as many of them as it
     has names (`isSome_up`, `above_of_up`).

  2. **A directory** — among the files of one directory the order of the three names decides
     (`inDirectory?_eq_some_iff`).

  3. **The search** — the directories are asked in the order of their distance, so a nearer one
     wins whatever the name of its file is (`nearest?_eq_some_iff`).  The search finds the nearest
     file if there is one, and reports the start directory if there is none (`find_nearest`).
-/
import CommandLauncher.Proofs.Locations
import CommandLauncher.Store

namespace CommandLauncher

namespace Path

/-! ## Going up -/

/-- The names of a path, the leading dot included. -/
def components (p : List Char) : List (List Char) :=
  (if startsHere p then [['.']] else []) ++ steps p

/-- The path `k` parents up. -/
def up : Nat → String → Option String
  | 0, p => some p
  | k + 1, p => (parent? p).bind (up k)

/-- **`d` stands `k` names above `p`**, as the two are spelled. -/
structure Above (k : Nat) (d p : List Char) : Prop where
  text : d <+: p
  rooted : isRooted d = isRooted p
  dropped : ∃ names, names.length = k ∧ components p = components d ++ names

theorem Above.refl (p : List Char) : Above 0 p p where
  text := List.prefix_refl p
  rooted := rfl
  dropped := ⟨[], rfl, (List.append_nil _).symm⟩

theorem Above.trans {j k : Nat} {d q p : List Char} (h : Above j d q) (h' : Above k q p) :
    Above (j + k) d p where
  text := h.text.trans h'.text
  rooted := h.rooted.trans h'.rooted
  dropped := by
    obtain ⟨names, hlength, hnames⟩ := h.dropped
    obtain ⟨names', hlength', hnames'⟩ := h'.dropped
    refine ⟨names ++ names', ?_, ?_⟩
    · rw [List.length_append, hlength, hlength']
    · rw [hnames', hnames, List.append_assoc]

/-- The names that are left are counted. -/
theorem Above.length {k : Nat} {d p : List Char} (h : Above k d p) :
    (components p).length = (components d).length + k := by
  obtain ⟨names, hlength, hnames⟩ := h.dropped
  rw [hnames, List.length_append, hlength]

/-- A trimmed body that stands for itself is no single dot. -/
theorem reverse_trimBody_ne_dot (down : List Char) : (trimBody down).reverse ≠ ['.'] := by
  intro h
  have hdot : trimBody down = ['.'] := List.reverse_eq_iff.mp h
  have hne : trimBody down ≠ [] := by
    rw [hdot]
    exact List.cons_ne_nil '.' []
  refine (lastName_trimBody hne).2 ?_
  rw [hdot]
  rfl

theorem startsHere_dot {q : List Char} (h : q = [] ∨ ∃ r, q = '/' :: r) :
    startsHere ('.' :: q) = true := by
  rcases h with rfl | ⟨r, rfl⟩ <;> rfl

/-- What is left of a path starts with a dot if the path does. -/
theorem startsHere_base_append {p start : List Char} (h : start <+: body p) (hdot : start ≠ ['.']) :
    startsHere (base p ++ start) = startsHere p := by
  rcases base_cases p with ⟨q, rfl, hbase, -⟩ | ⟨q, rfl, hbase, hbody, hq⟩ |
    ⟨-, hnowhere, hbase, hbody⟩
  · rw [hbase]
    rfl
  · rw [hbase, startsHere_dot hq]
    exact startsHere_dot (nil_or_slash_of_part (hbody ▸ h) hq)
  · rw [hbase, hnowhere, List.nil_append, Bool.eq_false_iff]
    intro hstart
    obtain ⟨q, rfl, rfl | ⟨r, rfl⟩⟩ := exists_of_startsHere hstart
    · exact hdot rfl
    · obtain ⟨rest, rfl⟩ := hbody ▸ h
      cases hnowhere

/-- **A parent stands one name above**, and only a path without names has none. -/
theorem parentChars?_spec (p : List Char) :
    (parentChars? p = none ∧ components p = []) ∨ ∃ q, parentChars? p = some q ∧ Above 1 q p := by
  by_cases hsteps : steps p = []
  · have hparent : parentChars? p = if startsHere p then some [] else none :=
      if_pos (trimBody_eq_nil_iff.mpr hsteps)
    have hcomponents : components p = if startsHere p then [['.']] else [] := by
      rw [components, hsteps, List.append_nil]
    by_cases hhere : startsHere p = true
    · rw [if_pos hhere] at hparent hcomponents
      obtain ⟨q, rfl, -⟩ := exists_of_startsHere hhere
      exact .inr ⟨[], hparent, List.nil_prefix, rfl, [['.']], rfl, hcomponents⟩
    · rw [if_neg hhere] at hparent hcomponents
      exact .inl ⟨hparent, hcomponents⟩
  · obtain ⟨parent, name, hparent, hname, hrooted, -⟩ := exists_parent hsteps
    have hne : trimBody (bodyDown p) ≠ [] := mt trimBody_eq_nil_iff.mp hsteps
    obtain rfl := Option.some.inj (hparent.symm.trans (if_neg hne))
    refine .inr ⟨_, hparent, ?_, hrooted, [name], rfl, ?_⟩
    · have hpart := (List.prefix_append_right_inj (base p)).mpr (prefix_of_parentBody p)
      rwa [base_append_body] at hpart
    · rw [components, components, startsHere_base_append (prefix_of_parentBody p)
        (reverse_trimBody_ne_dot _), hname, List.append_assoc]

theorem parent?_eq_none_iff {p : String} : parent? p = none ↔ components p.toList = [] := by
  rw [parent?, Option.map_eq_none_iff]
  rcases parentChars?_spec p.toList with ⟨hparent, hcomponents⟩ | ⟨q, hparent, habove⟩
  · exact ⟨fun _ => hcomponents, fun _ => hparent⟩
  · have hlength := habove.length
    refine ⟨fun h => ?_, fun h => ?_⟩
    · rw [hparent] at h
      cases h
    · rw [h, List.length_nil] at hlength
      omega

theorem above_of_parent? {p q : String} (h : parent? p = some q) : Above 1 q.toList p.toList := by
  obtain ⟨cs, hcs, rfl⟩ := Option.map_eq_some_iff.mp h
  rcases parentChars?_spec p.toList with ⟨hparent, -⟩ | ⟨q, hparent, habove⟩
  · rw [hparent] at hcs
    cases hcs
  · obtain rfl := Option.some.inj (hparent.symm.trans hcs)
    rw [String.toList_ofList]
    exact habove

/-- **`k` parents up**, `k` names are dropped. -/
theorem above_of_up {d : String} : ∀ {k : Nat} {p : String},
    up k p = some d → Above k d.toList p.toList := by
  intro k
  induction k with
  | zero =>
    intro p h
    obtain rfl := Option.some.inj h
    exact Above.refl _
  | succ k ih =>
    intro p h
    obtain ⟨q, hparent, hup⟩ := Option.bind_eq_some_iff.mp h
    exact (ih hup).trans (above_of_parent? hparent)

/-- **A path has as many parents as it has names.** -/
theorem isSome_up : ∀ {k : Nat} {p : String},
    (up k p).isSome ↔ k ≤ (components p.toList).length := by
  intro k
  induction k with
  | zero => exact fun {p} => iff_of_true rfl (Nat.zero_le _)
  | succ k ih =>
    intro p
    rw [up]
    cases hparent : parent? p with
    | none =>
      rw [parent?_eq_none_iff.mp hparent]
      exact iff_of_false Bool.false_ne_true (Nat.not_succ_le_zero k)
    | some q =>
      rw [(above_of_parent? hparent).length, Option.bind_some, ih]
      exact Nat.succ_le_succ_iff.symm

/-! ### Ancestors -/

theorem ancestors_of_none {p : String} (h : parent? p = none) : ancestors p = [p] := by
  rw [parent?, Option.map_eq_none_iff] at h
  rw [ancestors, ancestorsOf.eq_def]
  split
  · rw [List.map_singleton, String.ofList_toList]
  · rename_i q hq
    cases h.symm.trans hq

theorem ancestors_of_some {p q : String} (h : parent? p = some q) :
    ancestors p = p :: ancestors q := by
  obtain ⟨cs, hcs, rfl⟩ := Option.map_eq_some_iff.mp h
  rw [ancestors, ancestorsOf.eq_def]
  split
  · rename_i hnone
    cases hcs.symm.trans hnone
  · rename_i r hr
    obtain rfl := Option.some.inj (hcs.symm.trans hr)
    rw [List.map_cons, String.ofList_toList, ancestors, String.toList_ofList]

/-- The list of ancestors is in the order of their distance. -/
theorem getElem?_ancestors : ∀ (k : Nat) (p : String), (ancestors p)[k]? = up k p := by
  intro k
  induction k with
  | zero =>
    intro p
    cases hparent : parent? p with
    | none =>
      rw [ancestors_of_none hparent]
      rfl
    | some q =>
      rw [ancestors_of_some hparent]
      rfl
  | succ k ih =>
    intro p
    rw [up]
    cases hparent : parent? p with
    | none =>
      rw [ancestors_of_none hparent]
      rfl
    | some q =>
      rw [ancestors_of_some hparent, List.getElem?_cons_succ, ih]
      rfl

end Path

namespace Store

variable {fs : FileSystem}

/-! ## A directory -/

/-- **`f` is the first** of the three names of settings files that exists in `d`. -/
def IsFirstIn (fs : FileSystem) (d f : String) : Prop :=
  ∃ preferred others,
    [".termdeck.json", ".termdeck.yaml", ".termdeck.yml"] = preferred ++ f :: others ∧
    fs.contains (Path.join d f) = true ∧ ∀ g ∈ preferred, fs.contains (Path.join d g) = false

/-- No settings file is in `d`, under none of the three names. -/
def Lacks (fs : FileSystem) (d : String) : Prop :=
  ∀ f ∈ [".termdeck.json", ".termdeck.yaml", ".termdeck.yml"],
    fs.contains (Path.join d f) = false

theorem inDirectory?_eq_none_iff {d : String} : inDirectory? fs d = none ↔ Lacks fs d := by
  rw [inDirectory?, List.find?_eq_none]
  simp only [List.forall_mem_map, Bool.not_eq_true]
  exact Iff.rfl

/-- In one directory the order of the names decides. -/
theorem inDirectory?_eq_some_iff {d path : String} :
    inDirectory? fs d = some path ↔ ∃ f, IsFirstIn fs d f ∧ path = Path.join d f := by
  rw [inDirectory?, List.find?_map, Option.map_eq_some_iff]
  refine exists_congr fun f => ?_
  rw [List.find?_eq_some_iff_append]
  refine and_congr ?_ eq_comm
  constructor
  · rintro ⟨hcontains, preferred, others, hnames, hnone⟩
    exact ⟨preferred, others, hnames, hcontains, fun g hg => Bool.not_eq_true' _ ▸ hnone g hg⟩
  · rintro ⟨preferred, others, hnames, hcontains, hnone⟩
    exact ⟨hcontains, preferred, others, hnames, fun g hg => (Bool.not_eq_true' _).mpr (hnone g hg)⟩

/-! ## The search -/

/-- **`path` is the nearest settings file**: it is the first in a directory so many parents up,
    and no directory on the way there has any. -/
def IsNearest (fs : FileSystem) (start path : String) : Prop :=
  ∃ k d f, Path.up k start = some d ∧ IsFirstIn fs d f ∧ path = Path.join d f ∧
    ∀ j < k, ∀ e, Path.up j start = some e → Lacks fs e

/-- A nearer directory wins whatever the name of its file is. -/
theorem nearest?_eq_some_iff {start path : String} :
    nearest? fs start = some path ↔ IsNearest fs start path := by
  rw [nearest?, List.findSome?_eq_some_iff]
  constructor
  · rintro ⟨nearer, d, farther, hancestors, hfound, hnone⟩
    obtain ⟨f, hfirst, hpath⟩ := inDirectory?_eq_some_iff.mp hfound
    refine ⟨nearer.length, d, f, ?_, hfirst, hpath, fun j hj e he => ?_⟩
    · rw [← Path.getElem?_ancestors, hancestors, List.getElem?_append_right (Nat.le_refl _),
        Nat.sub_self, List.getElem?_cons_zero]
    · rw [← Path.getElem?_ancestors, hancestors, List.getElem?_append_left hj] at he
      exact inDirectory?_eq_none_iff.mp (hnone e (List.mem_of_getElem? he))
  · rintro ⟨k, d, f, hup, hfirst, hpath, hnearer⟩
    rw [← Path.getElem?_ancestors] at hup
    obtain ⟨hlt, hat⟩ := List.getElem?_eq_some_iff.mp hup
    refine ⟨(Path.ancestors start).take k, d, (Path.ancestors start).drop (k + 1), ?_,
      inDirectory?_eq_some_iff.mpr ⟨f, hfirst, hpath⟩, fun e he => ?_⟩
    · rw [← hat, ← List.drop_eq_getElem_cons hlt, List.take_append_drop]
    · obtain ⟨j, hj⟩ := List.mem_iff_getElem?.mp he
      rw [List.getElem?_take] at hj
      split at hj
      · rename_i hcloser
        rw [Path.getElem?_ancestors] at hj
        exact inDirectory?_eq_none_iff.mpr (hnearer j hcloser e hj)
      · cases hj

theorem nearest?_eq_none_iff {start : String} :
    nearest? fs start = none ↔ ∀ k d, Path.up k start = some d → Lacks fs d := by
  rw [nearest?, List.findSome?_eq_none_iff]
  constructor
  · intro hnone k d hup
    rw [← Path.getElem?_ancestors] at hup
    exact inDirectory?_eq_none_iff.mp (hnone d (List.mem_of_getElem? hup))
  · intro hlacks d hd
    obtain ⟨k, hk⟩ := List.mem_iff_getElem?.mp hd
    rw [Path.getElem?_ancestors] at hk
    exact inDirectory?_eq_none_iff.mpr (hlacks k d hk)

theorem find_eq_ok_iff {start path : String} :
    find fs start = .ok path ↔ IsNearest fs start path := by
  rw [← nearest?_eq_some_iff, find]
  cases nearest? fs start with
  | none => exact iff_of_false (fun h => by cases h) (fun h => by cases h)
  | some found => rw [Except.ok.injEq, Option.some.injEq]

theorem find_eq_error_iff {start : String} {e : SettingsError} :
    find fs start = .error e ↔
      e = .notFound start ∧ ∀ k d, Path.up k start = some d → Lacks fs d := by
  rw [← nearest?_eq_none_iff, find]
  cases nearest? fs start with
  | none => rw [Except.error.injEq, and_iff_left rfl, eq_comm]
  | some found => exact iff_of_false (fun h => by cases h) (fun h => by cases h.2)

/-- **The nearest settings file wins.**  The directories that are searched are the start directory
    and its parents, each one name shorter, until no name is left.  Of all of them the nearest one
    with a settings file decides, and in it the first of the three names; and the search fails,
    with the start directory, exactly if none of them has any. -/
theorem find_nearest (fs : FileSystem) (start : String) :
    (∀ k, (Path.up k start).isSome ↔ k ≤ (Path.components start.toList).length) ∧
    (∀ k d, Path.up k start = some d → Path.Above k d.toList start.toList) ∧
    (∀ path, find fs start = .ok path ↔ IsNearest fs start path) ∧
    ∀ e, find fs start = .error e ↔
      e = .notFound start ∧ ∀ k d, Path.up k start = some d → Lacks fs d :=
  ⟨fun _ => Path.isSome_up, fun _ _ => Path.above_of_up, fun _ => find_eq_ok_iff,
    fun _ => find_eq_error_iff⟩

/-- In the nearer directory there is a file with the last of the three names, in the one above it
    one with the first; the nearer one is found.  From elsewhere none is found. -/
theorem find_nearest_other_name :
    let fs := ((({} : FileSystem).place "/p/.termdeck.json" (.file (.text "") false)).place
      "/p/q/.termdeck.yml" (.file (.text "") false)).place "/p/q/r" .directory
    Path.up 1 "/p/q/r/" = some "/p/q" ∧ Path.Above 1 "/p/q".toList "/p/q/r/".toList ∧
      IsNearest fs "/p/q/r/" "/p/q/.termdeck.yml" ∧ ∀ k d, Path.up k "s/t" = some d → Lacks fs d := by
  intro fs
  have hup : Path.up 1 "/p/q/r/" = some "/p/q" := by decide +kernel
  have hnearest : nearest? fs "/p/q/r/" = some "/p/q/.termdeck.yml" := by decide +kernel
  have hnone : nearest? fs "s/t" = none := by decide +kernel
  have hfound : find fs "/p/q/r/" = .ok "/p/q/.termdeck.yml" := by rw [find, hnearest]
  have hmissing : find fs "s/t" = .error (.notFound "s/t") := by rw [find, hnone]
  exact ⟨hup, (find_nearest fs "/p/q/r/").2.1 1 "/p/q" hup,
    ((find_nearest fs "/p/q/r/").2.2.1 _).mp hfound,
    (((find_nearest fs "s/t").2.2.2 _).mp hmissing).2⟩

end Store

end CommandLauncher
