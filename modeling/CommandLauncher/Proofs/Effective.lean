/-
  EFFECTIVE DEFINITIONS — what a text can notice of a list of definitions.

  1. **Agreement** — two lists agree on a name when it has the same last definition in both, or none
     in both (`SameLast`).  Looking a name up asks for nothing else, so lists that agree on all
     names of a text can take each other's place, whatever the user is (`resolve_congr`).  The
     induction is on the names that are looked up.

  2. **Retouching** — three changes of a list are small: a definition goes that is hidden by a later
     one, definitions with distinct names change places, or a definition goes whose name nobody
     can write (`Retouched`).  Each of them keeps the last definition of every name that can be
     written (`Retouched.sameLast`).

  3. **Resolution** — so no text notices any number of these changes, made or taken back, and no
     text notices what the lists say about names that it does not refer to
     (`resolve_effective`).
-/
import Mathlib.Data.List.Nodup
import Mathlib.Logic.Relation
import CommandLauncher.Proofs.Choosing

namespace CommandLauncher

open Template

/-! ## Agreement -/

/-- The name has the same last definition in both lists, or none in both. -/
def SameLast (vs ws : List Variable) (name : String) : Prop :=
  ∀ v, IsLast vs name v ↔ IsLast ws name v

theorem sameLast_iff {vs ws : List Variable} {name : String} :
    SameLast vs ws name ↔ Variable.last? vs name = Variable.last? ws name := by
  rw [Option.ext_iff]
  simp only [SameLast, last?_eq_some_iff]

section Lookups

variable {m : Type → Type} [Monad m]

/-- Names that are looked up in the same way have the same findings. -/
theorem findAll_congr {lookup lookup' : Lookup m} (names : List String)
    (h : ∀ name ∈ names, lookup name = lookup' name) :
    findAll lookup names = findAll lookup' names := by
  induction names with
  | nil => rfl
  | cons name names ih =>
    obtain ⟨hname, hnames⟩ := List.forall_mem_cons.mp h
    rw [findAll, findAll, hname, ih hnames]

/-- A text is filled in by looking up the names that it refers to. -/
theorem fill_congr {lookup lookup' : Lookup m} {text : String}
    (h : ∀ name ∈ references text, lookup name = lookup' name) :
    fill lookup text = fill lookup' text := by
  rw [fill, fill, findAll_congr (references text) h]

/-- Looking a name up needs its last definition. -/
theorem valueIn_congr (choose : Chooser m) {vs ws : List Variable} {name : String}
    (h : Variable.last? vs name = Variable.last? ws name) :
    Variable.valueIn choose vs name = Variable.valueIn choose ws name := by
  rw [Variable.valueIn, Variable.valueIn, h]

/-- **A text needs the last definitions of its names.** -/
theorem resolve_congr (choose : Chooser m) {vs ws : List Variable} {text : String}
    (h : ∀ name ∈ references text, Variable.last? vs name = Variable.last? ws name) :
    resolve choose vs text = resolve choose ws text :=
  fill_congr fun name hname => valueIn_congr choose (h name hname)

end Lookups

/-! ## Retouching -/

/-- A small change of a list of definitions. -/
inductive Retouched : List Variable → List Variable → Prop
  /-- A definition goes that has another one with its name behind it. -/
  | shadowed (earlier later : List Variable) {v : Variable} (h : ∃ w ∈ later, w.name = v.name) :
      Retouched (earlier ++ v :: later) (earlier ++ later)
  /-- Definitions with distinct names change places. -/
  | reordered (earlier later : List Variable) {vs ws : List Variable}
      (hdistinct : (vs.map Variable.name).Nodup) (hperm : vs.Perm ws) :
      Retouched (earlier ++ vs ++ later) (earlier ++ ws ++ later)
  /-- A definition goes whose name is none. -/
  | unnameable (earlier later : List Variable) {v : Variable}
      (h : Variable.isName v.name = false) : Retouched (earlier ++ v :: later) (earlier ++ later)

namespace Variable

/-- What is defined in the second list hides what the first one says. -/
theorem last?_append (vs ws : List Variable) (name : String) :
    last? (vs ++ ws) name = (last? ws name).or (last? vs name) := by
  rw [last?, List.reverse_append, List.find?_append]
  rfl

theorem last?_cons (v : Variable) (vs : List Variable) (name : String) :
    last? (v :: vs) name = (last? vs name).or (if v.name = name then some v else none) := by
  rw [← List.singleton_append, last?_append, ← List.nil_append [v], last?_append_singleton]
  rfl

/-- A definition of another name says nothing. -/
theorem last?_cons_ne {v : Variable} {name : String} (h : v.name ≠ name) (vs : List Variable) :
    last? (v :: vs) name = last? vs name := by
  rw [last?_cons, if_neg h, Option.or_none]

/-- A hidden definition says nothing. -/
theorem last?_cons_of_shadowed {v : Variable} {vs : List Variable}
    (h : ∃ w ∈ vs, w.name = v.name) (name : String) : last? (v :: vs) name = last? vs name := by
  by_cases hname : v.name = name
  · obtain ⟨w, hw, hsame⟩ := h
    cases hlast : last? vs name with
    | none => exact absurd (hsame.trans hname) (last?_eq_none_iff.mp hlast w hw)
    | some last => rw [last?_cons, hlast, Option.some_or]
  · exact last?_cons_ne hname vs

/-- Among definitions with distinct names each one counts. -/
theorem last?_eq_some_iff_of_distinct {vs : List Variable} (h : (vs.map Variable.name).Nodup)
    {name : String} {v : Variable} : last? vs name = some v ↔ v ∈ vs ∧ v.name = name := by
  constructor
  · exact fun hlast => ⟨mem_of_last? hlast, name_of_last? hlast⟩
  · rintro ⟨hv, rfl⟩
    cases hlast : last? vs v.name with
    | none => exact absurd rfl (last?_eq_none_iff.mp hlast v hv)
    | some w =>
      rw [List.inj_on_of_nodup_map h (mem_of_last? hlast) hv (name_of_last? hlast)]

/-- So their order does not matter. -/
theorem last?_eq_of_perm {vs ws : List Variable} (h : (vs.map Variable.name).Nodup)
    (hperm : vs.Perm ws) (name : String) : last? vs name = last? ws name := by
  have h' : (ws.map Variable.name).Nodup := (hperm.map Variable.name).nodup_iff.mp h
  ext v
  rw [last?_eq_some_iff_of_distinct h, last?_eq_some_iff_of_distinct h', hperm.mem_iff]

end Variable

/-- What occurs in a text can be written. -/
theorem isName_of_occurs {cs : List Char} {i : Nat} {name : String} (h : Occurs cs i name.toList) :
    Variable.isName name = true := by
  obtain ⟨hne, -⟩ := h.1
  rw [Variable.isName, Bool.and_eq_true, List.all_eq_true]
  exact ⟨by simpa using hne, h.1.all_isNameChar⟩

/-- **A retouched list agrees with the original one** on every name that can be written. -/
theorem Retouched.sameLast {vs ws : List Variable} (h : Retouched vs ws) {name : String}
    (hname : Variable.isName name = true) : SameLast vs ws name := by
  rw [sameLast_iff]
  cases h with
  | shadowed _ _ hlater =>
    rw [Variable.last?_append, Variable.last?_append, Variable.last?_cons_of_shadowed hlater]
  | reordered _ _ hdistinct hperm =>
    simp only [Variable.last?_append, Variable.last?_eq_of_perm hdistinct hperm]
  | @unnameable _ _ v hv =>
    have hne : v.name ≠ name := by
      rintro rfl
      rw [hv] at hname
      cases hname
    rw [Variable.last?_append, Variable.last?_append, Variable.last?_cons_ne hne]

/-! ## Resolution -/

/-- **Only the effective definitions of the names in a text matter**, for every text and every
    chooser with a state of its own.  Resolved against two lists that agree on each name that
    occurs in it, the text gets the same result with the same missing names; the same choices are
    put to the chooser in the same order and answered in the same way, and its state is the same
    in the end.  In particular this is so if one list comes from the other by any number of
    changes, made or taken back, of which each drops a hidden definition, reorders definitions
    with distinct names, or drops a definition whose name cannot be written. -/
theorem resolve_effective {σ : Type} (choose : Chooser (StateM σ)) (text : String) (s : σ) :
    let run : List Variable → Resolution × σ × List Call := fun vs =>
      (resolve choose.noting vs text).run (s, [])
    (∀ vs ws, (∀ name i, Occurs text.toList i name.toList → SameLast vs ws name) →
      run vs = run ws) ∧
    ∀ vs ws, Relation.EqvGen Retouched vs ws → run vs = run ws := by
  intro run
  have hagree : ∀ vs ws, (∀ name i, Occurs text.toList i name.toList → SameLast vs ws name) →
      run vs = run ws := by
    intro vs ws h
    have hlast : ∀ name ∈ references text, Variable.last? vs name = Variable.last? ws name := by
      intro name hname
      obtain ⟨i, hi⟩ := mem_references.mp hname
      exact sameLast_iff.mp (h name i hi)
    exact congrArg (·.run (s, [])) (resolve_congr choose.noting hlast)
  refine ⟨hagree, fun vs ws h => ?_⟩
  -- one change is not noticed, so a chain of them is not
  induction h with
  | rel vs ws h => exact hagree vs ws fun name i hi => h.sameLast (isName_of_occurs hi)
  | refl vs => rfl
  | symm vs ws _ ih => exact ih.symm
  | trans vs ws us _ _ ih ih' => exact ih.trans ih'

/-- A hidden definition goes, so does one whose name cannot be written, and the other two change
    places; then one is added that the text does not refer to. -/
theorem resolve_effective_tidied :
    let x := Variable.fixed "x" "1"
    let y := Variable.selectable "y" ["a", "b"]
    let messy := [Variable.fixed "y" "0", y, x, Variable.fixed "no name" "2"]
    let text := "$\x7bx\x7d $\x7by\x7d"
    let run := fun vs => (resolve Chooser.prepared.noting vs text).run (([some "b"], []), [])
    (Relation.EqvGen Retouched messy [x, y] ∧
      ∀ name i, Occurs text.toList i name.toList →
        SameLast [x, y] [x, y, Variable.fixed "z" "3"] name) ∧
    run messy = run [x, y] ∧ run [x, y] = run [x, y, Variable.fixed "z" "3"] := by
  intro x y messy text run
  have hhidden : Retouched messy [y, x, Variable.fixed "no name" "2"] :=
    .shadowed [] [y, x, Variable.fixed "no name" "2"] ⟨y, List.mem_cons_self, rfl⟩
  have hunnameable : Retouched [y, x, Variable.fixed "no name" "2"] [y, x] :=
    .unnameable [y, x] [] (by decide +kernel)
  have hswapped : Retouched [y, x] [x, y] :=
    .reordered [] [] (by decide +kernel) (List.Perm.swap x y [])
  have htidied : Relation.EqvGen Retouched messy [x, y] :=
    .trans _ _ _ (.rel _ _ hhidden) (.trans _ _ _ (.rel _ _ hunnameable) (.rel _ _ hswapped))
  have hagree : ∀ name i, Occurs text.toList i name.toList →
      SameLast [x, y] [x, y, Variable.fixed "z" "3"] name := by
    intro name i hi
    have hnames : references text = ["x", "y"] := by decide +kernel
    have hname : name ∈ ["x", "y"] := hnames ▸ mem_references.mpr ⟨i, hi⟩
    rw [sameLast_iff]
    rcases List.mem_pair.mp hname with rfl | rfl
    · decide +kernel
    · decide +kernel
  obtain ⟨hsame, hretouched⟩ := resolve_effective Chooser.prepared text ([some "b"], [])
  exact ⟨⟨htidied, hagree⟩, hretouched _ _ htidied, hsame _ _ hagree⟩

end CommandLauncher
