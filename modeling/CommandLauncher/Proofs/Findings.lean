/-
  FINDINGS — looking the names of a text up one after another, and what comes out of it.

  A chooser is a user with a state, so each lookup sees the state that the ones before it left
  behind.  The user here is any function of any kind of state.

  1. **Runs** — looking up two lists of names one after the other is looking up the first and then
     the second (`foundBy_append`), and each name gets exactly one finding (`foundBy_names`).  So
     the value of a name is what its lookup gives in the state behind the names before it
     (`value?_foundBy`).

  2. **Missing names** — they are the looked up names without a value, in the order of the
     lookups (`missing_eq`).

  3. **Resolution** — the result of a resolution is the text with all references replaced at the
     same time, and it is the only such text (`resolve_eq_replacedAtOnce`).
-/
import CommandLauncher.Proofs.Occurrences

namespace CommandLauncher

/-! ## Runs -/

section Runs

variable {σ : Type} (lookup : Lookup (StateM σ))

/-- The findings for some names, from a state. -/
def foundBy (names : List String) (s : σ) : Findings := ((findAll lookup names).run s).1

/-- The state after some names were looked up. -/
def stateAfter (names : List String) (s : σ) : σ := ((findAll lookup names).run s).2

theorem foundBy_cons (n : String) (ns : List String) (s : σ) :
    foundBy lookup (n :: ns) s =
      (n, ((lookup n).run s).1) :: foundBy lookup ns ((lookup n).run s).2 := rfl

theorem stateAfter_cons (n : String) (ns : List String) (s : σ) :
    stateAfter lookup (n :: ns) s = stateAfter lookup ns ((lookup n).run s).2 := rfl

theorem foundBy_append (xs ys : List String) : ∀ (s : σ),
    foundBy lookup (xs ++ ys) s = foundBy lookup xs s ++ foundBy lookup ys (stateAfter lookup xs s) := by
  induction xs with
  | nil => exact fun _ => rfl
  | cons x xs ih =>
    intro s
    rw [List.cons_append, foundBy_cons, foundBy_cons, stateAfter_cons, ih, List.cons_append]

/-- Each name gets one finding, in order. -/
theorem foundBy_names (names : List String) : ∀ (s : σ),
    (foundBy lookup names s).map (·.1) = names := by
  induction names with
  | nil => exact fun _ => rfl
  | cons n ns ih =>
    intro s
    rw [foundBy_cons, List.map_cons, ih]

end Runs

/-! ## Values and missing names -/

namespace Findings

theorem value?_append (fs gs : Findings) (name : String) (h : name ∉ fs.map (·.1)) :
    (fs ++ gs).value? name = gs.value? name := by
  have hnone : fs.find? (fun f => f.1 = name) = none := by
    refine List.find?_eq_none.mpr fun f hf hfn => h ?_
    exact List.mem_map.mpr ⟨f, hf, by simpa using hfn⟩
  rw [value?, value?, List.find?_append, hnone, Option.none_or]

theorem value?_cons_self (name : String) (v : Option String) (fs : Findings) :
    value? ((name, v) :: fs) name = v := by
  simp [value?]

theorem value?_cons_ne {name other : String} (h : other ≠ name) (v : Option String)
    (fs : Findings) : value? ((other, v) :: fs) name = fs.value? name := by
  simp [value?, h]

/-- The missing names are the names without a value. -/
theorem missing_eq (fs : Findings) (h : (fs.map (·.1)).Nodup) :
    fs.missing = (fs.map (·.1)).filter fun name => (fs.value? name).isNone := by
  induction fs with
  | nil => rfl
  | cons f fs ih =>
    obtain ⟨hf, hfs⟩ := List.nodup_cons.mp h
    -- names are distinct, so the first finding hides none of the others
    have hrest : (fs.map (·.1)).filter (fun name => (value? (f :: fs) name).isNone) =
        (fs.map (·.1)).filter fun name => (value? fs name).isNone := by
      refine List.filter_congr fun name hn => ?_
      have hne : f.1 ≠ name := by
        rintro rfl
        exact hf hn
      rw [show f :: fs = (f.1, f.2) :: fs from rfl, value?_cons_ne hne]
    have hself : value? (f :: fs) f.1 = f.2 := value?_cons_self f.1 f.2 fs
    rw [List.map_cons, List.filter_cons, hself, hrest, ← ih hfs, missing, List.filter_cons]
    split
    · rfl
    · rfl

end Findings

open Template in
/-- Missing from findings for the names of a text are the names that occur without a value. -/
theorem Findings.mem_missing {fs : Findings} {text : String} (h : fs.map (·.1) = references text)
    {name : String} :
    name ∈ fs.missing ↔ (∃ i, Occurs text.toList i name.toList) ∧ fs.value? name = none := by
  have hnd : (fs.map (·.1)).Nodup := by
    rw [h]
    exact references_nodup text
  rw [Findings.missing_eq fs hnd, h, List.mem_filter, mem_references, Option.isNone_iff_eq_none]

/-- The value of a name is what looking it up gives, after the names before it were looked up. -/
theorem value?_foundBy {σ : Type} (lookup : Lookup (StateM σ)) {names earlier later : List String}
    {name : String} (hnd : names.Nodup) (h : names = earlier ++ name :: later) (s : σ) :
    (foundBy lookup names s).value? name =
      ((lookup name).run (stateAfter lookup earlier s)).1 := by
  subst h
  have hn : name ∉ earlier := fun hm =>
    (List.nodup_append.mp hnd).2.2 name hm name List.mem_cons_self rfl
  rw [foundBy_append, Findings.value?_append _ _ _ (by rw [foundBy_names]; exact hn), foundBy_cons,
    Findings.value?_cons_self]

/-! ## Resolution -/

open Template in
/-- **Resolving a text replaces all its references at once**, for every text, every list of
    variables and every user.  The pieces that the resolution works on hold the references at
    exactly the places where the text has one, and no two of them overlap.  `references` is the
    list of the names that occur in the text, each once, in the order of their first occurrences.
    There is a value for some of the names, found by looking the names up one after another; the
    result is the one text in which every reference was replaced at the same time by its value, if
    it has one, and every other character was copied.  The missing names are those that occur in
    the text and have no value, each once, in the order of their first occurrences. -/
theorem resolve_eq_replacedAtOnce {σ : Type} (choose : Chooser (StateM σ)) (vs : List Variable)
    (text : String) (s : σ) :
    let cs := text.toList
    let r := ((resolve choose vs text).run s).1
    (∀ i name, (i, name) ∈ placesFrom 0 (pieces text) ↔ Occurs cs i name) ∧
    (∀ i j a b, Occurs cs i a → Occurs cs j b → i < j → i + width a ≤ j) ∧
    (∀ names, ListsNames cs names ↔ names = references text) ∧
    ∃ value : String → Option String,
      (∀ earlier name later, references text = earlier ++ name :: later →
        value name = ((Variable.valueIn choose vs name).run
          (stateAfter (Variable.valueIn choose vs) earlier s)).1) ∧
      (∀ out, ReplacedAtOnce value cs out ↔ out = r.result.toList) ∧
      r.missing.Nodup ∧
      (∀ name, name ∈ r.missing ↔ (∃ i, Occurs cs i name.toList) ∧ value name = none) ∧
      r.missing.Pairwise (Precedes cs) := by
  intro cs r
  -- names and filled in text come from the same pieces and the same findings
  let lookup := Variable.valueIn choose vs
  let fs := foundBy lookup (references text) s
  have hnames : fs.map (·.1) = references text := foundBy_names lookup _ s
  have hmissing : r.missing = (references text).filter fun name => (fs.value? name).isNone := by
    rw [← hnames]
    exact Findings.missing_eq fs (by rw [hnames]; exact references_nodup text)
  have hresult : r.result.toList = (pieces text).flatMap (fillPiece fs.value?) :=
    String.toList_ofList
  refine ⟨fun i name => ?_, fun i j a b ha hb => ha.le_of_lt hb, fun names => listsNames_iff,
    fs.value?, fun earlier name later h => value?_foundBy lookup (references_nodup text) h s,
    fun out => ?_, ?_, fun name => ?_, ?_⟩
  · rw [pieces, mem_placesFrom_piecesOf]
    simp [cs]
  · have hat : ReplacedAtOnce fs.value? cs r.result.toList := by
      rw [hresult]
      exact replacedAtOnce_piecesOf fs.value? cs
    exact ⟨fun h => h.unique hat, fun h => h ▸ hat⟩
  · rw [hmissing]
    exact (references_nodup text).filter _
  · rw [hmissing, List.mem_filter, mem_references, Option.isNone_iff_eq_none]
  · rw [hmissing]
    exact (references_ordered text).filter _

end CommandLauncher
