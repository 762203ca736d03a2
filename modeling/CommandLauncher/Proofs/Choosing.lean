/-
  CHOOSING — which choices a resolution puts to the user, and what becomes of the answers.

  1. **Calls** — `callsFrom` puts some choices to a chooser one after another, whatever it answers,
     and lists its calls.  `Chooser.noting` is a chooser that writes such a list while it answers
     as the one that it is made from (`callsFrom_noting`).

  2. **Names** — looking names up calls the chooser for the choices of these names and for nothing
     else, and finds what is found when the answers are known in advance.  This is the induction
     on the names (`findAll_run`).

  3. **Answers** — a name is looked up once, so every answer is the value of just the name that
     its choice was for (`calls_eq`).

  4. **Definitions** — the definition that counts, whether it has choices, and the question for
     one of them, in terms of the list of definitions and of what stands in a definition.

  5. **Resolution** — `resolve_calls` puts this in terms of the text: which names it refers to, in
     which order, and what the list of definitions says last about each of them.
-/
import CommandLauncher.Proofs.Prompting

namespace CommandLauncher

/-! ## Calls -/

/-- A choice that was put to a chooser, and what it answered. -/
abbrev Call := Choice × Option String

section Calls

variable {σ : Type} (choose : Chooser (StateM σ))

/-- A chooser that also writes down its calls. -/
def Chooser.noting : Chooser (StateM (σ × List Call)) :=
  fun choice => modifyGet fun (s, calls) =>
    let outcome := (choose choice).run s
    (outcome.1, outcome.2, calls ++ [(choice, outcome.1)])

/-- The calls with which choices are put to a chooser one after another, and its state then. -/
def callsFrom : List Choice → σ → List Call × σ
  | [], s => ([], s)
  | choice :: choices, s =>
    let outcome := (choose choice).run s
    let later := callsFrom choices outcome.2
    ((choice, outcome.1) :: later.1, later.2)

/-- Every choice is put, and no other. -/
theorem map_callsFrom (choices : List Choice) : ∀ s : σ,
    (callsFrom choose choices s).1.map (·.1) = choices := by
  induction choices with
  | nil => exact fun _ => rfl
  | cons choice choices ih =>
    intro s
    rw [callsFrom, List.map_cons, ih]

/-- Noting calls changes neither the answers nor the state. -/
theorem callsFrom_noting (choices : List Choice) : ∀ (s : σ) (noted : List Call),
    callsFrom choose.noting choices (s, noted) =
      ((callsFrom choose choices s).1,
        (callsFrom choose choices s).2, noted ++ (callsFrom choose choices s).1) := by
  induction choices with
  | nil =>
    intro s noted
    rw [callsFrom, callsFrom, List.append_nil]
  | cons choice choices ih =>
    intro s noted
    let outcome := (choose choice).run s
    have hstep : (choose.noting choice).run (s, noted) =
        (outcome.1, outcome.2, noted ++ [(choice, outcome.1)]) := rfl
    rw [callsFrom, hstep, callsFrom]
    dsimp only
    rw [ih, List.append_assoc, List.singleton_append]

end Calls

/-! ## Names -/

/-- The findings for one more name, if its definition has no choices. -/
theorem findingsWith_cons_none {vs : List Variable} {n : String}
    (h : (Variable.last? vs n).bind Variable.choice? = none) (picks : List (Option String))
    (ns : List String) :
    findingsWith vs picks (n :: ns) =
      (n, (Variable.last? vs n).map Variable.value) :: findingsWith vs picks ns := by
  rw [findingsWith]
  cases hd : Variable.last? vs n with
  | none => rfl
  | some v =>
    rw [hd, Option.bind_some, Variable.choice?, Option.map_eq_none_iff] at h
    dsimp only
    rw [h]
    rfl

/-- The findings for one more name, if its definition has choices. -/
theorem findingsWith_cons_some {vs : List Variable} {n : String} {choice : Choice}
    (h : (Variable.last? vs n).bind Variable.choice? = some choice) (pick : Option String)
    (picks : List (Option String)) (ns : List String) :
    findingsWith vs (pick :: picks) (n :: ns) = (n, pick) :: findingsWith vs picks ns := by
  obtain ⟨v, hd, hv⟩ := Option.bind_eq_some_iff.mp h
  obtain ⟨options, hc, -⟩ := Option.map_eq_some_iff.mp hv
  rw [findingsWith, hd]
  dsimp only
  rw [hc]
  rfl

/-- Each name gets one finding, in order. -/
theorem findingsWith_names (vs : List Variable) (names : List String) :
    ∀ picks : List (Option String), (findingsWith vs picks names).map (·.1) = names := by
  induction names with
  | nil => exact fun picks => by rw [findingsWith, List.map_nil]
  | cons n ns ih =>
    intro picks
    rw [findingsWith]
    split
    · rw [List.map_cons, ih]
    · split
      · rw [List.map_cons, ih]
      · rw [List.map_cons, ih]

/-- Looking a name up calls the chooser at most once. -/
theorem valueIn_run {σ : Type} (choose : Chooser (StateM σ)) (vs : List Variable) (n : String)
    (s : σ) :
    (Variable.valueIn choose vs n).run s =
      match (Variable.last? vs n).bind Variable.choice? with
      | some choice => (choose choice).run s
      | none => ((Variable.last? vs n).map Variable.value, s) := by
  rw [Variable.valueIn]
  cases Variable.last? vs n with
  | none => rfl
  | some v =>
    dsimp only
    rw [Option.bind_some, Variable.choice?]
    cases v.choices with
    | none => rfl
    | some options => rfl

/-- **Looking names up puts their choices to the chooser**, in order, and finds what is found when
    the answers are known in advance. -/
theorem findAll_run {σ : Type} (choose : Chooser (StateM σ)) (vs : List Variable)
    (names : List String) : ∀ s : σ,
    (findAll (Variable.valueIn choose vs) names).run s =
      (findingsWith vs ((callsFrom choose (choicesFor vs names) s).1.map (·.2)) names,
        (callsFrom choose (choicesFor vs names) s).2) := by
  induction names with
  | nil => exact fun _ => rfl
  | cons n ns ih =>
    intro s
    have hrun : (findAll (Variable.valueIn choose vs) (n :: ns)).run s =
        let found := (Variable.valueIn choose vs n).run s
        let rest := (findAll (Variable.valueIn choose vs) ns).run found.2
        ((n, found.1) :: rest.1, rest.2) := rfl
    rw [hrun, choicesFor_cons, choicesOf, valueIn_run]
    cases h : (Variable.last? vs n).bind Variable.choice? with
    | none =>
      rw [Option.toList_none, List.nil_append, findingsWith_cons_none h]
      dsimp only
      rw [ih]
    | some choice =>
      rw [Option.toList_some, List.singleton_append, callsFrom, List.map_cons,
        findingsWith_cons_some h]
      dsimp only
      rw [ih]

/-! ## Answers -/

/-- The names among some names that have choices, each with its choice. -/
def askable (vs : List Variable) (names : List String) : List (String × Choice) :=
  names.filterMap fun n => ((Variable.last? vs n).bind Variable.choice?).map fun choice => (n, choice)

theorem mem_askable {vs : List Variable} {names : List String} {n : String} {choice : Choice} :
    (n, choice) ∈ askable vs names ↔
      n ∈ names ∧ (Variable.last? vs n).bind Variable.choice? = some choice := by
  rw [askable, List.mem_filterMap]
  constructor
  · rintro ⟨m, hm, h⟩
    obtain ⟨found, hfound, heq⟩ := Option.map_eq_some_iff.mp h
    cases heq
    exact ⟨hm, hfound⟩
  · rintro ⟨hn, h⟩
    exact ⟨n, hn, by rw [h]; rfl⟩

/-- The names that have choices stand in the order of the names. -/
theorem askable_sublist (vs : List Variable) (names : List String) :
    ((askable vs names).map (·.1)).Sublist names := by
  induction names with
  | nil => exact List.Sublist.slnil
  | cons n ns ih =>
    rw [askable, List.filterMap_cons]
    cases (Variable.last? vs n).bind Variable.choice? with
    | none => exact ih.cons n
    | some choice => exact ih.cons_cons n

/-- A name whose definition has no choices has the value of its definition. -/
theorem value?_findingsWith {vs : List Variable} {n : String}
    (h : (Variable.last? vs n).bind Variable.choice? = none) {names : List String} (hn : n ∈ names) :
    ∀ calls : List Call, calls.map (·.1) = choicesFor vs names →
      (findingsWith vs (calls.map (·.2)) names).value? n =
        (Variable.last? vs n).map Variable.value := by
  induction names with
  | nil => exact absurd hn List.not_mem_nil
  | cons m ms ih =>
    intro calls hcalls
    rw [choicesFor_cons, choicesOf] at hcalls
    cases hm : (Variable.last? vs m).bind Variable.choice? with
    | none =>
      rw [hm, Option.toList_none, List.nil_append] at hcalls
      rw [findingsWith_cons_none hm]
      by_cases heq : m = n
      · rw [heq]
        exact Findings.value?_cons_self _ _ _
      · rw [Findings.value?_cons_ne heq]
        exact ih (List.mem_of_ne_of_mem (Ne.symm heq) hn) calls hcalls
    | some choice =>
      rw [hm, Option.toList_some, List.singleton_append] at hcalls
      obtain ⟨call, later, rfl, -, hlater⟩ := List.map_eq_cons_iff.mp hcalls
      have hne : m ≠ n := by
        rintro rfl
        rw [hm] at h
        cases h
      rw [List.map_cons, findingsWith_cons_some hm, Findings.value?_cons_ne hne]
      exact ih (List.mem_of_ne_of_mem hne.symm hn) later hlater

/-- **Every answer is the value of the name that its choice was for**, if no name is looked up
    twice. -/
theorem calls_eq (vs : List Variable) (names : List String) (hnd : names.Nodup) :
    ∀ calls : List Call, calls.map (·.1) = choicesFor vs names →
      calls = (askable vs names).map fun a =>
        (a.2, (findingsWith vs (calls.map (·.2)) names).value? a.1) := by
  induction names with
  | nil => exact fun calls hcalls => List.map_eq_nil_iff.mp hcalls
  | cons n ns ih =>
    intro calls hcalls
    obtain ⟨hn, hns⟩ := List.nodup_cons.mp hnd
    -- what is found for this name hides nothing of what is found for the others
    have hrest : ∀ (found : Option String) (rest : Findings),
        ((askable vs ns).map fun a => (a.2, Findings.value? ((n, found) :: rest) a.1)) =
          (askable vs ns).map fun a => (a.2, rest.value? a.1) := by
      intro found rest
      refine List.map_congr_left fun a ha => ?_
      have hne : n ≠ a.1 := by
        rintro rfl
        exact hn (mem_askable.mp ha).1
      rw [Findings.value?_cons_ne hne]
    rw [choicesFor_cons, choicesOf] at hcalls
    cases h : (Variable.last? vs n).bind Variable.choice? with
    | none =>
      rw [h, Option.toList_none, List.nil_append] at hcalls
      have haskable : askable vs (n :: ns) = askable vs ns := List.filterMap_cons_none (by rw [h]; rfl)
      rw [findingsWith_cons_none h, haskable, hrest]
      exact ih hns calls hcalls
    | some choice =>
      rw [h, Option.toList_some, List.singleton_append] at hcalls
      obtain ⟨call, later, rfl, rfl, hlater⟩ := List.map_eq_cons_iff.mp hcalls
      have haskable : askable vs (n :: ns) = (n, call.1) :: askable vs ns :=
        List.filterMap_cons_some (by rw [h]; rfl)
      rw [List.map_cons, findingsWith_cons_some h, haskable, List.map_cons, hrest,
        Findings.value?_cons_self]
      exact congrArg _ (ih hns later hlater)

/-! ## Definitions -/

/-- The definition of a name that has no other one behind it. -/
def IsLast (vs : List Variable) (name : String) (v : Variable) : Prop :=
  ∃ earlier later, vs = earlier ++ v :: later ∧ v.name = name ∧ ∀ w ∈ later, w.name ≠ name

theorem last?_eq_some_iff {vs : List Variable} {name : String} {v : Variable} :
    Variable.last? vs name = some v ↔ IsLast vs name v := by
  rw [Variable.last?, List.find?_eq_some_iff_append]
  constructor
  · rintro ⟨hname, later, earlier, hreverse, hlater⟩
    refine ⟨earlier.reverse, later.reverse, ?_, by simpa using hname, fun w hw => ?_⟩
    · rw [← List.reverse_reverse vs, hreverse]
      simp
    · simpa using hlater w (List.mem_reverse.mp hw)
  · rintro ⟨earlier, later, rfl, hname, hlater⟩
    refine ⟨by simpa using hname, later.reverse, earlier.reverse, by simp, fun w hw => ?_⟩
    simpa using hlater w (List.mem_reverse.mp hw)

/-- What a description adds to a question: nothing if it is blank. -/
def aside : Option String → String
  | some description =>
    if Text.isBlankText description then "" else " (" ++ Text.trim description ++ ")"
  | none => ""

theorem Variable.choiceMessage_eq (v : Variable) :
    v.choiceMessage = "Select a value for " ++ token v.name ++ aside v.description := by
  rw [choiceMessage]
  cases v.description with
  | none => rw [aside, String.append_empty]; rfl
  | some description =>
    rw [Option.bind_some, Text.nonBlank, aside]
    by_cases h : Text.isBlankText description
    · rw [if_pos h, if_pos h, String.append_empty]
    · rw [if_neg h, if_neg h]
      simp only [String.append_assoc]

/-- A definition puts a choice to the user exactly if it has options, and this is the choice. -/
theorem choice_eq_some_iff {vs : List Variable} {name : String} {choice : Choice} :
    (Variable.last? vs name).bind Variable.choice? = some choice ↔
      ∃ v options, IsLast vs name v ∧ v.options = some options ∧ options ≠ [] ∧
        choice = { message := "Select a value for " ++ Variable.token name ++ aside v.description,
                   options } := by
  simp only [Option.bind_eq_some_iff, Variable.choice?, Option.map_eq_some_iff,
    Variable.choices_eq_some_iff, Variable.choiceMessage_eq, last?_eq_some_iff]
  constructor
  · rintro ⟨v, hlast, options, ⟨hoptions, hne⟩, rfl⟩
    obtain ⟨-, -, -, rfl, -⟩ := id hlast
    exact ⟨v, options, hlast, hoptions, hne, rfl⟩
  · rintro ⟨v, options, hlast, hoptions, hne, rfl⟩
    obtain ⟨-, -, -, rfl, -⟩ := id hlast
    exact ⟨v, hlast, options, ⟨hoptions, hne⟩, rfl⟩

/-- Without a definition there is nothing to choose. -/
theorem choice_eq_none_of_undefined {vs : List Variable} {name : String}
    (h : ∀ v ∈ vs, v.name ≠ name) : (Variable.last? vs name).bind Variable.choice? = none := by
  rw [Variable.last?_eq_none_iff.mpr h]
  rfl

/-- Without options there is nothing to choose. -/
theorem choice_eq_none_of_fixed {vs : List Variable} {name : String} {v : Variable}
    (h : IsLast vs name v) (hoptions : v.options = none ∨ v.options = some []) :
    (Variable.last? vs name).bind Variable.choice? = none := by
  rw [last?_eq_some_iff.mpr h, Option.bind_some, Variable.choice?, Variable.choices]
  rcases hoptions with hnone | hempty
  · rw [hnone]
    rfl
  · rw [hempty]
    rfl

/-! ## Resolution -/

/-- A text with the values found for its names. -/
def Findings.resolution (fs : Findings) (text : String) : Resolution :=
  { result := Template.substitute fs.value? text, missing := fs.missing }

/-- A resolution puts the choices for the names of the text, and fills in what is found with the
    answers. -/
theorem resolve_run {σ : Type} (choose : Chooser (StateM σ)) (vs : List Variable) (text : String)
    (s : σ) :
    (resolve choose vs text).run s =
      (Findings.resolution (findingsWith vs
          ((callsFrom choose (choicesFor vs (Template.references text)) s).1.map (·.2))
          (Template.references text)) text,
        (callsFrom choose (choicesFor vs (Template.references text)) s).2) := by
  have hrun : (resolve choose vs text).run s =
      let run := (findAll (Variable.valueIn choose vs) (Template.references text)).run s
      (Findings.resolution run.1 text, run.2) := rfl
  rw [hrun, findAll_run]

/-- Noting the calls of a resolution notes these choices, and changes nothing else. -/
theorem resolve_noting {σ : Type} (choose : Chooser (StateM σ)) (vs : List Variable)
    (text : String) (s : σ) (noted : List Call) :
    (resolve choose.noting vs text).run (s, noted) =
      (((resolve choose vs text).run s).1, ((resolve choose vs text).run s).2,
        noted ++ (callsFrom choose (choicesFor vs (Template.references text)) s).1) := by
  rw [resolve_run, resolve_run, callsFrom_noting]

open Template in
/-- **The calls of a resolution**, for every text, every list of definitions and every chooser with
    a state of its own.  There is one call for each name that the text refers to and whose last
    definition has options, in the order of the first occurrences, whatever was answered to the
    calls before it, and no other.  It offers the options of that definition in their order, and
    its question shows the name and a description that is not blank.  What is answered is the
    value of just this name, wherever it occurs and whether or not it was on offer; a name whose
    call is cancelled has no value, like one without definition, and is missing.  A name whose
    last definition has no options has the value of that definition.  Noting the calls changes
    nothing, and answering just these calls is all that happens to the chooser. -/
theorem resolve_calls {σ : Type} (choose : Chooser (StateM σ)) (vs : List Variable)
    (text : String) (s : σ) :
    let cs := text.toList
    let plain : Resolution × σ := (resolve choose vs text).run s
    let noted : Resolution × σ × List Call := (resolve choose.noting vs text).run (s, [])
    let calls := noted.2.2
    noted = (plain.1, plain.2, calls) ∧
    callsFrom choose (calls.map (·.1)) s = (calls, plain.2) ∧
    ∃ (names : List String) (value : String → Option String),
      (names.Nodup ∧ names.Pairwise (Precedes cs) ∧
        ∀ name, name ∈ names ↔ (∃ i, Occurs cs i name.toList) ∧
          ∃ v options, IsLast vs name v ∧ v.options = some options ∧ options ≠ []) ∧
      (calls.length = names.length ∧
        ∀ (k : Nat) name, names[k]? = some name → ∃ v options answer,
          IsLast vs name v ∧ v.options = some options ∧
          calls[k]? = some
            (⟨"Select a value for " ++ Variable.token name ++ aside v.description, options⟩,
              answer) ∧
          value name = answer) ∧
      (∀ name, (∃ i, Occurs cs i name.toList) →
        (∀ v, IsLast vs name v → v.options = none ∨ v.options = some [] →
          value name = some v.value) ∧
        ((∀ v ∈ vs, v.name ≠ name) → value name = none)) ∧
      ReplacedAtOnce value cs plain.1.result.toList ∧
      ∀ name, name ∈ plain.1.missing ↔ (∃ i, Occurs cs i name.toList) ∧ value name = none := by
  intro cs plain noted calls
  let choices := choicesFor vs (references text)
  have hnoted : noted = (plain.1, plain.2, (callsFrom choose choices s).1) :=
    resolve_noting choose vs text s []
  have hcalls : calls = (callsFrom choose choices s).1 := congrArg (·.2.2) hnoted
  have hmap : calls.map (·.1) = choices := by rw [hcalls, map_callsFrom]
  let found := findingsWith vs (calls.map (·.2)) (references text)
  have hplain : plain = (found.resolution text, (callsFrom choose choices s).2) := by
    show plain = ((findingsWith vs (calls.map (·.2)) (references text)).resolution text, _)
    rw [hcalls]
    exact resolve_run choose vs text s
  have hfound : found.map (·.1) = references text := findingsWith_names _ _ _
  have hanswers : calls = (askable vs (references text)).map fun a => (a.2, found.value? a.1) :=
    calls_eq vs (references text) (references_nodup text) calls hmap
  have hsublist := askable_sublist vs (references text)
  have hfixed : ∀ name, (∃ i, Occurs cs i name.toList) →
      (Variable.last? vs name).bind Variable.choice? = none →
        found.value? name = (Variable.last? vs name).map Variable.value := fun name hname hnone =>
    value?_findingsWith hnone (mem_references.mpr hname) calls hmap
  refine ⟨by rw [hnoted, hcalls], by rw [hmap, hcalls, hplain],
    (askable vs (references text)).map (·.1), found.value?,
    ⟨(references_nodup text).sublist hsublist, (references_ordered text).sublist hsublist,
      fun name => ?_⟩, ⟨?_, fun k name hk => ?_⟩,
    fun name hname => ⟨fun v hlast hoptions => ?_, fun hundefined => ?_⟩, ?_, fun name => ?_⟩
  · rw [List.mem_map]
    constructor
    · rintro ⟨⟨n, choice⟩, ha, rfl⟩
      obtain ⟨hn, hchoice⟩ := mem_askable.mp ha
      obtain ⟨v, options, hlast, hoptions, hne, -⟩ := choice_eq_some_iff.mp hchoice
      exact ⟨mem_references.mp hn, v, options, hlast, hoptions, hne⟩
    · rintro ⟨hn, v, options, hlast, hoptions, hne⟩
      have hchoice := choice_eq_some_iff.mpr ⟨v, options, hlast, hoptions, hne, rfl⟩
      exact ⟨(name, _), mem_askable.mpr ⟨mem_references.mpr hn, hchoice⟩, rfl⟩
  · rw [List.length_map, hanswers, List.length_map]
  · rw [List.getElem?_map, Option.map_eq_some_iff] at hk
    obtain ⟨⟨n, choice⟩, ha, rfl⟩ := hk
    have hchoice := (mem_askable.mp (List.mem_of_getElem? ha)).2
    obtain ⟨v, options, hlast, hoptions, -, rfl⟩ := choice_eq_some_iff.mp hchoice
    refine ⟨v, options, found.value? n, hlast, hoptions, ?_, rfl⟩
    rw [hanswers, List.getElem?_map, ha]
    rfl
  · rw [hfixed name hname (choice_eq_none_of_fixed hlast hoptions), last?_eq_some_iff.mpr hlast]
    rfl
  · rw [hfixed name hname (choice_eq_none_of_undefined hundefined),
      Variable.last?_eq_none_iff.mpr hundefined]
    rfl
  · have hresult : plain.1.result.toList = (pieces text).flatMap (fillPiece found.value?) := by
      rw [hplain]
      exact String.toList_ofList
    rw [hresult]
    exact replacedAtOnce_piecesOf found.value? cs
  · rw [hplain]
    exact Findings.mem_missing hfound

end CommandLauncher
