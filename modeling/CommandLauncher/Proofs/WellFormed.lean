/-
  WELL-FORMED ENTRIES — entries as forms leave them.

  1. **Tidy texts** — a text is tidy if there is nothing to trim from it and it is not blank.
     Trimming gives a tidy text or none at all (`isTidy_trim`), and so does what is stored of an
     optional answer.

  2. **Parts** — the parts of a text between separators are tidy, and the separator is in none of
     them.  Texts that are joined have all their parts one after another (`parts_join_flatMap`), so
     of tidy texts without the separator nothing is lost by joining them (`parts_join`).

  3. **Entries** — the name of a well-formed variable can be referred to, and if there are options
     the value is one of them; a well-formed command has a title and a text.  All other texts are
     tidy where they are there.
-/
import CommandLauncher.Command
import CommandLauncher.Dialog.Input

namespace CommandLauncher

namespace Text

/-! ## Tidy texts -/

/-- A trimmed text that is not blank. -/
def IsTidy (s : String) : Prop := trim s = s ∧ isBlankText s = false

theorem isBlank_head_dropWhile (cs : List Char) {c : Char}
    (h : (cs.dropWhile isBlank).head? = some c) : isBlank c = false := by
  have hnot := List.head?_dropWhile_not isBlank cs
  rw [h] at hnot
  exact hnot

/-- A list that starts with no blank has no blanks to drop. -/
theorem dropWhile_eq_self {cs : List Char} (h : ∀ c, cs.head? = some c → isBlank c = false) :
    cs.dropWhile isBlank = cs := by
  cases cs with
  | nil => rfl
  | cons c cs => rw [List.dropWhile_cons, h c rfl, if_neg Bool.false_ne_true]

/-- What is trimmed at its end starts as before. -/
theorem trimEnd_prefix (cs : List Char) : trimEnd cs <+: cs := by
  have hsuffix : cs.reverse.dropWhile isBlank <:+ cs.reverse := List.dropWhile_suffix _
  exact List.reverse_suffix.mp (by rwa [trimEnd, List.reverse_reverse])

/-- There is nothing to trim from what was trimmed. -/
theorem trimChars_trimChars (cs : List Char) : trimChars (trimChars cs) = trimChars cs := by
  have hstart : ∀ c, (trimChars cs).head? = some c → isBlank c = false := by
    intro c hc
    obtain ⟨after, hafter⟩ := trimEnd_prefix (trimStart cs)
    refine isBlank_head_dropWhile cs ?_
    rw [show cs.dropWhile isBlank = trimStart cs from rfl, ← hafter, List.head?_append]
    rw [show trimEnd (trimStart cs) = trimChars cs from rfl, hc]
    rfl
  have hend : ∀ c, (trimChars cs).reverse.head? = some c → isBlank c = false := by
    intro c hc
    refine isBlank_head_dropWhile (trimStart cs).reverse ?_
    rwa [trimChars, trimEnd, List.reverse_reverse] at hc
  rw [trimChars, trimStart, dropWhile_eq_self hstart, trimEnd, dropWhile_eq_self hend,
    List.reverse_reverse]

theorem trim_trim (s : String) : trim (trim s) = trim s := by
  rw [trim, trim, String.toList_ofList, trimChars_trimChars]

/-- A text that is not blank is tidy once it is trimmed. -/
theorem isTidy_trim {s : String} (h : isBlankText s = false) : IsTidy (trim s) :=
  ⟨trim_trim s, (isBlankText_trim s).trans h⟩

/-- What is stored of an optional answer is tidy. -/
theorem isTidy_of_nonBlank {s t : String} (h : nonBlank s = some t) : IsTidy t := by
  rw [nonBlank] at h
  split at h
  · cases h
  · rename_i hblank
    obtain rfl := Option.some.inj h
    exact isTidy_trim (Bool.eq_false_iff.mpr hblank)

/-- What is stored of an optional text that is shown as it is. -/
theorem nonBlank_getD {text : Option String} (h : ∀ s, text = some s → IsTidy s) :
    nonBlank (text.getD "") = text := by
  cases text with
  | none => decide +kernel
  | some s =>
    obtain ⟨htrim, hblank⟩ := h s rfl
    rw [Option.getD_some, nonBlank, if_neg (by rw [hblank]; decide), htrim]

/-! ## Parts -/

/-- A piece does not have the separator. -/
theorem not_mem_of_mem_splitChars {sep : Char} {cs : List Char} :
    ∀ piece ∈ splitChars sep cs, sep ∉ piece := by
  induction cs with
  | nil => simp [splitChars]
  | cons c cs ih =>
    rw [splitChars]
    split
    · exact List.forall_mem_cons.mpr ⟨List.not_mem_nil, ih⟩
    · rename_i hc
      cases hpieces : splitChars sep cs with
      | nil => exact absurd hpieces (splitChars_ne_nil sep cs)
      | cons first rest =>
        rw [hpieces] at ih
        obtain ⟨hfirst, hrest⟩ := List.forall_mem_cons.mp ih
        refine List.forall_mem_cons.mpr ⟨fun hmem => ?_, hrest⟩
        exact (List.mem_cons.mp hmem).elim (fun heq => hc heq.symm) hfirst

/-- The pieces of a text have all its characters but the separators. -/
theorem forall_mem_splitChars {sep : Char} {P : Char → Prop} (cs : List Char) :
    (∀ piece ∈ splitChars sep cs, ∀ c ∈ piece, P c) ↔ ∀ c ∈ cs, c = sep ∨ P c := by
  induction cs with
  | nil => simp [splitChars]
  | cons c cs ih =>
    rw [List.forall_mem_cons, ← ih, splitChars]
    by_cases hc : c = sep
    · rw [if_pos hc, List.forall_mem_cons]
      simp [hc]
    · rw [if_neg hc]
      cases hpieces : splitChars sep cs with
      | nil => exact absurd hpieces (splitChars_ne_nil sep cs)
      | cons first rest => simp [hc, and_assoc]

/-- A text has no parts exactly if there are only separators and blanks in it. -/
theorem parts_eq_nil_iff {sep : Char} {s : String} :
    parts sep s = [] ↔ ∀ c ∈ s.toList, c = sep ∨ isBlank c = true := by
  rw [← forall_mem_splitChars, parts, split, List.filter_eq_nil_iff, List.map_map]
  refine List.forall_mem_map.trans (forall₂_congr fun piece _ => ?_)
  have hblank := isBlankText_iff (s := String.ofList piece)
  rw [String.toList_ofList] at hblank
  rw [← hblank, isBlankText]
  simp

/-- The parts of a text are tidy, and the separator is in none of them. -/
theorem isTidy_of_mem_parts {sep : Char} {s part : String} (h : part ∈ parts sep s) :
    IsTidy part ∧ sep ∉ part.toList := by
  obtain ⟨hpiece, hne⟩ := List.mem_filter.mp h
  obtain ⟨piece, hsplit, rfl⟩ := List.mem_map.mp hpiece
  obtain ⟨cs, hcs, rfl⟩ := List.mem_map.mp hsplit
  refine ⟨isTidy_trim ?_, fun hmem => not_mem_of_mem_splitChars cs hcs ?_⟩
  · rw [isBlankText]
    simpa using hne
  · -- trimming brings no character into the piece
    obtain ⟨before, after, hends, -, -⟩ := exists_ends cs
    rw [hends]
    rw [trim, String.toList_ofList, String.toList_ofList] at hmem
    exact List.mem_append_left _ (List.mem_append_right _ hmem)

theorem trim_cons {c : Char} (h : isBlank c = true) (cs : List Char) :
    trim (String.ofList (c :: cs)) = trim (String.ofList cs) := by
  rw [trim, trim, String.toList_ofList, String.toList_ofList, trimChars, trimChars, trimStart,
    trimStart, List.dropWhile_cons, if_pos h]

/-- A blank at the start adds nothing to the parts. -/
theorem parts_cons {sep c : Char} (hblank : isBlank c = true) (hsep : c ≠ sep) (cs : List Char) :
    parts sep (String.ofList (c :: cs)) = parts sep (String.ofList cs) := by
  rw [parts, parts, split, split, String.toList_ofList, String.toList_ofList, splitChars,
    if_neg hsep]
  cases h : splitChars sep cs with
  | nil => exact absurd h (splitChars_ne_nil sep cs)
  | cons piece pieces =>
    dsimp only
    rw [List.map_cons, List.map_cons, List.map_cons, List.map_cons, trim_cons hblank]

theorem parts_append_sep (sep : Char) (as bs : List Char) :
    parts sep (String.ofList (as ++ sep :: bs)) =
      parts sep (String.ofList as) ++ parts sep (String.ofList bs) := by
  simp only [parts, split, String.toList_ofList, splitChars_append_sep, List.map_append,
    List.filter_append]

/-- A tidy text without the separator is its only part. -/
theorem parts_of_tidy {sep : Char} {s : String} (htidy : IsTidy s) (hsep : sep ∉ s.toList) :
    parts sep s = [s] := by
  obtain ⟨htrim, hblank⟩ := htidy
  rw [isBlankText, htrim] at hblank
  rw [parts, split, splitChars_of_not_mem hsep, List.map_singleton, String.ofList_toList,
    List.map_singleton, htrim, List.filter_cons_of_pos (by rw [hblank]; rfl), List.filter_nil]

/-- The parts of joined texts are those of each of them, one after another. -/
theorem parts_join_flatMap (ss : List String) :
    parts ',' (join ", " ss) = ss.flatMap (parts ',') := by
  induction ss with
  | nil => decide +kernel
  | cons s ss ih =>
    cases ss with
    | nil => rw [List.flatMap_cons, List.flatMap_nil, List.append_nil, join]
    | cons t ts =>
      have htext : join ", " (s :: t :: ts) =
          String.ofList (s.toList ++ ',' :: ' ' :: (join ", " (t :: ts)).toList) := by
        show s ++ ", " ++ join ", " (t :: ts) = _
        rw [← String.toList_inj, String.toList_ofList, String.toList_append, String.toList_append,
          List.append_assoc]
        rfl
      rw [htext, parts_append_sep, parts_cons (by decide) (by decide), String.ofList_toList,
        String.ofList_toList, ih]
      exact List.flatMap_cons.symm

/-- **The parts of joined texts** are these texts, if they are tidy and have no comma. -/
theorem parts_join {ss : List String} (h : ∀ s ∈ ss, IsTidy s ∧ ',' ∉ s.toList) :
    parts ',' (join ", " ss) = ss := by
  rw [parts_join_flatMap]
  induction ss with
  | nil => rfl
  | cons s ss ih =>
    obtain ⟨⟨htidy, hcomma⟩, hss⟩ := List.forall_mem_cons.mp h
    rw [List.flatMap_cons, parts_of_tidy htidy hcomma, ih hss, List.singleton_append]

end Text

open Text

/-! ## Entries -/

/-- A variable as its form leaves it. -/
structure Variable.WellFormed (v : Variable) : Prop where
  name : isName v.name = true ∧ trim v.name = v.name
  options : ∀ options, v.options = some options →
    (options ≠ [] ∧ v.value ∈ options) ∧ ∀ o ∈ options, IsTidy o ∧ ',' ∉ o.toList
  description : ∀ description, v.description = some description → IsTidy description

/-- A command as its form leaves it. -/
structure Command.WellFormed (c : Command) : Prop where
  title : IsTidy c.title
  command : IsTidy c.command
  group : ∀ group, c.group = some group → IsTidy group
  description : ∀ description, c.description = some description → IsTidy description

/-! ### Checked texts -/

theorem isName_of_check {input : String} (h : Check.name input = none) :
    Variable.isName (trim input) = true := by
  rw [Check.name] at h
  split at h
  · cases h
  split at h
  · assumption
  · cases h

theorem isTidy_of_check {what input : String} (h : Check.notBlank what input = none) :
    IsTidy (trim input) := by
  rw [Check.notBlank] at h
  split at h
  · cases h
  · rename_i hblank
    exact isTidy_trim (Bool.eq_false_iff.mpr hblank)

end CommandLauncher
