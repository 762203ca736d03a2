/-
  OCCURRENCES — where the references of a text stand, and what substitution does at each place.

  The template reader cuts a text from left to right.  Here the same references are described
  without reading: a name occurs at a place when the text reads `$`, `{`, the name and `}` from
  there on (`Occurs`).

  1. **Grammar** — `reference?` answers exactly at the places where a name occurs
     (`reference?_eq_some_iff`).  Behind its dollar sign a reference has no other one, so two
     references never overlap (`Occurs.le_of_lt`).

  2. **Places** — `placesFrom` lists the references that the reader found together with their
     places.  It lists every occurrence and nothing else (`mem_placesFrom_piecesOf`), whatever
     malformed start stands in front.

  3. **Names** — `references` has each name that occurs once, and a name comes before another one
     when its first place does.  There is only one such list (`listsNames_iff`).

  4. **Substitution** — each place of the text has its own share in the result (`IsShare`), which
     depends on the text and the values alone.  The result is all shares in a row, so nothing
     that was inserted is ever read.
-/
import CommandLauncher.Resolution

namespace CommandLauncher.Template

/-! ## Grammar -/

/-- The signs that a name is made of. -/
def IsNameSign (c : Char) : Prop :=
  ('A' ≤ c ∧ c ≤ 'Z') ∨ ('a' ≤ c ∧ c ≤ 'z') ∨ ('0' ≤ c ∧ c ≤ '9') ∨ c = '_' ∨ c = '-'

/-- A name is one or more signs. -/
def IsName (name : List Char) : Prop := name ≠ [] ∧ ∀ c ∈ name, IsNameSign c

/-- `Occurs cs i name` — from place `i` on the text reads `$`, `{`, the name and `}`. -/
def Occurs (cs : List Char) (i : Nat) (name : List Char) : Prop :=
  IsName name ∧ (Piece.reference name).text <+: cs.drop i

/-- The number of places that a reference takes up. -/
def width (name : List Char) : Nat := name.length + 3

theorem length_text (name : List Char) : (Piece.reference name).text.length = width name := by
  simp [Piece.text, width]

theorem isNameChar_iff (c : Char) : Variable.isNameChar c = true ↔ IsNameSign c := by
  have halpha : c.isAlpha = true ↔ ('A' ≤ c ∧ c ≤ 'Z') ∨ ('a' ≤ c ∧ c ≤ 'z') := by
    show (decide ('A' ≤ c ∧ c ≤ 'Z') || (decide ('a' ≤ c) && decide (c ≤ 'z'))) = true ↔ _
    rw [Bool.or_eq_true, Bool.and_eq_true, decide_eq_true_eq, decide_eq_true_eq, decide_eq_true_eq]
  have hdigit : c.isDigit = true ↔ '0' ≤ c ∧ c ≤ '9' := by
    show (decide ('0' ≤ c) && decide (c ≤ '9')) = true ↔ _
    rw [Bool.and_eq_true, decide_eq_true_eq, decide_eq_true_eq]
  simp only [Variable.isNameChar, Char.isAlphanum, IsNameSign, Bool.or_eq_true, beq_iff_eq,
    halpha, hdigit, or_assoc]

theorem IsName.all_isNameChar {name : List Char} (h : IsName name) :
    ∀ c ∈ name, Variable.isNameChar c = true :=
  fun c hc => (isNameChar_iff c).mpr (h.2 c hc)

/-- A dollar sign is no sign of a name. -/
theorem IsName.dollar_not_mem {name : List Char} (h : IsName name) : '$' ∉ name := by
  intro hm
  have hc : Variable.isNameChar '$' = true := h.all_isNameChar '$' hm
  exact absurd hc (by decide)

/-- The reader takes the longest run of signs; the brace behind a name ends it. -/
theorem takeWhile_name {name : List Char} (h : IsName name) (rest : List Char) :
    (name ++ '}' :: rest).takeWhile Variable.isNameChar = name := by
  have hb : Variable.isNameChar '}' = false := by decide
  rw [List.takeWhile_append_of_pos h.all_isNameChar, List.takeWhile_cons, hb]
  simp

theorem dropWhile_name {name : List Char} (h : IsName name) (rest : List Char) :
    (name ++ '}' :: rest).dropWhile Variable.isNameChar = '}' :: rest := by
  have hb : Variable.isNameChar '}' = false := by decide
  rw [List.dropWhile_append_of_pos h.all_isNameChar, List.dropWhile_cons, hb]
  simp

/-- **The reader answers exactly the grammar**: there is a reference at the start of a text if
    and only if the text starts with one, and then it is that one. -/
theorem reference?_eq_some_iff {cs name rest : List Char} :
    reference? cs = some (name, rest) ↔
      IsName name ∧ cs = (Piece.reference name).text ++ rest := by
  constructor
  · intro h
    -- what was read is known from `eq_of_reference?`; that it is a name is seen in the reader
    refine ⟨?_, eq_of_reference? h⟩
    unfold reference? at h
    split at h
    · rename_i cs
      split at h
      · cases h
      · rename_i n ns rest' htake hdrop
        obtain ⟨rfl, rfl⟩ : n :: ns = name ∧ rest' = rest := by simpa using h
        refine ⟨by simp, fun c hc => (isNameChar_iff c).mp ?_⟩
        rw [← htake] at hc
        exact List.all_eq_true.mp List.all_takeWhile c hc
      · cases h
    · cases h
  · rintro ⟨hn, rfl⟩
    obtain ⟨n, ns, rfl⟩ : ∃ n ns, name = n :: ns := List.exists_cons_of_ne_nil hn.1
    have ht := takeWhile_name hn rest
    have hd := dropWhile_name hn rest
    show reference? ('$' :: '{' :: ((n :: ns) ++ ['}']) ++ rest) = _
    simp only [List.cons_append, List.append_assoc, List.nil_append] at ht hd ⊢
    simp only [reference?, ht, hd]

theorem occurs_zero_iff {cs name : List Char} :
    Occurs cs 0 name ↔ ∃ rest, reference? cs = some (name, rest) := by
  simp only [reference?_eq_some_iff, Occurs, List.drop_zero, List.IsPrefix]
  constructor
  · rintro ⟨hn, rest, h⟩
    exact ⟨rest, hn, h.symm⟩
  · rintro ⟨rest, hn, h⟩
    exact ⟨hn, rest, h.symm⟩

/-- What occurs in a part of a text is found by its place in the part. -/
theorem occurs_append {pre rest name : List Char} {i : Nat} :
    Occurs (pre ++ rest) (pre.length + i) name ↔ Occurs rest i name := by
  have hd : (pre ++ rest).drop (pre.length + i) = rest.drop i := by
    rw [← List.drop_drop, List.drop_left]
  rw [Occurs, Occurs, hd]

theorem occurs_cons {c : Char} {rest name : List Char} {i : Nat} :
    Occurs (c :: rest) (i + 1) name ↔ Occurs rest i name := by
  simp [Occurs]

theorem Occurs.unique {cs a b : List Char} {i : Nat} (ha : Occurs cs i a) (hb : Occurs cs i b) :
    a = b := by
  have ha' : Occurs (cs.drop i) 0 a := by simpa [Occurs] using ha
  have hb' : Occurs (cs.drop i) 0 b := by simpa [Occurs] using hb
  obtain ⟨_, h₁⟩ := occurs_zero_iff.mp ha'
  obtain ⟨_, h₂⟩ := occurs_zero_iff.mp hb'
  rw [h₁] at h₂
  exact (Prod.mk.inj (Option.some.inj h₂)).1

theorem Occurs.getElem? {cs name : List Char} {i k : Nat} (h : Occurs cs i name)
    (hk : k < width name) : cs[i + k]? = (Piece.reference name).text[k]? := by
  obtain ⟨rest, hr⟩ := h.2
  rw [← List.getElem?_drop, ← hr, List.getElem?_append_left (by rw [length_text]; exact hk)]

theorem Occurs.dollar {cs name : List Char} {i : Nat} (h : Occurs cs i name) :
    cs[i]? = some '$' := by
  have := h.getElem? (k := 0) (by simp [width])
  simpa [Piece.text] using this

/-- Behind its start a reference has no dollar sign. -/
theorem dollar_not_in_tail {name : List Char} (h : IsName name) {k : Nat} (hk : 0 < k) :
    (Piece.reference name).text[k]? ≠ some '$' := by
  obtain ⟨k, rfl⟩ : ∃ m, k = m + 1 := ⟨k - 1, by omega⟩
  intro hd
  have hm : '$' ∈ '{' :: (name ++ ['}']) := List.mem_of_getElem? hd
  simp only [List.mem_cons, List.mem_append, List.not_mem_nil, or_false] at hm
  rcases hm with hm | hm | hm
  · exact absurd hm (by decide)
  · exact h.dollar_not_mem hm
  · exact absurd hm (by decide)

/-- **References never overlap.** -/
theorem Occurs.le_of_lt {cs a b : List Char} {i j : Nat} (ha : Occurs cs i a)
    (hb : Occurs cs j b) (hij : i < j) : i + width a ≤ j := by
  rcases Nat.lt_or_ge j (i + width a) with hlt | hge
  · exfalso
    -- the second dollar sign would stand behind the start of the first reference
    have hj : cs[i + (j - i)]? = (Piece.reference a).text[j - i]? := ha.getElem? (by omega)
    rw [show i + (j - i) = j by omega, hb.dollar] at hj
    exact dollar_not_in_tail ha.1 (by omega) hj.symm
  · exact hge

/-! ## Places -/

theorem piecesOf_of_reference {cs name rest : List Char} (h : reference? cs = some (name, rest)) :
    piecesOf cs = .reference name :: piecesOf rest := by
  rw [piecesOf]
  split
  · rename_i name' rest' h'
    rw [h] at h'
    obtain ⟨rfl, rfl⟩ := Prod.mk.inj (Option.some.inj h')
    rfl
  · rename_i h'
    rw [h] at h'
    cases h'

theorem piecesOf_of_literal {c : Char} {rest : List Char} (h : reference? (c :: rest) = none) :
    piecesOf (c :: rest) = .literal c :: piecesOf rest := by
  rw [piecesOf]
  split
  · rename_i h'
    rw [h] at h'
    cases h'
  · rfl

theorem piecesOf_nil : piecesOf [] = [] := by
  rw [piecesOf]
  simp [reference?]

/-- The references among pieces with the places at which they stand; the first piece stands at
    place `i`. -/
def placesFrom (i : Nat) : List Piece → List (Nat × List Char)
  | [] => []
  | .literal _ :: ps => placesFrom (i + 1) ps
  | .reference name :: ps => (i, name) :: placesFrom (i + width name) ps

/-- **Every occurrence is found and nothing else**: the induction follows the reader, and a text
    that starts with no reference has no occurrence at its first place. -/
theorem mem_placesFrom_piecesOf (cs : List Char) : ∀ (i j : Nat) (name : List Char),
    (j, name) ∈ placesFrom i (piecesOf cs) ↔ ∃ k, j = i + k ∧ Occurs cs k name := by
  induction cs using piecesOf.induct with
  | case1 cs n rest h ih =>
    intro i j name
    rw [piecesOf_of_reference h, placesFrom, List.mem_cons, ih]
    have hcs : cs = (Piece.reference n).text ++ rest := eq_of_reference? h
    have hn : Occurs cs 0 n := occurs_zero_iff.mpr ⟨rest, h⟩
    constructor
    · rintro (he | ⟨k, rfl, hk⟩)
      · obtain ⟨rfl, rfl⟩ := Prod.mk.inj he
        exact ⟨0, rfl, hn⟩
      · refine ⟨width n + k, by omega, ?_⟩
        rw [hcs, ← length_text]
        exact occurs_append.mpr hk
    · rintro ⟨k, rfl, hk⟩
      rcases Nat.eq_zero_or_pos k with rfl | hpos
      · exact Or.inl (by rw [hn.unique hk]; rfl)
      · -- no reference starts inside of another one, so this one is in the rest
        have hle : 0 + width n ≤ k := hn.le_of_lt hk hpos
        obtain ⟨m, rfl⟩ : ∃ m, k = width n + m := ⟨k - width n, by omega⟩
        refine Or.inr ⟨m, by omega, ?_⟩
        rw [hcs, ← length_text] at hk
        exact occurs_append.mp hk
  | case2 h =>
    intro i j name
    simp only [piecesOf_nil, placesFrom, List.not_mem_nil, false_iff]
    rintro ⟨k, -, hk⟩
    have := hk.dollar
    simp at this
  | case3 c rest h ih =>
    intro i j name
    rw [piecesOf_of_literal h, placesFrom, ih]
    constructor
    · rintro ⟨k, rfl, hk⟩
      exact ⟨k + 1, by omega, occurs_cons.mpr hk⟩
    · rintro ⟨k, rfl, hk⟩
      cases k with
      | zero =>
        -- then the text would start with a reference after all
        obtain ⟨_, h'⟩ := occurs_zero_iff.mp hk
        rw [h] at h'
        cases h'
      | succ k => exact ⟨k, by omega, occurs_cons.mp hk⟩

theorem le_of_mem_placesFrom (ps : List Piece) : ∀ (i : Nat), ∀ p ∈ placesFrom i ps, i ≤ p.1 := by
  induction ps with
  | nil => simp [placesFrom]
  | cons p ps ih =>
    intro i q hq
    cases p with
    | literal c =>
      have := ih (i + 1) q hq
      omega
    | reference name =>
      rcases List.mem_cons.mp hq with rfl | hq
      · exact Nat.le_refl _
      · have := ih _ q hq
        omega

/-- The places are listed from left to right. -/
theorem placesFrom_ordered (ps : List Piece) : ∀ (i : Nat),
    (placesFrom i ps).Pairwise fun p q => p.1 < q.1 := by
  induction ps with
  | nil => exact fun _ => List.Pairwise.nil
  | cons p ps ih =>
    intro i
    cases p with
    | literal c => exact ih (i + 1)
    | reference name =>
      refine List.Pairwise.cons (fun q hq => ?_) (ih _)
      have := le_of_mem_placesFrom ps _ q hq
      simp only [width] at this
      omega

/-! ## Names -/

theorem map_placesFrom (ps : List Piece) : ∀ (i : Nat),
    (placesFrom i ps).map (fun p => String.ofList p.2) = ps.filterMap nameOf? := by
  induction ps with
  | nil => exact fun _ => rfl
  | cons p ps ih =>
    intro i
    cases p with
    | literal c =>
      rw [placesFrom, ih, List.filterMap_cons_none rfl]
    | reference name =>
      rw [placesFrom, List.map_cons, ih, List.filterMap_cons_some (f := nameOf?) rfl]

theorem mem_firsts {α : Type} [DecidableEq α] {x : α} {xs : List α} :
    x ∈ firsts xs ↔ x ∈ xs := by
  induction xs with
  | nil => simp [firsts]
  | cons y ys ih =>
    by_cases h : x = y <;> simp [firsts, ih, h]

theorem nodup_firsts {α : Type} [DecidableEq α] (xs : List α) : (firsts xs).Nodup := by
  induction xs with
  | nil => exact List.Pairwise.nil
  | cons y ys ih =>
    refine List.Pairwise.cons (fun x hx h => ?_) (ih.filter _)
    simp [h] at hx

/-- One more element comes behind the firsts, unless it is there. -/
theorem firsts_append_singleton {α : Type} [DecidableEq α] (xs : List α) (x : α) :
    firsts (xs ++ [x]) = if x ∈ xs then firsts xs else firsts xs ++ [x] := by
  induction xs with
  | nil => rfl
  | cons y ys ih =>
    rw [List.cons_append, firsts, ih]
    by_cases hmem : x ∈ ys
    · rw [if_pos hmem, if_pos (List.mem_cons_of_mem y hmem)]
      rfl
    · rw [if_neg hmem, List.filter_append]
      by_cases hxy : x = y
      · simp [firsts, hxy]
      · simp [firsts, hxy, hmem]

/-- Where elements stand in a growing order, the firsts of their images are ordered by the first
    element that has the image. -/
theorem firsts_ordered {α β : Type} [DecidableEq β] (f : α → β) (lt : α → α → Prop) :
    ∀ (xs : List α), xs.Pairwise lt →
      (firsts (xs.map f)).Pairwise fun a b => ∃ x ∈ xs, f x = a ∧ ∀ y ∈ xs, f y = b → lt x y := by
  intro xs hxs
  induction xs with
  | nil => exact List.Pairwise.nil
  | cons x xs ih =>
    obtain ⟨hx, hxs⟩ := List.pairwise_cons.mp hxs
    simp only [List.map_cons, firsts]
    refine List.Pairwise.cons (fun b hb => ?_) ?_
    · have hne : b ≠ f x := by simpa using (List.mem_filter.mp hb).2
      refine ⟨x, List.mem_cons_self, rfl, fun y hy hyb => ?_⟩
      rcases List.mem_cons.mp hy with rfl | hy
      · exact absurd hyb.symm hne
      · exact hx y hy
    · refine ((ih hxs).filter _).imp_of_mem fun {a b} _ hb => ?_
      have hne : b ≠ f x := by simpa using (List.mem_filter.mp hb).2
      rintro ⟨y, hy, hya, hall⟩
      refine ⟨y, List.mem_cons_of_mem x hy, hya, fun z hz hzb => ?_⟩
      rcases List.mem_cons.mp hz with rfl | hz
      · exact absurd hzb.symm hne
      · exact hall z hz hzb

/-- `Precedes cs a b` — the first place at which `a` occurs is to the left of all places at which
    `b` does. -/
def Precedes (cs : List Char) (a b : String) : Prop :=
  ∃ i, Occurs cs i a.toList ∧ ∀ j, Occurs cs j b.toList → i < j

theorem references_eq (s : String) :
    references s = firsts ((placesFrom 0 (pieces s)).map fun p => String.ofList p.2) := by
  rw [references, map_placesFrom]

/-- The names of a text are those that occur in it. -/
theorem mem_references {s name : String} :
    name ∈ references s ↔ ∃ i, Occurs s.toList i name.toList := by
  rw [references_eq, mem_firsts]
  simp only [List.mem_map, Prod.exists, pieces, mem_placesFrom_piecesOf]
  constructor
  · rintro ⟨i, n, ⟨k, -, hk⟩, rfl⟩
    exact ⟨k, by simpa using hk⟩
  · rintro ⟨i, hi⟩
    exact ⟨i, name.toList, ⟨i, by omega, hi⟩, String.ofList_toList⟩

theorem references_nodup (s : String) : (references s).Nodup := nodup_firsts _

/-- The names stand in the order of their first occurrences. -/
theorem references_ordered (s : String) : (references s).Pairwise (Precedes s.toList) := by
  rw [references_eq]
  refine (firsts_ordered _ _ _ (placesFrom_ordered (pieces s) 0)).imp fun {a b} => ?_
  rintro ⟨⟨i, n⟩, hmem, rfl, hall⟩
  obtain ⟨k, hk, hocc⟩ := (mem_placesFrom_piecesOf _ _ _ _).mp hmem
  refine ⟨i, ?_, fun j hj => hall (j, b.toList) ?_ String.ofList_toList⟩
  · rw [Nat.zero_add] at hk
    rw [hk, String.toList_ofList]
    exact hocc
  · exact (mem_placesFrom_piecesOf _ _ _ _).mpr ⟨j, (Nat.zero_add j).symm, hj⟩

/-- The names that occur in a text, each of them once, in the order of their first places. -/
structure ListsNames (cs : List Char) (names : List String) : Prop where
  occurs : ∀ name, name ∈ names ↔ ∃ i, Occurs cs i name.toList
  once : names.Nodup
  ordered : names.Pairwise (Precedes cs)

theorem listsNames_references (s : String) : ListsNames s.toList (references s) :=
  ⟨fun _ => mem_references, references_nodup s, references_ordered s⟩

/-- There is one list of the names of a text. -/
theorem ListsNames.unique {cs : List Char} {names names' : List String} (h : ListsNames cs names)
    (h' : ListsNames cs names') : names = names' := by
  have hperm : names.Perm names' := (List.perm_ext_iff_of_nodup h.once h'.once).mpr fun name =>
    (h.occurs name).trans (h'.occurs name).symm
  refine hperm.eq_of_pairwise (fun a b _ _ hab hba => ?_) h.ordered h'.ordered
  -- no two names can each have the first place of both
  obtain ⟨i, hi, hfirst⟩ := hab
  obtain ⟨j, hj, hfirst'⟩ := hba
  exact absurd (hfirst j hj) (Nat.lt_asymm (hfirst' i hi))

/-- **The names of a text** are listed by `references`. -/
theorem listsNames_iff {s : String} {names : List String} :
    ListsNames s.toList names ↔ names = references s :=
  ⟨fun h => h.unique (listsNames_references s), fun h => h ▸ listsNames_references s⟩

/-! ## Substitution -/

/-- What place `i` of a text contributes to the result of a substitution: the value at the start
    of a resolved reference, the reference as it is written at the start of any other one,
    nothing behind the start of a reference, and its own character everywhere else. -/
structure IsShare (value : String → Option String) (cs : List Char) (i : Nat)
    (share : List Char) : Prop where
  resolved : ∀ name v, Occurs cs i name → value (String.ofList name) = some v →
    share = v.toList
  unresolved : ∀ name, Occurs cs i name → value (String.ofList name) = none →
    share = (Piece.reference name).text
  inside : ∀ j name, Occurs cs j name → j < i → i < j + width name → share = []
  outside : ∀ c, cs[i]? = some c →
    (∀ j name, Occurs cs j name → ¬ (j ≤ i ∧ i < j + width name)) → share = [c]

/-- `ReplacedAtOnce value cs out` — `out` is the text `cs` with all its references replaced at the
    same time: one share for each place, all of them in a row. -/
def ReplacedAtOnce (value : String → Option String) (cs out : List Char) : Prop :=
  ∃ shares : List (List Char), shares.length = cs.length ∧
    (∀ i share, shares[i]? = some share → IsShare value cs i share) ∧ out = shares.flatten

/-- A place has no other share. -/
theorem IsShare.unique {value : String → Option String} {cs a b : List Char} {i : Nat}
    (hi : i < cs.length) (ha : IsShare value cs i a) (hb : IsShare value cs i b) : a = b := by
  -- a place starts a reference, is inside of one, or neither
  by_cases hs : ∃ name, Occurs cs i name
  · obtain ⟨name, ho⟩ := hs
    cases hv : value (String.ofList name) with
    | none => rw [ha.unresolved name ho hv, hb.unresolved name ho hv]
    | some v => rw [ha.resolved name v ho hv, hb.resolved name v ho hv]
  · by_cases hin : ∃ j name, Occurs cs j name ∧ j < i ∧ i < j + width name
    · obtain ⟨j, name, ho, hlt, hw⟩ := hin
      rw [ha.inside j name ho hlt hw, hb.inside j name ho hlt hw]
    · have hout : ∀ j name, Occurs cs j name → ¬ (j ≤ i ∧ i < j + width name) := by
        rintro j name ho ⟨hle, hw⟩
        rcases Nat.lt_or_eq_of_le hle with hlt | rfl
        · exact hin ⟨j, name, ho, hlt, hw⟩
        · exact hs ⟨name, ho⟩
      have hc : cs[i]? = some cs[i] := List.getElem?_eq_getElem hi
      rw [ha.outside _ hc hout, hb.outside _ hc hout]

/-- There is no other way to replace all references at once. -/
theorem ReplacedAtOnce.unique {value : String → Option String} {cs a b : List Char}
    (ha : ReplacedAtOnce value cs a) (hb : ReplacedAtOnce value cs b) : a = b := by
  obtain ⟨as, hal, has, rfl⟩ := ha
  obtain ⟨bs, hbl, hbs, rfl⟩ := hb
  suffices h : as = bs by rw [h]
  refine List.ext_getElem (by omega) fun i hi hi' => ?_
  exact (has i _ (List.getElem?_eq_getElem hi)).unique (by omega)
    (hbs i _ (List.getElem?_eq_getElem hi'))

/-- The shares of the places that a piece takes up. -/
def sharesOfPiece (value : String → Option String) : Piece → List (List Char)
  | .literal c => [[c]]
  | .reference name =>
    fillPiece value (.reference name) :: List.replicate (name.length + 2) []

theorem flatten_sharesOfPiece (value : String → Option String) (p : Piece) :
    (sharesOfPiece value p).flatten = fillPiece value p := by
  cases p with
  | literal c => simp [sharesOfPiece, fillPiece]
  | reference name => simp [sharesOfPiece]

theorem length_sharesOfPiece (value : String → Option String) (p : Piece) :
    (sharesOfPiece value p).length = p.text.length := by
  cases p with
  | literal c => rfl
  | reference name => simp [sharesOfPiece, Piece.text]

/-- A share stays what it is when characters are put in front of the text, provided that the
    references which start there also end there. -/
theorem IsShare.append {value : String → Option String} {pre rest share : List Char} {i : Nat}
    (hpre : ∀ j name, Occurs (pre ++ rest) j name → j < pre.length →
      j + width name ≤ pre.length)
    (h : IsShare value rest i share) : IsShare value (pre ++ rest) (pre.length + i) share := by
  refine ⟨fun name v ho hv => ?_, fun name ho hv => ?_, fun j name ho hlt hin => ?_,
    fun c hc hout => ?_⟩
  · exact h.resolved name v (occurs_append.mp ho) hv
  · exact h.unresolved name (occurs_append.mp ho) hv
  · rcases Nat.lt_or_ge j pre.length with hj | hj
    · -- a reference that starts in front also ends there
      have := hpre j name ho hj
      omega
    · obtain ⟨k, rfl⟩ : ∃ k, j = pre.length + k := ⟨j - pre.length, by omega⟩
      exact h.inside k name (occurs_append.mp ho) (by omega) (by omega)
  · refine h.outside c ?_ fun j name ho hin => ?_
    · rw [← hc, List.getElem?_append_right (by omega), Nat.add_sub_cancel_left]
    · exact hout (pre.length + j) name (occurs_append.mpr ho) (by omega)

/-- The shares of the places that a reference at the start of a text takes up. -/
theorem isShare_reference {value : String → Option String} {cs name share : List Char}
    {i : Nat} (hcs : Occurs cs 0 name)
    (hi : (sharesOfPiece value (.reference name))[i]? = some share) :
    IsShare value cs i share := by
  cases i with
  | zero =>
    obtain rfl : fillPiece value (.reference name) = share := by simpa [sharesOfPiece] using hi
    refine ⟨fun n v ho hv => ?_, fun n ho hv => ?_, fun j n ho hlt _ => ?_, fun c _ hout => ?_⟩
    · rw [hcs.unique ho, fillPiece, hv]
    · rw [hcs.unique ho, fillPiece, hv]
    · omega
    · exact absurd ⟨Nat.le_refl 0, by simp [width]⟩ (hout 0 name hcs)
  | succ i =>
    have hlt : i + 1 < width name := by
      have := (List.getElem?_eq_some_iff.mp hi).1
      rwa [length_sharesOfPiece, length_text] at this
    obtain rfl : share = [] := by
      have := List.mem_of_getElem? (show (List.replicate (name.length + 2) [])[i]? = some share
        from hi)
      exact List.eq_of_mem_replicate this
    refine ⟨fun n v ho _ => ?_, fun n ho _ => ?_, fun _ _ _ _ _ => rfl, fun c _ hout => ?_⟩
    · have := hcs.le_of_lt ho (by omega)
      omega
    · have := hcs.le_of_lt ho (by omega)
      omega
    · exact absurd ⟨by omega, by omega⟩ (hout 0 name hcs)

/-- The share of a character at which no reference starts and none is open. -/
theorem isShare_literal {value : String → Option String} {c : Char} {rest : List Char}
    (h : reference? (c :: rest) = none) : IsShare value (c :: rest) 0 [c] := by
  have hno : ∀ name, ¬ Occurs (c :: rest) 0 name := fun name ho => by
    obtain ⟨_, h'⟩ := occurs_zero_iff.mp ho
    rw [h] at h'
    cases h'
  refine ⟨fun n v ho _ => absurd ho (hno n), fun n ho _ => absurd ho (hno n),
    fun j n _ hlt _ => ?_, fun d hd _ => ?_⟩
  · omega
  · simpa using hd

/-- **Filling in the pieces replaces all references at once.** -/
theorem replacedAtOnce_piecesOf (value : String → Option String) (cs : List Char) :
    ReplacedAtOnce value cs ((piecesOf cs).flatMap (fillPiece value)) := by
  induction cs using piecesOf.induct with
  | case1 cs name rest h ih =>
    obtain ⟨shares, hlen, hshares, hout⟩ := ih
    have hcs : cs = (Piece.reference name).text ++ rest := eq_of_reference? h
    have hocc : Occurs cs 0 name := occurs_zero_iff.mpr ⟨rest, h⟩
    have hl := length_sharesOfPiece value (.reference name)
    refine ⟨sharesOfPiece value (.reference name) ++ shares, ?_, fun i share hi => ?_, ?_⟩
    · rw [List.length_append, hl, hlen, hcs, List.length_append]
    · rcases Nat.lt_or_ge i (Piece.reference name).text.length with hlt | hge
      · rw [List.getElem?_append_left (by omega)] at hi
        exact isShare_reference hocc hi
      · rw [List.getElem?_append_right (by omega), hl] at hi
        have hrest := hshares _ share hi
        rw [show i = (Piece.reference name).text.length +
          (i - (Piece.reference name).text.length) by omega, hcs]
        refine hrest.append fun j n ho hj => ?_
        -- the only reference that starts among these places is the first one
        rw [← hcs] at ho
        rcases Nat.eq_zero_or_pos j with rfl | hpos
        · refine Nat.le_of_eq ?_
          rw [hocc.unique ho, length_text, Nat.zero_add]
        · have := hocc.le_of_lt ho hpos
          rw [length_text] at hj
          omega
    · rw [piecesOf_of_reference h, List.flatMap_cons, hout, List.flatten_append,
        flatten_sharesOfPiece]
  | case2 h => exact ⟨[], rfl, by simp, by rw [piecesOf_nil]; rfl⟩
  | case3 c rest h ih =>
    obtain ⟨shares, hlen, hshares, hout⟩ := ih
    refine ⟨[c] :: shares, by simp [hlen], fun i share hi => ?_, ?_⟩
    · cases i with
      | zero =>
        obtain rfl : [c] = share := by simpa using hi
        exact isShare_literal h
      | succ i =>
        have hrest := hshares i share (by simpa using hi)
        rw [Nat.add_comm i 1]
        refine IsShare.append (fun j n (ho : Occurs ([c] ++ rest) j n) hj => ?_) hrest
        obtain rfl : j = 0 := by simpa using hj
        obtain ⟨_, h'⟩ := occurs_zero_iff.mp ho
        rw [List.singleton_append, h] at h'
        cases h'
    · rw [piecesOf_of_literal h, List.flatMap_cons, hout]
      rfl

end CommandLauncher.Template
