/-
  THE ORDER OF KEYS — how far the comparison of keys is a total preorder.

  1. **Turning round** — comparing two keys the other way round gives the opposite answer
     (`compareKeys_swap`), for all keys.

  2. **Three keys** — the lower-case images are compared first, and that comparison is transitive
     for all keys.  Only keys with one and the same image go on to the ranks, which are compared
     position by position up to the end of the shorter key.  If the keys have equally many
     characters this is the lexicographic comparison of all ranks (`compareRanks_eq_lex`), and the
     whole is transitive.

  3. **Where it fails** — the dotted capital I is the one character with an image of two
     characters.  So `İ` and `I` with a combining dot have one image and different numbers of
     characters, and what stands behind them is then compared with what stands one position off.
     Three such keys form a cycle (`compareKeys_cycle`).
-/
import CommandLauncher.SortOrder

namespace CommandLauncher

open Std

/-! ## The first comparison -/

/-- Comparing what a function makes of two things is as transitive as the comparison. -/
theorem transCmp_on {α β : Type} (f : α → β) (cmp : β → β → Ordering) [TransCmp cmp] :
    TransCmp fun x y => cmp (f x) (f y) where
  eq_swap := OrientedCmp.eq_swap
  isLE_trans := TransCmp.isLE_trans

/-- Compare by lower-case images alone. -/
def compareLowered (a b : String) : Ordering :=
  List.compareLex (compareOn Char.toNat) (loweredKey a) (loweredKey b)

instance lawfulEqCmp_toNat : LawfulEqCmp (compareOn Char.toNat) where
  eq_of_compare h := Char.toNat_inj.mp (LawfulEqOrd.eq_of_compare h)

instance transCmp_compareLowered : TransCmp compareLowered :=
  transCmp_on loweredKey (List.compareLex (compareOn Char.toNat))

theorem compareLowered_eq_iff {a b : String} :
    compareLowered a b = .eq ↔ loweredKey a = loweredKey b :=
  @LawfulEqCmp.compare_eq_iff_eq _ (List.compareLex (compareOn Char.toNat)) _ _ _

/-- It comes first, and the rest counts where it tells nothing apart. -/
theorem compareKeys_eq (a b : String) : compareKeys a b = (compareLowered a b).then
    ((compareRanks a.toList b.toList).then (compare a.utf8ByteSize b.utf8ByteSize)) := rfl

/-- Keys with different images are told apart by them. -/
theorem compareKeys_of_ne {a b : String} (h : loweredKey a ≠ loweredKey b) :
    compareKeys a b = compareLowered a b := by
  have hne : compareLowered a b ≠ .eq := fun heq => h (compareLowered_eq_iff.mp heq)
  rw [compareKeys_eq]
  cases hcmp : compareLowered a b with
  | lt => rfl
  | eq => exact absurd hcmp hne
  | gt => rfl

/-- What is not greater has an image that is not greater. -/
theorem isLE_compareLowered {a b : String} (h : compareKeys a b ≠ .gt) :
    (compareLowered a b).isLE := by
  rw [Ordering.isLE_iff_ne_gt]
  intro hgt
  rw [compareKeys_eq, hgt] at h
  exact h rfl

/-! ## Ranks -/

theorem compareRanks_swap (xs ys : List Char) : compareRanks ys xs = (compareRanks xs ys).swap := by
  induction xs generalizing ys with
  | nil => cases ys <;> rfl
  | cons x xs ih =>
    cases ys with
    | nil => rfl
    | cons y ys =>
      rw [compareRanks, compareRanks, ih, Ordering.swap_then]
      exact congrArg (Ordering.then · _) OrientedOrd.eq_swap

/-- Between equally many characters the ranks are compared to the end. -/
theorem compareRanks_eq_lex {xs ys : List Char} (h : xs.length = ys.length) :
    compareRanks xs ys = List.compareLex (compareOn caseRank) xs ys := by
  induction xs generalizing ys with
  | nil =>
    cases ys with
    | nil => rfl
    | cons y ys => cases h
  | cons x xs ih =>
    cases ys with
    | nil => cases h
    | cons y ys =>
      rw [compareRanks, List.compareLex_cons_cons, ih (Nat.succ.inj h)]
      rfl

/-- Compare by all ranks, then by length. -/
def compareCase (a b : String) : Ordering :=
  (List.compareLex (compareOn caseRank) a.toList b.toList).then
    (compare a.utf8ByteSize b.utf8ByteSize)

instance transCmp_compareCase : TransCmp compareCase :=
  have := transCmp_on String.toList (List.compareLex (compareOn caseRank))
  inferInstanceAs (TransCmp (compareLex
    (fun a b : String => List.compareLex (compareOn caseRank) a.toList b.toList)
    (compareOn String.utf8ByteSize)))

/-- Keys with one image and equally many characters are told apart by all their ranks. -/
theorem compareKeys_of_eq {a b : String} (h : loweredKey a = loweredKey b)
    (hlength : a.length = b.length) : compareKeys a b = compareCase a b := by
  change (compareLowered a b).then _ = _
  have hranks : a.toList.length = b.toList.length := by
    rwa [String.length_toList, String.length_toList]
  rw [compareLowered_eq_iff.mpr h, compareRanks_eq_lex hranks]
  rfl

/-! ## The whole comparison -/

/-- **Turning round.**  The comparison the other way round gives the opposite answer. -/
theorem compareKeys_swap (a b : String) : compareKeys b a = (compareKeys a b).swap := by
  have hlowered : compareLowered b a = (compareLowered a b).swap := OrientedCmp.eq_swap
  rw [compareKeys_eq, compareKeys_eq, Ordering.swap_then, Ordering.swap_then, ← hlowered,
    ← compareRanks_swap, ← OrientedOrd.eq_swap]

/-- What is compared as not greater in two steps is not greater at once, and it is smaller if one
    of the steps was strict. -/
def StepsAddUp (a b c : String) : Prop :=
  compareKeys a b ≠ .gt → compareKeys b c ≠ .gt →
    compareKeys a c ≠ .gt ∧
      (compareKeys a b = .lt ∨ compareKeys b c = .lt → compareKeys a c = .lt)

/-- A transitive comparison that agrees with that of keys on three keys lets their steps add up. -/
theorem StepsAddUp.of_agrees {cmp : String → String → Ordering} [TransCmp cmp] {a b c : String}
    (hab : compareKeys a b = cmp a b) (hbc : compareKeys b c = cmp b c)
    (hac : compareKeys a c = cmp a c) : StepsAddUp a b c := by
  rw [StepsAddUp, hab, hbc, hac]
  intro h₁ h₂
  have h₁ := Ordering.isLE_iff_ne_gt.mpr h₁
  have h₂ := Ordering.isLE_iff_ne_gt.mpr h₂
  refine ⟨Ordering.isLE_iff_ne_gt.mp (TransCmp.isLE_trans h₁ h₂), fun hstrict => ?_⟩
  rcases hstrict with hlt | hlt
  · exact TransCmp.lt_of_lt_of_isLE hlt h₂
  · exact TransCmp.lt_of_isLE_of_lt h₁ hlt

/-- The steps of keys that do not all have one image add up. -/
theorem StepsAddUp.of_ne {a b c : String}
    (h : ¬ (loweredKey a = loweredKey b ∧ loweredKey b = loweredKey c)) : StepsAddUp a b c := by
  intro hab hbc
  have hab := isLE_compareLowered hab
  have hbc := isLE_compareLowered hbc
  -- one of the steps is strict already between the images, so the whole way is
  have hlt : compareLowered a c = .lt := by
    rcases Ordering.isLE_iff_eq_lt_or_eq_eq.mp hab with hlt | hfirst
    · exact TransCmp.lt_of_lt_of_isLE hlt hbc
    · rcases Ordering.isLE_iff_eq_lt_or_eq_eq.mp hbc with hlt | hsecond
      · exact TransCmp.lt_of_isLE_of_lt hab hlt
      · exact absurd ⟨compareLowered_eq_iff.mp hfirst, compareLowered_eq_iff.mp hsecond⟩ h
  have hne : loweredKey a ≠ loweredKey c := by
    intro heq
    rw [compareLowered_eq_iff.mpr heq] at hlt
    cases hlt
  rw [compareKeys_of_ne hne, hlt]
  exact ⟨Ordering.noConfusion, fun _ => rfl⟩

/-- So do the steps of keys with one image, if these have equally many characters. -/
theorem StepsAddUp.of_lengths {a b c : String}
    (hlength : loweredKey a = loweredKey b → loweredKey b = loweredKey c →
      a.length = b.length ∧ b.length = c.length) : StepsAddUp a b c := by
  by_cases h : loweredKey a = loweredKey b ∧ loweredKey b = loweredKey c
  · obtain ⟨hab, hbc⟩ := h
    obtain ⟨hlab, hlbc⟩ := hlength hab hbc
    exact .of_agrees (compareKeys_of_eq hab hlab) (compareKeys_of_eq hbc hlbc)
      (compareKeys_of_eq (hab.trans hbc) (hlab.trans hlbc))
  · exact .of_ne h

/-! ## The dotted capital I -/

/-- Every other character has an image of one character. -/
theorem length_lower {c : Char} (h : c ≠ 'İ') : (Text.lower c).length = 1 := by
  have hn : c.toNat ≠ 0x130 := fun hn => h (Char.toNat_inj.mp hn)
  rw [Text.lower]
  split
  · rfl
  · split <;> rfl

/-- So the image of a key without it has as many characters as the key. -/
theorem length_loweredKey {s : String} (h : 'İ' ∉ s.toList) : (loweredKey s).length = s.length := by
  have hone : ∀ c ∈ s.toList, (Text.lower c).length = 1 := fun c hc =>
    length_lower fun heq => h (heq ▸ hc)
  rw [loweredKey, List.length_flatMap, List.map_congr_left hone, List.map_const',
    List.sum_replicate_nat, Nat.mul_one, String.length_toList]

/-- The steps of keys without it add up. -/
theorem StepsAddUp.of_undotted {a b c : String} (ha : 'İ' ∉ a.toList) (hb : 'İ' ∉ b.toList)
    (hc : 'İ' ∉ c.toList) : StepsAddUp a b c := by
  refine .of_lengths fun hab hbc => ⟨?_, ?_⟩
  · rw [← length_loweredKey ha, hab, length_loweredKey hb]
  · rw [← length_loweredKey hb, hbc, length_loweredKey hc]

/-! ## All keys -/

/-- **How far the comparison is a total preorder.**  Turning it round gives the opposite answer,
    whatever the keys.  The steps of three keys add up, except that keys which all have one
    lower-case image must have equally many characters. -/
theorem compareKeys_preorder (a b c : String) :
    compareKeys b a = (compareKeys a b).swap ∧
    ((loweredKey a = loweredKey b → loweredKey b = loweredKey c →
        a.length = b.length ∧ b.length = c.length) →
      StepsAddUp a b c) :=
  ⟨compareKeys_swap a b, .of_lengths⟩

/-- Three keys with one image and three characters each: the steps from `aKk` over `aKK` to `AkK`
    add up. -/
theorem compareKeys_preorder_case :
    compareKeys "aKk" "aKK" = .lt ∧ compareKeys "aKK" "AkK" = .lt ∧
    compareKeys "aKk" "AkK" = .lt := by
  have hfirst : compareKeys "aKk" "aKK" = .lt := by decide +kernel
  have hsecond : compareKeys "aKK" "AkK" = .lt := by decide +kernel
  have h := (compareKeys_preorder "aKk" "aKK" "AkK").2 fun _ _ => by decide +kernel
  refine ⟨hfirst, hsecond, (h ?_ ?_).2 (.inl hfirst)⟩
  · rw [hfirst]
    exact Ordering.noConfusion
  · rw [hsecond]
    exact Ordering.noConfusion

/-- The comparison of all keys is no preorder: of `I` with a combining dot and `Ⱥ`, of `İ` and `ⱥ`,
    and of `I` with a combining dot and `ⱥ`, the first equals the second and the second is
    smaller than the third, but the first is greater than the third. -/
theorem compareKeys_cycle :
    ¬ ((∀ a b, compareKeys b a = (compareKeys a b).swap) ∧ ∀ a b c, StepsAddUp a b c) := by
  rintro ⟨_, h⟩
  have hfirst : compareKeys "I\u0307Ⱥ" "İⱥ" = .eq := by decide +kernel
  have hsecond : compareKeys "İⱥ" "I\u0307ⱥ" = .lt := by decide +kernel
  have hthird : compareKeys "I\u0307Ⱥ" "I\u0307ⱥ" = .gt := by decide +kernel
  refine (h "I\u0307Ⱥ" "İⱥ" "I\u0307ⱥ" ?_ ?_).1 hthird
  · rw [hfirst]
    exact Ordering.noConfusion
  · rw [hsecond]
    exact Ordering.noConfusion

end CommandLauncher
