/-
  ARRANGING — what alphabetical order makes of a list.

  1. **Consistent keys** — on keys without the dotted capital I the comparison is a total preorder
     (`consistent_of_undotted`).  In particular it is one on keys whose characters all have
     images of one character.

  2. **From the greatest down** — an item walks past those that are greater than itself, so it
     comes to stand where the list stays in order (`placeDown_ordered`).  Of the items that
     compare equal to some key it passes none: the others it may pass, but they are strictly
     greater (`filter_placeDown`).  The fold carries both through the list.

  3. **One order** — so on consistent keys an arranged list is ordered and stable
     (`arrange_isSorted`).  There is one such list (`IsSorted.unique`): its first item is not
     greater than any other and the first of its equals.  So every sort returns the arranged list
     (`Sorting.sort?_eq`), and where no two items compare equal it does not depend on the order in
     which they are given (`arrange_eq_of_perm`).

  4. **Names** — the characters of a name are ASCII.  There the image and the case of a character
     tell what it is, so different names never compare equal (`eq_of_compareKeys_eq`).
-/
import CommandLauncher.Proofs.KeyOrder
import CommandLauncher.Proofs.Occurrences
import Mathlib.Data.List.Induction

namespace CommandLauncher

/-! ## Consistent keys -/

/-- Not to be greater is to find the other one not smaller. -/
theorem compareKeys_ne_gt {a b : String} : compareKeys a b ≠ .gt ↔ compareKeys b a ≠ .lt := by
  rw [compareKeys_swap b a]
  cases compareKeys b a <;> decide

theorem compareKeys_eq_comm {a b : String} : compareKeys a b = .eq ↔ compareKeys b a = .eq := by
  rw [compareKeys_swap b a]
  cases compareKeys b a <;> decide

theorem compareKeys_self (a : String) : compareKeys a a = .eq := by
  have h := compareKeys_swap a a
  cases hcmp : compareKeys a a with
  | eq => rfl
  | lt => rw [hcmp] at h; cases h
  | gt => rw [hcmp] at h; cases h

/-- Two keys of which neither is greater compare equal. -/
theorem compareKeys_eq_of_ne_gt {a b : String} (hab : compareKeys a b ≠ .gt)
    (hba : compareKeys b a ≠ .gt) : compareKeys a b = .eq := by
  have hnot := compareKeys_ne_gt.mp hba
  cases hcmp : compareKeys a b with
  | lt => exact absurd hcmp hnot
  | eq => rfl
  | gt => exact absurd hcmp hab

/-- Every character of the key has an image of one character. -/
def Charwise (key : String) : Prop := ∀ c ∈ key.toList, (Text.lower c).length = 1

-- the characters of the key, not all of them: a search for an instance may go through every one
instance (key : String) : Decidable (Charwise key) :=
  List.decidableBAll (fun c => (Text.lower c).length = 1) key.toList

theorem Charwise.undotted {key : String} (h : Charwise key) : 'İ' ∉ key.toList := fun hmem =>
  absurd (h _ hmem) (by decide +kernel)

section Consistent

variable {keys : List String} {a b k : String}

theorem consistent_of_undotted (h : ∀ key ∈ keys, 'İ' ∉ key.toList) : Consistent keys :=
  fun a ha b hb c hc hab hbc =>
    (StepsAddUp.of_undotted (h a ha) (h b hb) (h c hc) hab hbc).1

theorem Consistent.of_subset {keys' : List String} (h : Consistent keys) (hsub : keys' ⊆ keys) :
    Consistent keys' :=
  fun a ha b hb c hc => h a (hsub ha) b (hsub hb) c (hsub hc)

theorem consistent_of_charwise {α : Type} {key : α → String} {xs : List α}
    (h : ∀ x ∈ xs, Charwise (key x)) : Consistent (xs.map key) :=
  consistent_of_undotted (List.forall_mem_map.mpr fun x hx => (h x hx).undotted)

/-- Of two keys that compare equal to a third none is smaller than the other. -/
theorem Consistent.not_lt (h : Consistent keys) (ha : a ∈ keys) (hb : b ∈ keys) (hk : k ∈ keys)
    (hka : compareKeys k a = .eq) (hkb : compareKeys k b = .eq) : compareKeys a b ≠ .lt := by
  have hbk : compareKeys b k ≠ .gt := by
    rw [compareKeys_eq_comm.mp hkb]
    decide
  have hka : compareKeys k a ≠ .gt := by
    rw [hka]
    decide
  exact compareKeys_ne_gt.mp (h b hb k hk a ha hbk hka)

end Consistent

/-! ## From the greatest down -/

section Sorted

variable {α : Type} {key : α → String} {keys : List String} {x : α} {xs ys zs : List α} {k : String}

/-- A list that is written from its greatest item down. -/
def Descends (key : α → String) (xs : List α) : Prop :=
  xs.Pairwise fun x y => compareKeys (key x) (key y) ≠ .lt

theorem placeDown_ordered (hkeys : Consistent keys) (hx : key x ∈ keys)
    (hys : ∀ y ∈ ys, key y ∈ keys) (h : Descends key ys) : Descends key (placeDown key x ys) := by
  induction ys with
  | nil => exact List.pairwise_singleton _ x
  | cons y ys ih =>
    obtain ⟨hy, hrest⟩ := List.pairwise_cons.mp h
    obtain ⟨hky, hkrest⟩ := List.forall_mem_cons.mp hys
    unfold placeDown
    split
    · rename_i hlt
      refine List.Pairwise.cons (fun z hz => ?_) (ih hkrest hrest)
      rcases List.mem_cons.mp ((placeDown_perm key x ys).mem_iff.mp hz) with rfl | hz
      · rw [compareKeys_swap, hlt]
        decide
      · exact hy z hz
    · rename_i hnot
      refine List.Pairwise.cons (fun z hz => ?_) h
      rcases List.mem_cons.mp hz with rfl | hz
      · exact hnot
      · -- down from `x` to `y` and from `y` to `z`
        exact compareKeys_ne_gt.mp (hkeys _ (hkrest z hz) _ hky _ hx
          (compareKeys_ne_gt.mpr (hy z hz)) (compareKeys_ne_gt.mpr hnot))

/-- An item comes in front of all that compare equal to it. -/
theorem filter_placeDown (hkeys : Consistent keys) (hk : k ∈ keys) (hx : key x ∈ keys)
    (hys : ∀ y ∈ ys, key y ∈ keys) :
    (placeDown key x ys).filter (fun y => compareKeys k (key y) = .eq) =
      (x :: ys).filter fun y => compareKeys k (key y) = .eq := by
  induction ys with
  | nil => rfl
  | cons y ys ih =>
    obtain ⟨hky, hkrest⟩ := List.forall_mem_cons.mp hys
    unfold placeDown
    split
    · rename_i hlt
      by_cases hy : compareKeys k (key y) = .eq
      · -- `x` passes `y`, so it does not compare equal to `k` as `y` does
        have hne : compareKeys k (key x) ≠ .eq := fun hkx => hkeys.not_lt hx hky hk hkx hy hlt
        simp only [List.filter_cons, hy, hne, ih hkrest, decide_true, decide_false, if_true,
          Bool.false_eq_true, if_false]
      · simp only [List.filter_cons, hy, ih hkrest, decide_false, Bool.false_eq_true, if_false]
    · rfl

theorem sortDown_append_singleton (key : α → String) (xs : List α) (x : α) :
    sortDown key (xs ++ [x]) = placeDown key x (sortDown key xs) := by
  rw [sortDown, List.foldl_append]
  rfl

theorem sortDown_ordered (hkeys : Consistent keys) (h : ∀ x ∈ xs, key x ∈ keys) :
    Descends key (sortDown key xs) := by
  induction xs using List.reverseRecOn with
  | nil => exact List.Pairwise.nil
  | append_singleton xs x ih =>
    obtain ⟨hxs, hx⟩ := List.forall_mem_append.mp h
    rw [sortDown_append_singleton]
    exact placeDown_ordered hkeys (hx x (List.mem_singleton_self x))
      (fun y hy => hxs y ((sortDown_perm key xs).mem_iff.mp hy)) (ih hxs)

/-- Of the items that compare equal to a key the last one comes first. -/
theorem filter_sortDown (hkeys : Consistent keys) (hk : k ∈ keys) (h : ∀ x ∈ xs, key x ∈ keys) :
    (sortDown key xs).filter (fun x => compareKeys k (key x) = .eq) =
      (xs.filter fun x => compareKeys k (key x) = .eq).reverse := by
  induction xs using List.reverseRecOn with
  | nil => rfl
  | append_singleton xs x ih =>
    obtain ⟨hxs, hx⟩ := List.forall_mem_append.mp h
    rw [sortDown_append_singleton, filter_placeDown hkeys hk (hx x (List.mem_singleton_self x))
      (fun y hy => hxs y ((sortDown_perm key xs).mem_iff.mp hy)), List.filter_cons, ih hxs,
      List.filter_append, List.reverse_append]
    by_cases hkx : compareKeys k (key x) = .eq <;> simp [hkx]

/-! ## One order -/

/-- Insertion puts the items in order, and those that compare equal stay as they came. -/
theorem arrange_isSorted (h : Consistent (xs.map key)) :
    IsSorted key xs (arrange key xs .alphabetical) where
  perm := arrange_perm key xs .alphabetical
  ordered := by
    rw [arrange, List.pairwise_reverse]
    exact (sortDown_ordered h fun _ => List.mem_map_of_mem).imp compareKeys_ne_gt.mpr
  stable x hx := by
    rw [arrange, List.filter_reverse,
      filter_sortDown h (List.mem_map_of_mem hx) fun _ => List.mem_map_of_mem, List.reverse_reverse]

/-- Ordered lists of the same items are equal, if items that compare equal stand in one order in
    both. -/
theorem eq_of_ordered (hperm : ys.Perm zs)
    (hys : ys.Pairwise fun x y => compareKeys (key x) (key y) ≠ .gt)
    (hzs : zs.Pairwise fun x y => compareKeys (key x) (key y) ≠ .gt)
    (hequals : ∀ x ∈ ys, ys.filter (fun y => compareKeys (key x) (key y) = .eq) =
      zs.filter fun y => compareKeys (key x) (key y) = .eq) : ys = zs := by
  induction ys generalizing zs with
  | nil => exact hperm.nil_eq
  | cons y ys ih =>
    cases zs with
    | nil => cases hperm.eq_nil
    | cons z zs =>
      obtain ⟨hy, hyrest⟩ := List.pairwise_cons.mp hys
      obtain ⟨hz, hzrest⟩ := List.pairwise_cons.mp hzs
      have hself : compareKeys (key y) (key y) = .eq := compareKeys_self (key y)
      -- each first item is in the other list too, so neither is greater
      have hyz : compareKeys (key y) (key z) = .eq := by
        rcases List.mem_cons.mp (hperm.mem_iff.mpr List.mem_cons_self) with rfl | hzmem
        · exact hself
        · rcases List.mem_cons.mp (hperm.mem_iff.mp List.mem_cons_self) with rfl | hymem
          · exact hself
          · exact compareKeys_eq_of_ne_gt (hy z hzmem) (hz y hymem)
      -- and each is the first of those that compare equal to it
      have hfirst := hequals y List.mem_cons_self
      simp only [List.filter_cons, hself, hyz, decide_true, if_true] at hfirst
      obtain rfl := (List.cons.inj hfirst).1
      refine congrArg (y :: ·) (ih hperm.cons_inv hyrest hzrest fun x hx => ?_)
      have hrest := hequals x (List.mem_cons_of_mem y hx)
      by_cases hxy : compareKeys (key x) (key y) = .eq
      · simp only [List.filter_cons, hxy, decide_true, if_true] at hrest
        exact (List.cons.inj hrest).2
      · simpa only [List.filter_cons, hxy, decide_false, Bool.false_eq_true, if_false] using hrest

/-- There is one way to sort. -/
theorem IsSorted.unique (hys : IsSorted key xs ys) (hzs : IsSorted key xs zs) : ys = zs := by
  refine eq_of_ordered (hys.perm.trans hzs.perm.symm) hys.ordered hzs.ordered fun x hx => ?_
  have hx := hys.perm.mem_iff.mp hx
  rw [hys.stable x hx, hzs.stable x hx]

/-- Insertion is a sort, one that never gives up. -/
def Sorting.insertion : Sorting where
  sort? key xs := some (arrange key xs .alphabetical)
  perm h := by
    obtain rfl := Option.some.inj h
    exact arrange_perm _ _ .alphabetical
  sorts h := ⟨_, rfl, arrange_isSorted h⟩

/-- **One order.**  On consistent keys every sort returns what insertion makes. -/
theorem Sorting.sort?_eq (sorting : Sorting) (h : Consistent (xs.map key)) :
    sorting.sort? key xs = some (arrange key xs .alphabetical) := by
  obtain ⟨ys, hsort, hys⟩ := sorting.sorts h
  rw [hsort, hys.unique (arrange_isSorted h)]

theorem Sorting.arrange?_eq (sorting : Sorting) {order : SortOrder}
    (h : order = .settings ∨ Consistent (xs.map key)) :
    sorting.arrange? key xs order = some (arrange key xs order) := by
  cases order with
  | settings => rfl
  | alphabetical => exact sorting.sort?_eq (h.resolve_left SortOrder.noConfusion)

theorem Sorting.arrange?_insertion (key : α → String) (xs : List α) (order : SortOrder) :
    insertion.arrange? key xs order = some (arrange key xs order) := by
  cases order <;> rfl

/-- Of items that do not compare equal there is one arrangement, however they are given. -/
theorem arrange_eq_of_perm (hperm : xs.Perm ys) (hkeys : Consistent (xs.map key))
    (hapart : ∀ x ∈ xs, ∀ y ∈ xs, compareKeys (key x) (key y) = .eq → x = y) :
    arrange key xs .alphabetical = arrange key ys .alphabetical := by
  have hkeys' := hkeys.of_subset (hperm.map key).symm.subset
  have hxs := arrange_perm key xs .alphabetical
  have hys := arrange_perm key ys .alphabetical
  refine List.Perm.eq_of_pairwise (fun x y hx hy hxy hyx => ?_) (arrange_isSorted hkeys).ordered
    (arrange_isSorted hkeys').ordered (hxs.trans (hperm.trans hys.symm))
  exact hapart x (hxs.mem_iff.mp hx) y (hperm.mem_iff.mpr (hys.mem_iff.mp hy))
    (compareKeys_eq_of_ne_gt hxy hyx)

theorem map_placeDown {β : Type} (key : β → String) (f : α → β) (x : α) (ys : List α) :
    (placeDown (key ∘ f) x ys).map f = placeDown key (f x) (ys.map f) := by
  induction ys with
  | nil => rfl
  | cons y ys ih =>
    rw [List.map_cons, placeDown, placeDown, apply_ite (List.map f), List.map_cons, ih]
    rfl

/-- Arranging looks at the keys alone. -/
theorem map_arrange {β : Type} (key : β → String) (f : α → β) (xs : List α) (order : SortOrder) :
    (arrange (key ∘ f) xs order).map f = arrange key (xs.map f) order := by
  cases order with
  | settings => rfl
  | alphabetical =>
    rw [arrange, arrange, List.map_reverse]
    congr 1
    induction xs using List.reverseRecOn with
    | nil => rfl
    | append_singleton xs x ih =>
      rw [sortDown_append_singleton, map_placeDown, ih, List.map_append, List.map_singleton,
        sortDown_append_singleton]

end Sorted

/-! ## Names -/

theorem ascii_of_isNameChar {c : Char} (h : Variable.isNameChar c = true) : c.toNat < 0x80 := by
  rcases (Template.isNameChar_iff c).mp h with ⟨-, h⟩ | ⟨-, h⟩ | ⟨-, h⟩ | rfl | rfl
  · exact Nat.lt_of_le_of_lt h (by decide)
  · exact Nat.lt_of_le_of_lt h (by decide)
  · exact Nat.lt_of_le_of_lt h (by decide)
  · decide
  · decide

theorem ascii_of_isName {name : String} (h : Variable.isName name = true) :
    ∀ c ∈ name.toList, c.toNat < 0x80 := by
  obtain ⟨-, hchars⟩ := Bool.and_eq_true_iff.mp h
  exact fun c hc => ascii_of_isNameChar (List.all_eq_true.mp hchars c hc)

theorem charwise_of_ascii {key : String} (h : ∀ c ∈ key.toList, c.toNat < 0x80) : Charwise key := by
  intro c hc
  rw [Text.lower_of_ascii (h c hc)]
  rfl

/-- The image and the case of an ASCII character tell what it is. -/
theorem eq_of_toLower_eq {c d : Char} (hc : c.toNat < 0x80) (hd : d.toNat < 0x80)
    (hlower : c.toLower = d.toLower) (hrank : caseRank c = caseRank d) : c = d := by
  have all : ∀ n, n < 0x80 →
      (if caseRank (Char.ofNat n) = 1 then (Char.ofNat n).toLower.toUpper
        else (Char.ofNat n).toLower) = Char.ofNat n := by decide +kernel
  have htold : ∀ e : Char, e.toNat < 0x80 →
      (if caseRank e = 1 then e.toLower.toUpper else e.toLower) = e := fun e he => by
    simpa only [Char.ofNat_toNat] using all e.toNat he
  rw [← htold c hc, ← htold d hd, hlower, hrank]

theorem eq_of_compareRanks_eq {cs ds : List Char} (hcs : ∀ c ∈ cs, c.toNat < 0x80)
    (hds : ∀ d ∈ ds, d.toNat < 0x80) (hlower : cs.flatMap Text.lower = ds.flatMap Text.lower)
    (hranks : compareRanks cs ds = .eq) : cs = ds := by
  induction cs generalizing ds with
  | nil =>
    cases ds with
    | nil => rfl
    | cons d ds =>
      rw [List.flatMap_cons, Text.lower_of_ascii (hds d List.mem_cons_self)] at hlower
      cases hlower
  | cons c cs ih =>
    obtain ⟨hc, hcs⟩ := List.forall_mem_cons.mp hcs
    cases ds with
    | nil =>
      rw [List.flatMap_cons, Text.lower_of_ascii hc] at hlower
      cases hlower
    | cons d ds =>
      obtain ⟨hd, hds⟩ := List.forall_mem_cons.mp hds
      rw [List.flatMap_cons, List.flatMap_cons, Text.lower_of_ascii hc,
        Text.lower_of_ascii hd] at hlower
      obtain ⟨hfirst, hrest⟩ := List.cons.inj hlower
      obtain ⟨hrank, hranks⟩ := Ordering.then_eq_eq.mp hranks
      rw [eq_of_toLower_eq hc hd hfirst (Nat.compare_eq_eq.mp hrank), ih hcs hds hrest hranks]

/-- Different names never compare equal. -/
theorem eq_of_compareKeys_eq {a b : String} (ha : Variable.isName a = true)
    (hb : Variable.isName b = true) (h : compareKeys a b = .eq) : a = b := by
  rw [compareKeys_eq, Ordering.then_eq_eq, Ordering.then_eq_eq] at h
  obtain ⟨hlowered, hranks, -⟩ := h
  exact String.toList_inj.mp (eq_of_compareRanks_eq (ascii_of_isName ha) (ascii_of_isName hb)
    (compareLowered_eq_iff.mp hlowered) hranks)

end CommandLauncher
