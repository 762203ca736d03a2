/-
  IN ONE PASS — putting an entry into a list that is changed where it stands.

  1. **The pass** — the list is gone through once.  The entries to be dropped are left out on the
     way, and the place of the new entry moves up by one for each of them that stands in front of
     its position.  Then the entry is written to its place.  Two things can go wrong: there is no
     place in front of the first one, and behind the last one there is nothing to write over
     (`upsert?`).

  2. **The invariant** — in front of the position, the place is the number of the entries that were
     kept and of those that are still to come before the position (`Pass.ahead`).  One visit keeps
     this (`visit_ahead`), so a pass does (`pass_ahead`).  Behind the position the place stays
     where it is (`pass_behind`).

  3. **Agreement** — so the place is always in the list, and the pass gives the list that `upsert`
     gives (`upsert?_eq_some`), which is known entry by entry (`upsert_exact`).
-/
import CommandLauncher.Proofs.Placing

namespace CommandLauncher

/-! ## The pass -/

/-- How far a pass has come: how many entries it has seen, the place of the new entry, if it has
    one, and the entries that were kept. -/
structure Pass (α : Type) where
  seen : Nat
  place : Option Nat
  kept : List α

section OnePass

variable {α : Type}

namespace Pass

/-- The place one further up; there is none in front of the first one. -/
def moveUp? : Option Nat → Option (Option Nat)
  | some 0 => none
  | some (p + 1) => some (some p)
  | none => some none

variable (key : α → String) (k : String) (index : Option Nat)

/-- Visit the next entry: keep it at the given position or with another key, else drop it. -/
def visit (pass : Pass α) (e : α) : Option (Pass α) :=
  if some pass.seen = index ∨ key e ≠ k then
    some { pass with seen := pass.seen + 1, kept := pass.kept ++ [e] }
  else if ∃ i ∈ index, pass.seen < i then
    (moveUp? pass.place).map fun place => { pass with seen := pass.seen + 1, place }
  else some { pass with seen := pass.seen + 1 }

/-- Visit all entries. -/
def run? (items : List α) : Option (Pass α) :=
  items.foldlM (visit key k index) { seen := 0, place := index, kept := [] }

/-- Write the new entry over what stands at its place, or at the end. -/
def write? (item : α) (pass : Pass α) : Option (List α) :=
  match pass.place with
  | some p => if p < pass.kept.length then some (pass.kept.set p item) else none
  | none => some (pass.kept ++ [item])

end Pass

/-- Put an entry at a position, or over the entry with its key, or at the end, in one pass. -/
def upsert? (key : α → String) (index : Option Nat) (item : α) (items : List α) :
    Option (List α) :=
  let index := index.or (position? key (key item) items)
  (Pass.run? key (key item) index items).bind (Pass.write? item)

/-! ## The invariant -/

theorem without_append (key : α → String) (k : String) (xs ys : List α) :
    without key k (xs ++ ys) = without key k xs ++ without key k ys :=
  List.filter_append ..

namespace Pass

variable {key : α → String} {k : String}

/-- A pass that has not got behind position `i`: the place is the number of the entries kept and of
    those that are still to come in front of the position. -/
def ahead (i seen : Nat) (kept : List α) : Pass α :=
  { seen, place := some (kept.length + (i - seen)), kept }

/-- **One visit in front of the position** keeps the place as far behind the kept entries as the
    position is behind the visited ones. -/
theorem visit_ahead {i seen : Nat} (h : seen < i) (kept : List α) (e : α) :
    visit key k (some i) (ahead i seen kept) e =
      some (ahead i (seen + 1) (kept ++ without key k [e])) := by
  obtain ⟨n, hn⟩ : ∃ n, i - seen = n + 1 := ⟨i - seen - 1, by omega⟩
  have hnext : i - (seen + 1) = n := by omega
  rw [visit, ahead, ahead, hn, hnext]
  by_cases he : key e = k
  · -- the entry goes: none more is kept, and one less is to come
    have hdrop : ¬ (some seen = some i ∨ key e ≠ k) := by
      rintro (hi | hne)
      · exact Nat.ne_of_lt h (Option.some.inj hi)
      · exact hne he
    rw [if_neg hdrop, if_pos ⟨i, rfl, h⟩, without_cons_eq key he]
    show _ = some (Pass.mk (seen + 1) (some ((kept ++ []).length + n)) (kept ++ []))
    rw [List.append_nil]
    rfl
  · -- the entry stays: one more is kept, and one less is to come
    rw [if_pos (.inr he), without_cons_ne key he]
    show _ = some (Pass.mk (seen + 1) (some ((kept ++ [e]).length + n)) (kept ++ [e]))
    rw [List.length_append, List.length_singleton, Nat.add_assoc, Nat.add_comm n 1]

/-- **A pass in front of the position**, by induction on the entries that it visits. -/
theorem pass_ahead {i : Nat} (earlier : List α) : ∀ (seen : Nat) (kept : List α),
    seen + earlier.length ≤ i →
    earlier.foldlM (visit key k (some i)) (ahead i seen kept) =
      some (ahead i (seen + earlier.length) (kept ++ without key k earlier)) := by
  induction earlier with
  | nil =>
    intro seen kept _
    show some (ahead i seen kept) = some (ahead i seen (kept ++ []))
    rw [List.append_nil]
  | cons e earlier ih =>
    intro seen kept h
    rw [List.length_cons] at h ⊢
    have hrest : seen + 1 + earlier.length ≤ i := by omega
    have hseen : seen + (earlier.length + 1) = seen + 1 + earlier.length := by omega
    have hkept : without key k (e :: earlier) = without key k [e] ++ without key k earlier :=
      without_append key k [e] earlier
    rw [List.foldlM_cons, visit_ahead (by omega), hseen, hkept, ← List.append_assoc]
    exact ih _ _ hrest

/-- One visit that is not in front of the position leaves the place alone. -/
theorem visit_behind {index : Option Nat} {pass : Pass α} (h : ∀ i ∈ index, i < pass.seen) (e : α) :
    visit key k index pass e =
      some { pass with seen := pass.seen + 1, kept := pass.kept ++ without key k [e] } := by
  rw [visit]
  by_cases he : key e = k
  · have hdrop : ¬ (some pass.seen = index ∨ key e ≠ k) := by
      rintro (hi | hne)
      · exact Nat.lt_irrefl _ (h pass.seen hi.symm)
      · exact hne he
    have hbehind : ¬ ∃ i ∈ index, pass.seen < i := by
      rintro ⟨i, hi, hlt⟩
      exact Nat.lt_asymm hlt (h i hi)
    rw [if_neg hdrop, if_neg hbehind, without_cons_eq key he]
    show _ = some { pass with seen := pass.seen + 1, kept := pass.kept ++ [] }
    rw [List.append_nil]
  · rw [if_pos (.inr he), without_cons_ne key he]
    rfl

/-- A pass that is not in front of the position. -/
theorem pass_behind {index : Option Nat} (later : List α) : ∀ pass : Pass α,
    (∀ i ∈ index, i < pass.seen) →
    later.foldlM (visit key k index) pass =
      some { pass with
        seen := pass.seen + later.length, kept := pass.kept ++ without key k later } := by
  induction later with
  | nil =>
    intro pass _
    show some pass = some { pass with kept := pass.kept ++ [] }
    rw [List.append_nil]
  | cons e later ih =>
    intro pass h
    have hnext : ∀ i ∈ index, i < pass.seen + 1 := fun i hi => Nat.lt_succ_of_lt (h i hi)
    have hseen : pass.seen + (later.length + 1) = pass.seen + 1 + later.length := by omega
    have hkept : without key k (e :: later) = without key k [e] ++ without key k later :=
      without_append key k [e] later
    rw [List.foldlM_cons, visit_behind h, List.length_cons, hseen, hkept, ← List.append_assoc]
    exact ih { pass with seen := pass.seen + 1, kept := pass.kept ++ without key k [e] } hnext

/-- A whole pass over a list with an entry at the position. -/
theorem run?_at (key : α → String) (k : String) (earlier later : List α) (old : α) :
    run? key k (some earlier.length) (earlier ++ old :: later) =
      some {
        seen := earlier.length + 1 + later.length
        place := some (without key k earlier).length
        kept := without key k earlier ++ old :: without key k later } := by
  let here : Pass α :=
    { seen := earlier.length + 1, place := some (without key k earlier).length,
      kept := without key k earlier ++ [old] }
  have hstart : ({ seen := 0, place := some earlier.length, kept := [] } : Pass α) =
      ahead earlier.length 0 [] := by
    rw [ahead, List.length_nil, Nat.zero_add, Nat.sub_zero]
  have hfront : earlier.foldlM (visit key k (some earlier.length)) (ahead earlier.length 0 []) =
      some (ahead earlier.length earlier.length (without key k earlier)) := by
    rw [pass_ahead earlier 0 [] (Nat.le_of_eq (Nat.zero_add _)), Nat.zero_add, List.nil_append]
  have hthere : visit key k (some earlier.length)
      (ahead earlier.length earlier.length (without key k earlier)) old = some here := by
    rw [ahead, Nat.sub_self, visit, if_pos (.inl rfl)]
    rfl
  have hback : ∀ i ∈ some earlier.length, i < here.seen := by
    rintro i hi
    obtain rfl := Option.some.inj hi
    exact Nat.lt_succ_self _
  rw [run?, hstart, List.foldlM_append, hfront, Option.bind_eq_bind, Option.bind_some,
    List.foldlM_cons, hthere, Option.bind_eq_bind, Option.bind_some, pass_behind later here hback]
  show some { here with seen := _, kept := (without key k earlier ++ [old]) ++ without key k later } = _
  rw [List.append_assoc, List.singleton_append]

/-- A whole pass without position. -/
theorem run?_none (key : α → String) (k : String) (items : List α) :
    run? key k none items =
      some { seen := items.length, place := none, kept := without key k items } := by
  have hnowhere : ∀ i ∈ (none : Option Nat), i < 0 := fun i hi => absurd hi (Option.not_mem_none i)
  rw [run?, pass_behind items _ hnowhere, Nat.zero_add, List.nil_append]

end Pass

/-! ## Agreement -/

section Agreement

variable (key : α → String) {index : Option Nat} {item : α} {items : List α}

/-- A position in the list divides it. -/
theorem exists_of_lt {i : Nat} (h : i < items.length) :
    ∃ old, items = items.take i ++ old :: items.drop (i + 1) := by
  refine ⟨items[i], ?_⟩
  rw [← List.drop_eq_getElem_cons h, List.take_append_drop]

/-- The position that counts is in the list if the given one is. -/
theorem lt_of_position {i : Nat} (hindex : ∀ i ∈ index, i < items.length)
    (h : index.or (position? key (key item) items) = some i) : i < items.length := by
  cases index with
  | some j =>
    obtain rfl : j = i := Option.some.inj h
    exact hindex j rfl
  | none =>
    obtain ⟨earlier, old, later, rfl, rfl, -⟩ := exists_of_position? key h
    rw [List.length_append, List.length_cons]
    omega

/-- Over the entry at the position that counts. -/
theorem upsert_of_some {i : Nat} (h : index.or (position? key (key item) items) = some i)
    (hi : i < items.length) :
    upsert key index item items =
      without key (key item) (items.take i) ++
        item :: without key (key item) (items.drop (i + 1)) := by
  have hsame : upsert key index item items = upsert key (some i) item items := by
    rw [upsert, h, upsert, Option.some_or]
  obtain ⟨old, hitems⟩ := exists_of_lt hi
  have hat := upsert_at key item old (items.take i) (items.drop (i + 1))
  rwa [← hitems, List.length_take_of_le (Nat.le_of_lt hi), ← hsame] at hat

/-- At the end. -/
theorem upsert_of_none (h : index.or (position? key (key item) items) = none) :
    upsert key index item items = items ++ [item] := by
  obtain ⟨rfl, habsent⟩ := Option.or_eq_none_iff.mp h
  have hall := without_eq_self key ((position?_eq_none_iff key).mp habsent)
  rw [upsert, h]
  dsimp only
  rw [clearKey]
  exact congrArg (· ++ [item]) hall

/-- **The pass does not go wrong** where the given position is in the list, and gives the list that
    `upsert` gives. -/
theorem upsert?_eq_some (hindex : ∀ i ∈ index, i < items.length) :
    upsert? key index item items = some (upsert key index item items) := by
  rw [upsert?]
  cases h : index.or (position? key (key item) items) with
  | some i =>
    have hi := lt_of_position key hindex h
    obtain ⟨old, hitems⟩ := exists_of_lt hi
    have hrun := Pass.run?_at key (key item) (items.take i) (items.drop (i + 1)) old
    rw [← hitems, List.length_take_of_le (Nat.le_of_lt hi)] at hrun
    rw [hrun, Option.bind_some, upsert_of_some key h hi, Pass.write?]
    dsimp only
    rw [if_pos (by rw [List.length_append, List.length_cons]; omega),
      List.set_append_right _ _ (Nat.le_refl _), Nat.sub_self, List.set_cons_zero]
  | none =>
    have habsent := (position?_eq_none_iff key).mp (Option.or_eq_none_iff.mp h).2
    rw [Pass.run?_none, Option.bind_some, upsert_of_none key h, without_eq_self key habsent]
    rfl

/-- The place that `upsert` itself writes to is in the list. -/
theorem positionAfterClearing_lt (k : String) {i : Nat} (hi : i < items.length) :
    positionAfterClearing key k i items < (clearKey key k (some i) items).length := by
  obtain ⟨old, hitems⟩ := exists_of_lt hi
  have hplace := positionAfterClearing_length key k (items.take i) (old :: items.drop (i + 1))
  have hkept := clearKey_at key k (items.take i) (items.drop (i + 1)) old
  rw [← hitems, List.length_take_of_le (Nat.le_of_lt hi)] at hplace hkept
  rw [hplace, hkept, List.length_append, List.length_cons]
  omega

/-- Around the new entry there are only entries from the list, in their order, and none of them has
    its key. -/
theorem upsert_divided (item : α) (hindex : ∀ i ∈ index, i < items.length) :
    ∃ before after, upsert key index item items = before ++ item :: after ∧
      (before ++ after).Sublist items ∧ ∀ e ∈ before ++ after, key e ≠ key item := by
  cases h : index.or (position? key (key item) items) with
  | some i =>
    have hi := lt_of_position key hindex h
    refine ⟨_, _, upsert_of_some key h hi, ?_, fun e he => ?_⟩
    · obtain ⟨old, hitems⟩ := exists_of_lt hi
      have hsub : (items.take i ++ items.drop (i + 1)).Sublist items := by
        conv => rhs; rw [hitems]
        exact (List.Sublist.refl _).append (List.sublist_cons_self old _)
      exact (List.filter_sublist.append List.filter_sublist).trans hsub
    · rcases List.mem_append.mp he with he | he
      · simpa using (List.mem_filter.mp he).2
      · simpa using (List.mem_filter.mp he).2
  | none =>
    have habsent := (position?_eq_none_iff key).mp (Option.or_eq_none_iff.mp h).2
    refine ⟨items, [], upsert_of_none key h, ?_, fun e he => habsent e ?_⟩
    · rw [List.append_nil]
    · rwa [List.append_nil] at he

/-- The new entry is the only one with its key. -/
theorem filter_upsert (hindex : ∀ i ∈ index, i < items.length) :
    (upsert key index item items).filter (fun e => key e = key item) = [item] := by
  obtain ⟨before, after, hdivided, -, hothers⟩ := upsert_divided key item hindex
  have hnone : ∀ xs : List α, (∀ e ∈ xs, e ∈ before ++ after) →
      xs.filter (fun e => key e = key item) = [] := fun xs hxs =>
    List.filter_eq_nil_iff.mpr fun e he => by simpa using hothers e (hxs e he)
  rw [hdivided, List.filter_append, List.filter_cons_of_pos (by simp),
    hnone before fun e he => List.mem_append_left after he,
    hnone after fun e he => List.mem_append_right before he]
  rfl

/-- Distinct keys stay distinct. -/
theorem Distinct.upsert (h : Distinct key items) (hindex : ∀ i ∈ index, i < items.length) :
    Distinct key (upsert key index item items) := by
  obtain ⟨before, after, hdivided, hsub, hothers⟩ := upsert_divided key item hindex
  rw [hdivided]
  exact Distinct.insert (h.sublist hsub) hothers

end Agreement

/-- **An entry is put into a list without leaving the list**, whatever the keys are, if the given
    position is in the list or there is none.  The pass never goes wrong, and it gives the list
    that `upsert` gives, which itself writes inside the list.  In this list the new entry is the
    only one with its key.  It stands in the place of the entry at the given position, or else of
    the first one with its key, between the entries that stood in front of this one and those that
    stood behind it, as far as they have another key; where there is no such place, it comes behind
    all entries.  Distinct keys stay distinct, also when the key of the new entry was that of
    another one. -/
theorem upsert_exact (key : α → String) (index : Option Nat) (item : α) (items : List α)
    (hindex : ∀ i ∈ index, i < items.length) :
    ∃ placed, upsert? key index item items = some placed ∧
      upsert key index item items = placed ∧
      placed.filter (fun e => key e = key item) = [item] ∧
      (∀ i, index.or (position? key (key item) items) = some i →
        positionAfterClearing key (key item) i items <
          (clearKey key (key item) (some i) items).length ∧
        placed = without key (key item) (items.take i) ++
          item :: without key (key item) (items.drop (i + 1))) ∧
      (index.or (position? key (key item) items) = none → placed = items ++ [item]) ∧
      (Distinct key items → Distinct key placed) := by
  refine ⟨upsert key index item items, upsert?_eq_some key hindex, rfl, filter_upsert key hindex,
    fun i hi => ?_, upsert_of_none key, fun h => h.upsert key hindex⟩
  have hlt := lt_of_position key hindex hi
  exact ⟨positionAfterClearing_lt key (key item) hlt, upsert_of_some key hi hlt⟩

/-- The last of three entries gets the key of the first one, and moves up by one place. -/
theorem upsert_exact_renamed :
    let items := [("a", 1), ("b", 1), ("c", 1)]
    (∀ i ∈ some 2, i < items.length) ∧ Distinct Prod.fst items ∧
      upsert? Prod.fst (some 2) ("a", 2) items = some [("b", 1), ("a", 2)] ∧
      Distinct Prod.fst [("b", 1), ("a", 2)] := by
  intro items
  have hindex : ∀ i ∈ some 2, i < items.length := by decide
  have hdistinct : Distinct Prod.fst items := by decide
  obtain ⟨placed, hpass, -, -, hplaced, -, hkeys⟩ :=
    upsert_exact Prod.fst (some 2) ("a", 2) items hindex
  obtain rfl : placed = [("b", 1), ("a", 2)] := (hplaced 2 rfl).2
  exact ⟨hindex, hdistinct, hpass, hkeys hdistinct⟩

/-! ## Running it -/

example : upsert? Prod.fst (some 3) ("a", 2) [("a", 1), ("b", 1)] = none := by decide

end OnePass

end CommandLauncher
