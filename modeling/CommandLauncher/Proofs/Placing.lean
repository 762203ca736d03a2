/-
  PLACING — where an entry stands in a list after it was put there.

  1. **The specification** — `Placed key target item items` are the lists that come out when
     `item` takes the place of the first entry with the key `target`, and every other entry with
     the key of `item` goes; where there is no such entry, `item` comes at the end.

  2. **Distinct keys** — keys that are distinct stay so when entries go, and when one is placed over
     another or comes with a new key.

  3. **Placing twice** — an entry that was put in its place is the only one with its key, so
     putting it there once more changes nothing (`Placed.again`).

  4. **Positions** — the position of an entry is found from the front, and it moves by as many
     places as entries in front of it are dropped (`positionAfterClearing_length`).

  5. **The program** — `upsert` gives such a list, whether it is told the position of the entry to
     be replaced (`placed_upsert_at`) or not (`placed_upsert`).
-/
import CommandLauncher.Entries
import Mathlib.Data.List.Basic

namespace CommandLauncher

section Placing

variable {α : Type} (key : α → String)

/-! ## The specification -/

/-- The entries without those that have a key. -/
def without (k : String) (items : List α) : List α := items.filter fun e => key e ≠ k

theorem without_cons_eq {k : String} {e : α} (h : key e = k) (items : List α) :
    without key k (e :: items) = without key k items := by
  simp [without, h]

theorem without_cons_ne {k : String} {e : α} (h : key e ≠ k) (items : List α) :
    without key k (e :: items) = e :: without key k items := by
  simp [without, h]

/-- Where no entry has the key, all of them stay. -/
theorem without_eq_self {k : String} {items : List α} (h : ∀ e ∈ items, key e ≠ k) :
    without key k items = items :=
  List.filter_eq_self.mpr fun e he => by simpa using h e he

/-- `item` in the place of the first entry with the key `target`, or else at the end. -/
inductive Placed (target : String) (item : α) (items : List α) : List α → Prop where
  | inPlace (earlier later : List α) (old : α) (hitems : items = earlier ++ old :: later)
      (hold : key old = target) (hfirst : ∀ e ∈ earlier, key e ≠ target) :
      Placed target item items
        (without key (key item) earlier ++ item :: without key (key item) later)
  | atEnd (habsent : ∀ e ∈ items, key e ≠ target) : Placed target item items (items ++ [item])

variable {key} in
/-- Nothing is in the list but what was there before, and the new entry. -/
theorem Placed.mem {target : String} {item e : α} {items placed : List α}
    (h : Placed key target item items placed) (he : e ∈ placed) : e ∈ items ∨ e = item := by
  cases h with
  | inPlace earlier later old hitems _ _ =>
    subst hitems
    rcases List.mem_append.mp he with he | he
    · exact .inl (List.mem_append_left _ (List.mem_filter.mp he).1)
    rcases List.mem_cons.mp he with he | he
    · exact .inr he
    · exact .inl (List.mem_append_right _ (List.mem_cons_of_mem _ (List.mem_filter.mp he).1))
  | atEnd _ => simpa using he

/-! ## Distinct keys -/

/-- No two entries have the same key. -/
def Distinct (items : List α) : Prop := (items.map key).Nodup

instance (items : List α) : Decidable (Distinct key items) :=
  inferInstanceAs (Decidable (items.map key).Nodup)

section Distinct

variable {key} {items : List α}

theorem Distinct.sublist {kept : List α} (h : Distinct key items) (hkept : kept.Sublist items) :
    Distinct key kept :=
  List.Nodup.sublist (hkept.map key) h

theorem Distinct.without (h : Distinct key items) (k : String) : Distinct key (without key k items) :=
  h.sublist List.filter_sublist

/-- An entry with a new key may stand anywhere. -/
theorem Distinct.insert {earlier later : List α} {item : α} (h : Distinct key (earlier ++ later))
    (hnew : ∀ e ∈ earlier ++ later, key e ≠ key item) : Distinct key (earlier ++ item :: later) := by
  have hperm : ((earlier ++ item :: later).map key).Perm (key item :: (earlier ++ later).map key) :=
    List.perm_middle.map key
  rw [Distinct, hperm.nodup_iff, List.nodup_cons]
  refine ⟨fun hmem => ?_, h⟩
  obtain ⟨e, he, hkey⟩ := List.mem_map.mp hmem
  exact hnew e he hkey

/-- Keys stay distinct when an entry takes the place of another, or comes with a new key. -/
theorem Distinct.placed {target : String} {item : α} {placed : List α} (h : Distinct key items)
    (hplaced : Placed key target item items placed)
    (htarget : (∃ e ∈ items, key e = target) ∨ target = key item) : Distinct key placed := by
  cases hplaced with
  | inPlace earlier later old hitems hold hfirst =>
    subst hitems
    have hrest : later.Sublist (old :: later) := List.sublist_cons_self old later
    refine Distinct.insert (h.sublist ?_) fun e he => ?_
    · exact List.filter_sublist.append (List.filter_sublist.trans hrest)
    · rcases List.mem_append.mp he with he | he
      · simpa using (List.mem_filter.mp he).2
      · simpa using (List.mem_filter.mp he).2
  | atEnd habsent =>
    rcases htarget with ⟨e, he, hkey⟩ | rfl
    · exact absurd hkey (habsent e he)
    · exact Distinct.insert (by rwa [List.append_nil]) (by rwa [List.append_nil])

end Distinct

/-! ## Placing twice -/

section Twice

variable {key} {target : String} {item : α} {items placed twice : List α}

/-- An entry that was put in its place is the only one with its key. -/
theorem Placed.unique (h : Placed key target item items placed)
    (htarget : target = key item ∨ ∃ e ∈ items, key e = target) :
    ∃ earlier later, placed = earlier ++ item :: later ∧
      ∀ e ∈ earlier ++ later, key e ≠ key item := by
  cases h with
  | inPlace earlier later old _ _ _ =>
    refine ⟨_, _, rfl, fun e he => ?_⟩
    rcases List.mem_append.mp he with he | he
    · simpa using (List.mem_filter.mp he).2
    · simpa using (List.mem_filter.mp he).2
  | atEnd habsent =>
    refine ⟨items, [], rfl, fun e he => ?_⟩
    rw [List.append_nil] at he
    rcases htarget with rfl | ⟨old, hold, hkey⟩
    · exact habsent e he
    · exact absurd hkey (habsent old hold)

section Unique

variable {earlier later : List α} (hunique : ∀ e ∈ earlier ++ later, key e ≠ key item)

include hunique

/-- It is found with its key. -/
theorem find?_of_unique :
    (earlier ++ item :: later).find? (fun e => key e = key item) = some item := by
  have hnone : earlier.find? (fun e => key e = key item) = none :=
    List.find?_eq_none.mpr fun e he => by simpa using hunique e (List.mem_append_left later he)
  rw [List.find?_append, hnone, Option.none_or, List.find?_cons_of_pos (by simp)]

/-- Putting it in its place once more changes nothing. -/
theorem Placed.again (h : Placed key (key item) item (earlier ++ item :: later) twice) :
    twice = earlier ++ item :: later := by
  have hnot : item ∉ earlier ∧ item ∉ later :=
    not_or.mp fun hmem => hunique item (List.mem_append.mpr hmem) rfl
  cases h with
  | inPlace before after old hitems hold hfirst =>
    -- the entry that is replaced has the key, so it is the entry itself
    have hmem : old ∈ earlier ++ item :: later := by
      rw [hitems]
      exact List.mem_append_right before List.mem_cons_self
    have hsame : old = item := by
      rcases List.mem_append.mp hmem with hmem | hmem
      · exact absurd hold (hunique old (List.mem_append_left later hmem))
      rcases List.mem_cons.mp hmem with hmem | hmem
      · exact hmem
      · exact absurd hold (hunique old (List.mem_append_right earlier hmem))
    subst hsame
    obtain ⟨rfl, -, rfl⟩ := (List.append_cons_inj_of_notMem hnot.1 hnot.2).mp hitems
    rw [without_eq_self key fun e he => hunique e (List.mem_append_left _ he),
      without_eq_self key fun e he => hunique e (List.mem_append_right _ he)]
  | atEnd habsent =>
    exact absurd rfl (habsent item (List.mem_append_right earlier List.mem_cons_self))

end Unique

end Twice

/-! ## Positions -/

/-- The first entry with a key divides the list. -/
theorem exists_of_position? {k : String} {items : List α} {i : Nat}
    (h : position? key k items = some i) :
    ∃ earlier old later, items = earlier ++ old :: later ∧ earlier.length = i ∧
      key old = k ∧ ∀ e ∈ earlier, key e ≠ k := by
  induction items generalizing i with
  | nil => simp [position?] at h
  | cons e items ih =>
    rw [position?, List.findIdx?_cons] at h
    split at h
    · rename_i he
      obtain rfl := Option.some.inj h
      exact ⟨[], e, items, rfl, rfl, by simpa using he, by simp⟩
    · rename_i he
      obtain ⟨j, hj, rfl⟩ := Option.map_eq_some_iff.mp h
      obtain ⟨earlier, old, later, rfl, rfl, hold, hfirst⟩ := ih hj
      refine ⟨e :: earlier, old, later, rfl, rfl, hold, fun x hx => ?_⟩
      rcases List.mem_cons.mp hx with rfl | hx
      · simpa using he
      · exact hfirst x hx

theorem position?_eq_none_iff {k : String} {items : List α} :
    position? key k items = none ↔ ∀ e ∈ items, key e ≠ k := by
  simp [position?]

theorem length_without (k : String) (items : List α) :
    (without key k items).length + (items.filter fun e => key e = k).length = items.length := by
  induction items with
  | nil => rfl
  | cons e items ih =>
    by_cases he : key e = k
    · rw [without_cons_eq key he, List.filter_cons_of_pos (by simpa using he), List.length_cons,
        List.length_cons, ← ih, Nat.add_assoc]
    · rw [without_cons_ne key he, List.filter_cons_of_neg (by simpa using he), List.length_cons,
        List.length_cons, ← ih, Nat.add_right_comm]

/-- An entry moves by as many places as entries in front of it are dropped. -/
theorem positionAfterClearing_length (k : String) (earlier later : List α) :
    positionAfterClearing key k earlier.length (earlier ++ later) =
      (without key k earlier).length := by
  rw [positionAfterClearing, List.take_left, ← length_without key k earlier, Nat.add_sub_cancel]

/-! ## The program -/

theorem clearKey_at (k : String) (earlier later : List α) (old : α) :
    clearKey key k (some earlier.length) (earlier ++ old :: later) =
      without key k earlier ++ old :: without key k later := by
  induction earlier with
  | nil => rfl
  | cons e earlier ih =>
    rw [List.length_cons, List.cons_append, clearKey, ih]
    split
    · rename_i he
      rw [without_cons_eq key he]
    · rename_i he
      rw [without_cons_ne key he, List.cons_append]

/-- Over the entry at a position. -/
theorem upsert_at (item old : α) (earlier later : List α) :
    upsert key (some earlier.length) item (earlier ++ old :: later) =
      without key (key item) earlier ++ item :: without key (key item) later := by
  rw [upsert, Option.some_or]
  dsimp only
  rw [clearKey_at, positionAfterClearing_length, List.set_append_right _ _ (Nat.le_refl _), Nat.sub_self,
    List.set_cons_zero]

/-- Over the entry at the position of the first one with a key. -/
theorem placed_upsert_at {target : String} {items : List α} {i : Nat}
    (h : position? key target items = some i) (item : α) :
    Placed key target item items (upsert key (some i) item items) := by
  obtain ⟨earlier, old, later, rfl, rfl, hold, hfirst⟩ := exists_of_position? key h
  rw [upsert_at]
  exact .inPlace earlier later old rfl hold hfirst

/-- Over the first entry with the key of the new one, or at the end. -/
theorem placed_upsert (item : α) (items : List α) :
    Placed key (key item) item items (upsert key none item items) := by
  cases h : position? key (key item) items with
  | some i =>
    have hsame : upsert key none item items = upsert key (some i) item items := by
      rw [upsert, upsert, h]
      rfl
    rw [hsame]
    exact placed_upsert_at key h item
  | none =>
    have habsent := (position?_eq_none_iff key).mp h
    -- all entries with the key go, but there are none
    have hend : upsert key none item items = without key (key item) items ++ [item] := by
      rw [upsert, h]
      dsimp only [Option.or]
      rw [clearKey, without]
    rw [hend, without_eq_self key habsent]
    exact .atEnd habsent

end Placing

end CommandLauncher
