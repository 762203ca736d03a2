/-
  SHADOWING — definitions with the same key, of which one hides the others.

  1. **Definitions** — `withKey` lists the entries of a part that have a key.  Whoever runs a
     command looks up the last of them (`last?_eq`); whoever edits gets the first one.

  2. **What an edit leaves** — the entry takes the place of the first definition, and the other
     ones stay unless they have the new key.  So the next definition of the old key comes to
     light when the first one gets another key (`withKey_placed`, `edit_takes_first`).

  3. **A disagreement** — `edit_shows_hidden` is such an edit.
-/
import CommandLauncher.Proofs.Dialogs
import CommandLauncher.Proofs.Updating

namespace CommandLauncher

open Session

/-! ## Definitions -/

section Definitions

variable {α : Type} (key : α → String)

/-- The entries that have a key. -/
def withKey (k : String) (items : List α) : List α := items.filter fun e => key e = k

theorem withKey_append (k : String) (xs ys : List α) :
    withKey key k (xs ++ ys) = withKey key k xs ++ withKey key k ys :=
  List.filter_append ..

theorem withKey_cons_eq {k : String} {e : α} (h : key e = k) (items : List α) :
    withKey key k (e :: items) = e :: withKey key k items :=
  List.filter_cons_of_pos (by simpa using h)

theorem withKey_cons_ne {k : String} {e : α} (h : key e ≠ k) (items : List α) :
    withKey key k (e :: items) = withKey key k items :=
  List.filter_cons_of_neg (by simpa using h)

theorem withKey_eq_nil_iff {k : String} {items : List α} :
    withKey key k items = [] ↔ ∀ e ∈ items, key e ≠ k := by
  simp [withKey]

theorem withKey_without_self (k : String) (items : List α) :
    withKey key k (without key k items) = [] := by
  refine (withKey_eq_nil_iff key).mpr fun e he => ?_
  simpa using (List.mem_filter.mp he).2

/-- Dropping the entries of another key does not matter. -/
theorem withKey_without_ne {k k' : String} (h : k ≠ k') (items : List α) :
    withKey key k (without key k' items) = withKey key k items := by
  rw [withKey, withKey, without, List.filter_filter]
  refine List.filter_congr fun e _ => ?_
  by_cases he : key e = k
  · simp [he, h]
  · simp [he]

variable {key} in
/-- The definitions of every key when an entry has taken the place of the first one of a key. -/
theorem withKey_placed {target : String} {item : α} {items placed : List α}
    (h : Placed key target item items placed) (hthere : ∃ e ∈ items, key e = target) (k : String) :
    withKey key k placed =
      if k = key item then [item]
      else if k = target then (withKey key k items).tail
      else withKey key k items := by
  cases h with
  | atEnd habsent =>
    obtain ⟨e, he, hkey⟩ := hthere
    exact absurd hkey (habsent e he)
  | inPlace earlier later old hitems hold hfirst =>
    subst hitems
    rw [withKey_append]
    by_cases hk : k = key item
    · subst hk
      rw [if_pos rfl, withKey_without_self, withKey_cons_eq key rfl, withKey_without_self]
      rfl
    · rw [if_neg hk, withKey_without_ne key hk, withKey_cons_ne key (Ne.symm hk),
        withKey_without_ne key hk, withKey_append]
      by_cases htarget : k = target
      · -- none of the earlier entries has the key, so the old one is the first that goes
        subst htarget
        have hnone : withKey key k earlier = [] := (withKey_eq_nil_iff key).mpr hfirst
        rw [if_pos rfl, hnone, withKey_cons_eq key hold]
        rfl
      · have hne : key old ≠ k := fun heq => htarget (heq.symm.trans hold)
        rw [if_neg htarget, withKey_cons_ne key hne]

end Definitions

namespace Part

/-- The definition of a key that counts when a command is run. -/
def last? : (p : Part) → String → Settings → Option p.Entry
  | vars, k, s => Variable.last? s.vars k
  | commands, k, s => Command.last? s.commands k

/-- The definitions of a key. -/
def definitions (p : Part) (k : String) (s : Settings) : List p.Entry :=
  withKey p.catalog.key k (p.catalog.entries s)

/-- The definition that counts is the last one. -/
theorem last?_eq (p : Part) (k : String) (s : Settings) :
    p.last? k s = (p.definitions k s).getLast? := by
  cases p with
  | vars => exact (List.getLast?_filter ..).symm
  | commands => exact (List.getLast?_filter ..).symm

/-- The definition that is edited is the first one. -/
theorem find?_eq (p : Part) (k : String) (s : Settings) :
    p.catalog.find? k s = (p.definitions k s).head? :=
  (List.head?_filter ..).symm

end Part

/-! ## What an edit leaves -/

section Editing

variable {p : Part} {key : String} {s s₁ : Session} {before now : Settings} {first : p.Entry}
  {more : List p.Entry} {entry : p.Entry}

/-- An edit starts from the first definition. -/
theorem initial?_of_definitions (hdefinitions : p.definitions key before = first :: more) :
    (Update.mk p (some key)).initial? before = some (some first) := by
  have hfind : p.catalog.find? key before = some first := by
    rw [p.find?_eq, hdefinitions]
    rfl
  show (p.catalog.find? key before).map some = some (some first)
  rw [hfind]
  rfl

/-- The definitions of every key behind a completed edit. -/
theorem edited_definitions (hread : s.onDisk = .ok before)
    (hdefinitions : p.definitions key before = first :: more)
    (hform : tryOn (p.form (some first)) (readSettings.run s).2 = (.ok entry, s₁))
    (hnow : s₁.onDisk = .ok now) (hthere : p.definitions key now ≠ [])
    (hwritable : s₁.files.Writable s.store.path)
    (hback : (s.after (.edit p key)).files.YamlReadsBack s.store.path) :
    ∃ written, (s.after (.edit p key)).onDisk = .ok written ∧
      ∀ k, p.definitions k written =
        if k = p.catalog.key entry then [entry]
        else if k = key then (p.definitions key now).tail
        else p.definitions k now := by
  have hopen := initial?_of_definitions hdefinitions
  have hsome : ∃ e ∈ p.catalog.entries now, p.catalog.key e = key := by
    have hnot := mt (withKey_eq_nil_iff p.catalog.key).mpr hthere
    simpa using hnot
  have hgone : ¬ (Update.mk p (some key)).IsGone now := by
    rintro ⟨k, hk, hnone⟩
    obtain rfl := Option.some.inj hk
    obtain ⟨e, he, hkey⟩ := hsome
    exact hnone e he hkey
  obtain ⟨-, -, entries, hplaced, htext, honDisk⟩ :=
    Update.saved (u := ⟨p, some key⟩) hread hopen hform hnow hgone hwritable
  refine ⟨p.catalog.replace entries now, honDisk fun hyaml => ?_, fun k => ?_⟩
  · exact hyaml ▸ hback.settings htext
  · have hkept := withKey_placed (show Placed p.catalog.key key entry _ entries from hplaced) hsome k
    rw [Part.definitions, p.entries_replace, hkept]
    by_cases hk : k = key
    · rw [hk]
      rfl
    · rw [if_neg hk, if_neg hk]
      rfl

end Editing

/-- **An edit takes the first definition**, where the one that counts is the last.  The form starts
    from the first definition of the key on disk.  When it is completed and stored, the new key
    stands for the entry alone; the old key, if it is another one, for what its second definition was on
    disk, and for those behind; every other key for what it stood for.  So what a key stands for
    agrees with what was edited where the key has one definition. -/
theorem edit_takes_first (p : Part) (key : String) (s : Session) (before : Settings)
    (first : p.Entry) (more : List p.Entry) (hread : s.onDisk = .ok before)
    (hdefinitions : p.definitions key before = first :: more) :
    (tryOn (Action.edit p key).attempt s =
      tryOn (Attempt.fillIn p.catalog (p.form (some first)) (some key)) (readSettings.run s).2) ∧
    p.last? key before = some ((first :: more).getLast (by simp)) ∧
    ∀ (entry : p.Entry) (s₁ : Session) (now : Settings),
      tryOn (p.form (some first)) (readSettings.run s).2 = (.ok entry, s₁) →
      s₁.onDisk = .ok now → p.definitions key now ≠ [] → s₁.files.Writable s.store.path →
      (s.after (.edit p key)).files.YamlReadsBack s.store.path →
      ∃ written, (s.after (.edit p key)).onDisk = .ok written ∧
        p.last? (p.catalog.key entry) written = some entry ∧
        (key ≠ p.catalog.key entry →
          p.last? key written = (p.definitions key now).tail.getLast?) ∧
        ∀ k, k ≠ p.catalog.key entry → k ≠ key → p.last? k written = p.last? k now := by
  refine ⟨?_, ?_, ?_⟩
  · exact Update.tryOn_attempt (u := ⟨p, some key⟩) hread (initial?_of_definitions hdefinitions)
  · rw [p.last?_eq, hdefinitions, List.getLast?_eq_some_getLast]
  · intro entry s₁ now hform hnow hthere hwritable hback
    obtain ⟨written, hwritten, hleft⟩ :=
      edited_definitions hread hdefinitions hform hnow hthere hwritable hback
    refine ⟨written, hwritten, ?_, ?_, ?_⟩
    · rw [p.last?_eq, hleft, if_pos rfl]
      rfl
    · intro hne
      rw [p.last?_eq, hleft, if_neg hne, if_pos rfl]
    · intro k hk hkey
      rw [p.last?_eq, p.last?_eq, hleft, if_neg hk, if_neg hkey]

/-- A command gets another title, and the next one with the old title comes to light. -/
theorem edit_takes_first_command :
    let first : Command := { title := "t", command := "1" }
    let second : Command := { title := "t", command := "2" }
    let before : Settings := { commands := [first, second] }
    let s := alone before [.text "u", .text "3", .text "", .text "", .flag true]
    let entry : Command := { title := "u", command := "3" }
    ∃ s₁, (s.onDisk = .ok before ∧ Part.commands.definitions "t" before = [first, second] ∧
      tryOn (Form.commandForm (some first)) (readSettings.run s).2 = (.ok entry, s₁) ∧
      s₁.onDisk = .ok before ∧ s₁.files.Writable s.store.path) ∧
    ∃ written, (s.after (.edit .commands "t")).onDisk = .ok written ∧
      Command.last? written.commands "u" = some entry ∧
      Command.last? written.commands "t" = some second := by
  intro first second before s entry
  have hread : s.onDisk = .ok before := onDisk_alone _ (by decide +kernel)
  have hdefinitions : Part.commands.definitions "t" before = [first, second] := rfl
  obtain ⟨s₁, hform, hsame, hfiles⟩ := completed_after_reading (x := Form.commandForm (some first))
    (a := entry) s s fun es => ⟨rfl, rfl, rfl⟩
  have hnow : s₁.onDisk = .ok before := hsame.trans hread
  have hwritable : s₁.files.Writable s.store.path := hfiles ▸ writable_alone before _
  have hback : (s.after (.edit .commands "t")).files.YamlReadsBack s.store.path :=
    FileSystem.yamlReadsBack_of_json format_meanwhile _
  obtain ⟨-, -, hleft⟩ := edit_takes_first .commands "t" s before first [second] hread hdefinitions
  obtain ⟨written, hwritten, hentry, hold, -⟩ :=
    hleft entry s₁ before hform hnow (by rw [hdefinitions]; nofun) hwritable hback
  exact ⟨s₁, ⟨hread, hdefinitions, hform, hnow, hwritable⟩, written, hwritten, hentry, hold (by decide)⟩

/-- The value of the first variable is proposed, though that of the second one counts; and when
    the first one has got another name, the old name still stands for the second one. -/
theorem edit_shows_hidden :
    let first : Variable := { name := "a", value := "1" }
    let second : Variable := { name := "a", value := "2" }
    let before : Settings := { vars := [first, second] }
    let s := alone before [.text "b", .index 0, .text "3", .text ""]
    let dialog := Dialog.variableForm (some first)
    s.onDisk = .ok before ∧ Variable.last? before.vars "a" = some second ∧
    tryOn (Action.edit .vars "a").attempt s =
      tryOn (Attempt.fillIn Catalog.vars dialog.form (some "a")) (readSettings.run s).2 ∧
    (dialog.exchanges s).map (fun e => e.prompt.question) =
      [.text "Variable name" (some "a"), .select "Variable type" Variable.kinds 0,
        .text "Value" (some first.value), .text "Description (optional)" none] ∧
    ∃ written, (s.after (.edit .vars "a")).onDisk = .ok written ∧
      Variable.last? written.vars "b" = some { name := "b", value := "3" } ∧
      Variable.last? written.vars "a" = some second := by
  intro first second before s dialog
  have hread : s.onDisk = .ok before := onDisk_alone _ rfl
  have hdefinitions : Part.vars.definitions "a" before = [first, second] := rfl
  have hattempt := Update.tryOn_attempt (u := ⟨.vars, some "a"⟩) hread
    (initial?_of_definitions (p := .vars) hdefinitions)
  obtain ⟨s₁, hform, hsame, hfiles⟩ := completed_after_reading (x := Form.variableForm (some first))
    (a := { name := "b", value := "3" }) s s fun es => ⟨rfl, rfl, rfl⟩
  obtain ⟨written, hwritten, hleft⟩ := edited_definitions (p := .vars) hread hdefinitions hform
    (hsame.trans hread) (by rw [hdefinitions]; nofun) (hfiles ▸ writable_alone before _)
    (FileSystem.yamlReadsBack_of_json format_meanwhile _)
  have hlast : ∀ k, Variable.last? written.vars k = (Part.vars.definitions k written).getLast? :=
    fun k => Part.vars.last?_eq k written
  refine ⟨hread, rfl, ?_, rfl, written, hwritten, ?_, ?_⟩
  · rw [Dialog.form_variableForm]
    exact hattempt
  · rw [hlast, hleft]
    rfl
  · rw [hlast, hleft, hdefinitions]
    rfl

end CommandLauncher
