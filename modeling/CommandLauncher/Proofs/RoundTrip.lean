/-
  ROUND TRIP — what is saved is loaded.

  1. **Values** — whether two values are the same can be computed, and so can whether the YAML text
     of a value holds it.

  2. **Saving** — what is saved is in the file afterwards.  A save that fails is the file's doing:
     nothing at all can be written to it then.

  3. **Loading** — settings can be loaded if every command has a title and a text to run, so these
     are the settings whose round trip is asked for (`Settings.load_save`).  Their text reads as
     them: always if it is JSON, and in YAML if the text holds what was printed.
-/
import CommandLauncher.Proofs.Rewriting

namespace CommandLauncher

/-! ## Values -/

namespace Document.Value

mutual

/-- Whether two values are the same. -/
def same : Value → Value → Bool
  | .null, .null => true
  | .flag b, .flag b' => b == b'
  | .number l, .number l' => l == l'
  | .text s, .text s' => s == s'
  | .list vs, .list vs' => sameItems vs vs'
  | .record fs, .record fs' => sameFields fs fs'
  | _, _ => false

/-- Whether two lists have the same items. -/
def sameItems : List Value → List Value → Bool
  | [], [] => true
  | v :: vs, v' :: vs' => v.same v' && sameItems vs vs'
  | _, _ => false

/-- Whether two records have the same fields. -/
def sameFields : List (String × Value) → List (String × Value) → Bool
  | [], [] => true
  | (name, v) :: fs, (name', v') :: fs' => name == name' && v.same v' && sameFields fs fs'
  | _, _ => false

end

mutual

theorem same_iff : ∀ v w : Value, v.same w = true ↔ v = w
  | .null, w => by cases w <;> simp [same]
  | .flag b, w => by cases w <;> simp [same]
  | .number l, w => by cases w <;> simp [same]
  | .text s, w => by cases w <;> simp [same]
  | .list vs, w => by cases w <;> simp [same, sameItems_iff vs]
  | .record fs, w => by cases w <;> simp [same, sameFields_iff fs]

theorem sameItems_iff : ∀ vs ws : List Value, sameItems vs ws = true ↔ vs = ws
  | [], ws => by cases ws <;> simp [sameItems]
  | v :: vs, ws => by cases ws <;> simp [sameItems, same_iff v, sameItems_iff vs]

theorem sameFields_iff : ∀ fs gs : List (String × Value), sameFields fs gs = true ↔ fs = gs
  | [], gs => by cases gs <;> simp [sameFields]
  | (name, v) :: fs, [] => by simp [sameFields]
  | (name, v) :: fs, (name', v') :: gs => by simp [sameFields, same_iff v, sameFields_iff fs]

end

instance : DecidableEq Value := fun v w => decidable_of_iff (v.same w = true) (same_iff v w)

instance (v : Value) : Decidable v.HeldInYaml :=
  inferInstanceAs (Decidable ((Yaml.Reading.ofText v.toYaml).sound = true ∧
    (Yaml.Reading.ofText v.toYaml).root.value? Yaml.Leaf.value? = some v))

end Document.Value

/-! ## Saving and loading -/

namespace Settings

variable {s : Settings} {fs : FileSystem} {path : String}

/-- **Settings that are saved are loaded as the same settings**, and they are saved wherever
    anything can be written. -/
theorem load_save
    (hcommands : ∀ c ∈ s.commands,
      Text.isBlankText c.title = false ∧ Text.isBlankText c.command = false)
    (hyaml : Format.ofPath path = .yaml → s.encode.HeldInYaml) :
    (∀ saved, s.save fs path = .ok saved → load saved path = (.ok s, s.remarks)) ∧
      ∀ e, s.save fs path = .error e →
        ∃ cause, e = .unwritable path cause ∧ ∀ c, fs.write path c = .error cause := by
  refine ⟨fun saved hsave => ?_, fun e hsave => save_eq_error hsave⟩
  have hback : s.ReadsBack (Format.ofPath path) :=
    readsBack_of_yaml fun hformat => parse_print_yaml (hyaml hformat)
  rw [load, readText?_save hsave]
  exact accept_of_parse hback (problem?_eq_none_iff.mpr hcommands)

/-- Settings in which empty stands next to absent, and a name comes twice. -/
def sparse : Settings where
  sendNewLine := some false
  vars := [{ name := "é", description := some "", options := some [] }, { name := "é" }]
  commands := [{ title := "-", command := "#" }]

/-- They come back from a JSON file and from a YAML file. -/
theorem load_save_sparse :
    (∃ saved, sparse.save {} "s.json" = .ok saved ∧ (load saved "s.json").1 = .ok sparse) ∧
      ∃ saved, sparse.save {} "s.yaml" = .ok saved ∧ (load saved "s.yaml").1 = .ok sparse := by
  have hcommands : ∀ c ∈ sparse.commands,
      Text.isBlankText c.title = false ∧ Text.isBlankText c.command = false := by decide +kernel
  have hheld : sparse.encode.HeldInYaml := by decide +kernel
  have hback : ∀ path, (sparse.save {} path).isOk = true →
      ∃ saved, sparse.save {} path = .ok saved ∧ (load saved path).1 = .ok sparse := by
    intro path hok
    cases hsave : sparse.save {} path with
    | error e =>
      rw [hsave] at hok
      cases hok
    | ok saved =>
      have hload := (load_save hcommands fun _ => hheld).1 saved hsave
      exact ⟨saved, rfl, congrArg Prod.fst hload⟩
  exact ⟨hback "s.json" (by decide +kernel), hback "s.yaml" (by decide +kernel)⟩

end Settings

end CommandLauncher
