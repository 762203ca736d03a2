/-
  READING BACK — settings are read from a node that holds what they are written as.

  1. **Fields** — `Reads d leaf? shape place must may fs r r'` says that entries that hold the
     fields `fs` turn the record `r` into `r'`, where all names are among `may`, and those in
     `must` are there.  Fields in a row turn a record as one after the other does (`Reads.append`),
     so a record is read field by field.

  2. **Records** — variables, commands and settings are each a row of fields, the optional ones
     written only where they are present.  Each is read from a node that holds what it is written
     as, by every faithful dialect (`read_encode`).

  3. **Texts** — a JSON text holds what was printed.  So settings that are printed as JSON are read
     as the same settings, and so are those printed as YAML if their text holds what was printed
     too (`HeldInYaml`).
-/
import CommandLauncher.Proofs.NodeValues
import CommandLauncher.Settings.File

namespace CommandLauncher.Document

/-! ## Fields -/

section Fields

variable {α β γ : Type} {d : Dialect α} {leaf? : α → Option Value} {shape : RecordShape α β}
  {place : Place}

/-- Fields that turn one record into another. -/
def Reads (d : Dialect α) (leaf? : α → Option Value) (shape : RecordShape α β) (place : Place)
    (must may : List String) (fs : List (String × Value)) (r r' : β) : Prop :=
  ∀ entries rest seen, Node.fields? leaf? entries = some fs → (∀ n ∈ may, n ∉ seen) →
    ∃ now, (∀ n ∈ must, n ∈ now) ∧ (∀ n ∈ now, n ∈ may) ∧
      shape.readNamed d place true (entries ++ rest) seen r =
        shape.readNamed d place true rest (now ++ seen) r'

namespace Reads

variable {r r' r'' : β}

theorem nil (may : List String) : Reads d leaf? shape place [] may [] r r := by
  intro entries rest seen hentries _
  obtain rfl := Node.fields?_eq_nil hentries
  exact ⟨[], by simp, by simp, rfl⟩

/-- A field that need not be there. -/
theorem weaken {must may : List String} {fs : List (String × Value)}
    (h : Reads d leaf? shape place must may fs r r') : Reads d leaf? shape place [] may fs r r' := by
  intro entries rest seen hentries hseen
  obtain ⟨now, -, hmay, e⟩ := h entries rest seen hentries hseen
  exact ⟨now, by simp, hmay, e⟩

/-- A field of the shape. -/
theorem field (hd : d.Faithful leaf?) {name : String} {f : Field α β} {v : Value}
    (hf : shape.fields.find? (fun g => g.name = name) = some f)
    (hread : ∀ n : Node α, n.value? leaf? = some v →
      f.read place (place ++ [.field name]) n r = .ok r') :
    Reads d leaf? shape place [name] [name] [(name, v)] r r' := by
  intro entries rest seen hentries hseen
  obtain ⟨k, n, entries', rfl, hk, hn, hnil⟩ := Node.fields?_eq_cons hentries
  obtain rfl := Node.fields?_eq_nil hnil
  have hnew : name ∉ seen := hseen name List.mem_cons_self
  refine ⟨[name], fun n hn => hn, fun n hn => hn, ?_⟩
  rw [List.cons_append, RecordShape.readNamed, bind_of_ok (hd.readKey place place hk)]
  dsimp only
  rw [hf]
  dsimp only
  rw [if_neg hnew, bind_of_ok (hread n hn)]
  rfl

/-- A field that is written only if it is present; `put` says what it makes of the record. -/
theorem optional (hd : d.Faithful leaf?) {name : String} {f : Field α β} {write : γ → Value}
    (put : Option γ → β) {x : Option γ}
    (hf : shape.fields.find? (fun g => g.name = name) = some f)
    (hread : ∀ y (n : Node α), n.value? leaf? = some (write y) →
      f.read place (place ++ [.field name]) n (put none) = .ok (put (some y))) :
    Reads d leaf? shape place [] [name] (optionalField name (x.map write)) (put none) (put x) := by
  cases x with
  | none => exact nil _
  | some y => exact (field hd hf (hread y)).weaken

/-- Fields in a row. -/
theorem append {must may must' may' : List String} {fs gs : List (String × Value)}
    (h : Reads d leaf? shape place must may fs r r')
    (h' : Reads d leaf? shape place must' may' gs r' r'') (hnew : ∀ n ∈ may', n ∉ may) :
    Reads d leaf? shape place (must ++ must') (may ++ may') (fs ++ gs) r r'' := by
  intro entries rest seen hentries hseen
  obtain ⟨es, es', rfl, hes, hes'⟩ := Node.fields?_eq_append hentries
  obtain ⟨now, hmust, hmay, e⟩ := h es (es' ++ rest) seen hes fun n hn =>
    hseen n (List.mem_append_left _ hn)
  -- a name that was read before would be refused as a duplicate
  have hseen' : ∀ n ∈ may', n ∉ now ++ seen := fun n hn hm =>
    (List.mem_append.mp hm).elim (fun hm => hnew n hn (hmay n hm))
      (hseen n (List.mem_append_right _ hn))
  obtain ⟨now', hmust', hmay', e'⟩ := h' es' rest (now ++ seen) hes' hseen'
  refine ⟨now' ++ now, fun n hn => ?_, fun n hn => ?_, ?_⟩
  · rcases List.mem_append.mp hn with hn | hn
    · exact List.mem_append_right _ (hmust n hn)
    · exact List.mem_append_left _ (hmust' n hn)
  · rcases List.mem_append.mp hn with hn | hn
    · exact List.mem_append_right _ (hmay' n hn)
    · exact List.mem_append_left _ (hmay n hn)
  · rw [List.append_assoc, e, e', List.append_assoc]

/-- A record is read from fields among which are all required ones. -/
theorem read (hd : d.Faithful leaf?) {must may : List String} {fs : List (String × Value)}
    {record : Place} {n : Node α} (h : Reads d leaf? shape place must may fs shape.blank r)
    (hn : n.value? leaf? = some (.record fs)) (required : List String)
    (hrequired : (shape.fields.filter Field.required).map Field.name = required)
    (hmust : ∀ n ∈ required, n ∈ must) :
    shape.read d record place n = .ok r := by
  obtain ⟨entries, rfl, hentries⟩ := hd.mapping_of_value hn
  obtain ⟨now, hnow, -, e⟩ := h entries [] [] hentries (by simp)
  rw [List.append_nil, List.append_nil] at e
  have hall : shape.fields.find? (fun f => f.required && !now.contains f.name) = none := by
    refine none_missing fun f hf hreq => ?_
    have hname : f.name ∈ required :=
      hrequired ▸ List.mem_map_of_mem (List.mem_filter.mpr ⟨hf, hreq⟩)
    exact hnow _ (hmust _ hname)
  have hread : shape.readNamed d place true entries [] shape.blank = .ok (now, r) := e
  rw [RecordShape.read, bind_of_ok (located_of_ok (hd.parts shape.title entries) record place)]
  dsimp only
  rw [bind_of_ok hread]
  dsimp only
  rw [hall]

end Reads

end Fields

end CommandLauncher.Document

namespace CommandLauncher

open Document

/-! ## Records -/

section Records

variable {α : Type} {d : Dialect α} {leaf? : α → Option Value} (hd : d.Faithful leaf?)
  (record place : Place) {n : Node α}

include hd

/-- A variable is read from a node that holds what it is written as. -/
theorem Variable.read_encode (v : Variable) (h : n.value? leaf? = some v.encode) :
    (Variable.shape d).read d record place n = .ok v := by
  obtain ⟨name, value, description, options⟩ := v
  have hname : Reads d leaf? (Variable.shape d) place ["name"] ["name"] [("name", .text name)]
      { name := "" } { name } :=
    Reads.field hd rfl fun _ hn => bind_of_ok (hd.readText _ _ hn) _
  have hvalue : Reads d leaf? (Variable.shape d) place ["value"] ["value"]
      [("value", .text value)] { name } { name, value } :=
    Reads.field hd rfl fun _ hn => bind_of_ok (hd.readText _ _ hn) _
  have hdescription : Reads d leaf? (Variable.shape d) place [] ["description"]
      (optionalField "description" (description.map .text))
      { name, value } { name, value, description } :=
    Reads.optional hd (Variable.mk name value · none) rfl fun _ _ hn =>
      bind_of_ok (hd.readOptionalText _ _ hn) _
  have hoptions : Reads d leaf? (Variable.shape d) place [] ["options"]
      (optionalField "options" (options.map .texts))
      { name, value, description } { name, value, description, options } :=
    Reads.optional hd (Variable.mk name value description) rfl fun _ _ hn =>
      bind_of_ok (hd.readOptionalList _ _ (fun r p _ _ => hd.readText r p) hn) _
  exact (((hname.append hvalue (by decide)).append hdescription (by decide)).append hoptions
    (by decide)).read hd h ["name"] rfl (by decide)

/-- A command is read from a node that holds what it is written as. -/
theorem Command.read_encode (c : Command) (h : n.value? leaf? = some c.encode) :
    (Command.shape d).read d record place n = .ok c := by
  obtain ⟨title, command, group, description, icon, iconColor, sendNewLine⟩ := c
  have htitle : Reads d leaf? (Command.shape d) place ["title"] ["title"]
      [("title", .text title)] { title := "", command := "" } { title, command := "" } :=
    Reads.field hd rfl fun _ hn => bind_of_ok (hd.readText _ _ hn) _
  have hcommand : Reads d leaf? (Command.shape d) place ["command"] ["command"]
      [("command", .text command)] { title, command := "" } { title, command } :=
    Reads.field hd rfl fun _ hn => bind_of_ok (hd.readText _ _ hn) _
  have hgroup : Reads d leaf? (Command.shape d) place [] ["group"]
      (optionalField "group" (group.map .text)) { title, command } { title, command, group } :=
    Reads.optional hd (Command.mk title command · none none none none) rfl fun _ _ hn =>
      bind_of_ok (hd.readOptionalText _ _ hn) _
  have hdescription : Reads d leaf? (Command.shape d) place [] ["description"]
      (optionalField "description" (description.map .text))
      { title, command, group } { title, command, group, description } :=
    Reads.optional hd (Command.mk title command group · none none none) rfl fun _ _ hn =>
      bind_of_ok (hd.readOptionalText _ _ hn) _
  have hicon : Reads d leaf? (Command.shape d) place [] ["icon"]
      (optionalField "icon" (icon.map .text))
      { title, command, group, description } { title, command, group, description, icon } :=
    Reads.optional hd (Command.mk title command group description · none none) rfl fun _ _ hn =>
      bind_of_ok (hd.readOptionalText _ _ hn) _
  have hiconColor : Reads d leaf? (Command.shape d) place [] ["iconColor"]
      (optionalField "iconColor" (iconColor.map .text))
      { title, command, group, description, icon }
      { title, command, group, description, icon, iconColor } :=
    Reads.optional hd (Command.mk title command group description icon · none) rfl fun _ _ hn =>
      bind_of_ok (hd.readOptionalText _ _ hn) _
  have hsendNewLine : Reads d leaf? (Command.shape d) place [] ["sendNewLine"]
      (optionalField "sendNewLine" (sendNewLine.map .flag))
      { title, command, group, description, icon, iconColor }
      { title, command, group, description, icon, iconColor, sendNewLine } :=
    Reads.optional hd (Command.mk title command group description icon iconColor) rfl fun _ _ hn =>
      bind_of_ok (hd.readOptionalFlag _ _ hn) _
  exact ((((((htitle.append hcommand (by decide)).append hgroup (by decide)).append hdescription
    (by decide)).append hicon (by decide)).append hiconColor (by decide)).append hsendNewLine
    (by decide)).read hd h ["title", "command"] rfl (by decide)

/-- Settings are read from a node that holds what they are written as. -/
theorem Settings.read_encode (s : Settings) (h : n.value? leaf? = some s.encode) :
    (Settings.shape d).read d [] [] n = .ok s := by
  obtain ⟨sortOrder, commandIconColor, sendNewLine, shell, vars, commands⟩ := s
  have hsortOrder : Reads d leaf? (Settings.shape d) [] ["sortOrder"] ["sortOrder"]
      [("sortOrder", .text sortOrder.name)] {} { sortOrder } := by
    have hword : SortOrder.ofName? sortOrder.name = some sortOrder := SortOrder.ofName?_name sortOrder
    exact Reads.field hd rfl fun _ hn => bind_of_ok (hd.readWord _ _ hn hword) _
  have hcommandIconColor : Reads d leaf? (Settings.shape d) [] [] ["commandIconColor"]
      (if commandIconColor = "" then [] else [("commandIconColor", .text commandIconColor)])
      { sortOrder } { sortOrder, commandIconColor } := by
    split
    · -- without a colour the field is left out, and blank settings have none
      subst_vars
      exact Reads.nil _
    · exact (Reads.field hd rfl fun _ hn => bind_of_ok (hd.readText _ _ hn) _).weaken
  have hsendNewLine : Reads d leaf? (Settings.shape d) [] [] ["sendNewLine"]
      (optionalField "sendNewLine" (sendNewLine.map .flag))
      { sortOrder, commandIconColor } { sortOrder, commandIconColor, sendNewLine } :=
    Reads.optional hd (Settings.mk sortOrder commandIconColor · none [] []) rfl fun _ _ hn =>
      bind_of_ok (hd.readOptionalFlag _ _ hn) _
  have hshell : Reads d leaf? (Settings.shape d) [] [] ["shell"]
      (optionalField "shell" (shell.map .text)) { sortOrder, commandIconColor, sendNewLine }
      { sortOrder, commandIconColor, sendNewLine, shell } :=
    Reads.optional hd (Settings.mk sortOrder commandIconColor sendNewLine · [] []) rfl fun _ _ hn =>
      bind_of_ok (hd.readOptionalText _ _ hn) _
  have hvars : Reads d leaf? (Settings.shape d) [] ["variables"] ["variables"]
      [("variables", .list (vars.map Variable.encode))]
      { sortOrder, commandIconColor, sendNewLine, shell }
      { sortOrder, commandIconColor, sendNewLine, shell, vars } :=
    Reads.field hd rfl fun _ hn =>
      bind_of_ok (hd.readList _ _ (fun r p v _ => Variable.read_encode hd r p v) hn) _
  have hcommands : Reads d leaf? (Settings.shape d) [] ["commands"] ["commands"]
      [("commands", .list (commands.map Command.encode))]
      { sortOrder, commandIconColor, sendNewLine, shell, vars }
      { sortOrder, commandIconColor, sendNewLine, shell, vars, commands } :=
    Reads.field hd rfl fun _ hn =>
      bind_of_ok (hd.readList _ _ (fun r p c _ => Command.read_encode hd r p c) hn) _
  have hlists := hvars.append hcommands (by decide)
  exact ((((hsortOrder.append hcommandIconColor (by decide)).append hsendNewLine
    (by decide)).append hshell (by decide)).append hlists (by decide)).read hd h [] rfl (by decide)

end Records

/-! ## Texts -/

/-! ### Plain values -/

theorem isPlain_text (s : String) : (Value.text s).isPlain = true := by rw [Value.isPlain]

theorem isPlain_flag (b : Bool) : (Value.flag b).isPlain = true := by rw [Value.isPlain]

theorem isPlain_texts (xs : List String) : (Value.texts xs).isPlain = true := by
  rw [Value.texts, Value.isPlain]
  exact Value.arePlain_map isPlain_text xs

/-- A field that may be left out is plain if what it is written as is. -/
theorem arePlainFields_optionalField {γ : Type} {write : γ → Value}
    (h : ∀ y, (write y).isPlain = true) (name : String) (x : Option γ) :
    Value.arePlainFields (optionalField name (x.map write)) = true := by
  cases x with
  | none => rfl
  | some y =>
    show Value.arePlainFields [(name, write y)] = true
    rw [Value.arePlainFields, h, Value.arePlainFields, Bool.and_self]

theorem Variable.isPlain_encode (v : Variable) : v.encode.isPlain = true := by
  rw [Variable.encode, Value.isPlain]
  simp only [Value.arePlainFields_append, arePlainFields_optionalField isPlain_text,
    arePlainFields_optionalField isPlain_texts, Value.arePlainFields, isPlain_text, Bool.and_self]

theorem Command.isPlain_encode (c : Command) : c.encode.isPlain = true := by
  rw [Command.encode, Value.isPlain]
  simp only [Value.arePlainFields_append, arePlainFields_optionalField isPlain_text,
    arePlainFields_optionalField isPlain_flag, Value.arePlainFields, isPlain_text, Bool.and_self]

theorem Settings.isPlain_encode (s : Settings) : s.encode.isPlain = true := by
  have hcolor : Value.arePlainFields
      (if s.commandIconColor = "" then [] else [("commandIconColor", .text s.commandIconColor)]) =
        true := by
    split <;> simp only [Value.arePlainFields, isPlain_text, Bool.and_self]
  have hvars : (Value.list (s.vars.map Variable.encode)).isPlain = true := by
    rw [Value.isPlain]
    exact Value.arePlain_map Variable.isPlain_encode s.vars
  have hcommands : (Value.list (s.commands.map Command.encode)).isPlain = true := by
    rw [Value.isPlain]
    exact Value.arePlain_map Command.isPlain_encode s.commands
  rw [Settings.encode, Value.isPlain]
  simp only [Value.arePlainFields_append, arePlainFields_optionalField isPlain_text,
    arePlainFields_optionalField isPlain_flag, Value.arePlainFields, isPlain_text, hcolor, hvars,
    hcommands, Bool.and_self]

/-! ### Texts of settings -/

/-- The text of a value in YAML is a document that holds the same value. -/
def Document.Value.HeldInYaml (v : Value) : Prop :=
  let reading := Yaml.Reading.ofText v.toYaml
  reading.sound = true ∧ reading.root.value? Yaml.Leaf.value? = some v

namespace Settings

/-- Settings are written as a record of which the order is the first field. -/
theorem encode_eq (s : Settings) :
    ∃ fs, s.encode = .record (("sortOrder", .text s.sortOrder.name) :: fs) := ⟨_, rfl⟩

/-- A text that starts with something is not blank. -/
theorem isBlankText_of_head? {text : String} {c : Char} (h : text.toList.head? = some c)
    (hc : Text.isBlank c = false) : Text.isBlankText text = false := by
  refine Bool.eq_false_iff.mpr fun hblank => ?_
  have hblankStart := Text.isBlankText_iff.mp hblank c (List.mem_of_mem_head? h)
  rw [hc] at hblankStart
  cases hblankStart

-- a document of blanks would be read as no settings at all
theorem isBlankText_print_json (s : Settings) : Text.isBlankText (s.print .json) = false := by
  have hstart : (s.print .json).toList.head? = some '{' := by
    obtain ⟨fs, hfs⟩ := s.encode_eq
    rw [print, Value.toJson, String.toList_append, String.toList_ofList, hfs, Value.print]
    rfl
  exact isBlankText_of_head? hstart (by decide)

theorem isBlankText_print_yaml (s : Settings) : Text.isBlankText (s.print .yaml) = false := by
  have hstart : (s.print .yaml).toList.head? = some 's' := by
    obtain ⟨fs, hfs⟩ := s.encode_eq
    rw [print, Value.toYaml, String.toList_ofList, hfs, Value.blockItem, Value.blockField]
    rfl
  exact isBlankText_of_head? hstart (by decide)

/-- **Settings that are printed as JSON are read as the same settings.** -/
theorem parse_print_json (s : Settings) : parse .json (s.print .json) = .ok s := by
  have hlayout : Json.Scans ("\n" : String).toList [] := Json.Scans.space (by decide) Json.Scans.nil
  have hreading := Value.reading_toJson s.isPlain_encode "\n" hlayout
  have hread := s.read_encode Json.dialect_faithful (Value.value?_node s.encode s.isPlain_encode)
  rw [parse, isBlankText_print_json, print]
  show Json.readRecord (shape Json.dialect) (s.encode.toJson ++ "\n") = .ok s
  rw [Json.readRecord, hreading]
  exact bind_of_ok hread _

/-- **Settings that are printed as YAML are read as the same settings** if their text holds what
    was printed. -/
theorem parse_print_yaml {s : Settings} (h : s.encode.HeldInYaml) :
    parse .yaml (s.print .yaml) = .ok s := by
  obtain ⟨hsound, hroot⟩ := h
  have hread := s.read_encode (Yaml.dialect_faithful (Yaml.Reading.ofText s.encode.toYaml).table) hroot
  rw [parse, isBlankText_print_yaml, print]
  show Yaml.readRecord shape s.encode.toYaml = .ok s
  rw [Yaml.readRecord, bind_of_ok hread, hsound]
  rfl

end Settings

end CommandLauncher
