/-
  CONFORMING — the published schema and the loader are about the same documents.

  1. **Reading** — the loader of the settings agrees with their schema, since its fields agree with
     the properties (`Settings.agrees`).

  2. **Writing** — the other way round, the settings are written as their schema says, field by
     field (`Settings.written_encode`).

  3. **Texts** — what a JSON text holds is a value, numbers included (`Json.Holds`).  JSON is read
     as what it holds, and a text of settings holds what was written.

  4. **Together** — `schema_agrees` says both of texts and of the published document.
-/
import CommandLauncher.Proofs.Agreeing
import CommandLauncher.Proofs.Published

namespace CommandLauncher

open Document

/-! ## Reading -/

section Shapes

variable {α : Type} {d : Dialect α} {leaf? : α → Option Value} {named : String → Value → Bool}
  (hd : d.Faithful leaf?) (hnull : ∀ a, leaf? a = some .null → d.isAbsent (.leaf a) = .ok true)

include hd

/-- An order is read from one of the words for it. -/
theorem SortOrder.agrees : Agrees leaf? named SortOrder.schema
    (d.readWord (SortOrder.all.map SortOrder.name) SortOrder.ofName?) := by
  refine Agrees.word hd fun v hv => ?_
  cases v with
  | text s =>
    by_cases hsettings : s = SortOrder.settings.name
    · exact ⟨s, .settings, rfl, hsettings ▸ SortOrder.ofName?_name .settings⟩
    by_cases halphabetical : s = SortOrder.alphabetical.name
    · exact ⟨s, .alphabetical, rfl, halphabetical ▸ SortOrder.ofName?_name .alphabetical⟩
    -- any other text satisfies neither of the two schemas
    simp [SortOrder.schema, Schema.accepts, Schema.countAccepting, hsettings, halphabetical] at hv
  | _ => cases hv

include hnull

/-- Variables are read as their schema says. -/
theorem Variable.agrees : Agrees leaf? named Variable.schema ((Variable.shape d).read d) := by
  have htext : Agrees leaf? named (.ofKind [.string]) d.readText := Agrees.text hd
  have hoptional : Agrees leaf? named optionalText (d.readOptional d.readText) :=
    Agrees.optionalText hd hnull
  have hoptions := Agrees.optionalList hd hnull htext
  refine (Agrees.record hd ?_ ?_).described _
  · simp only [Variable.shape, List.forall_mem_cons, List.not_mem_nil, false_implies, implies_true,
      and_true]
    refine ⟨⟨_, .tail _ (.head _), fun x => (htext.described _).map _⟩,
      ⟨_, .tail _ (.tail _ (.tail _ (.head _))),
        fun x => ((htext.withDefault _).described _).map _⟩,
      ⟨_, .head _, fun x => hoptional.map _⟩,
      ⟨_, .tail _ (.tail _ (.head _)), fun x => (hoptions.described _).map _⟩⟩
  · simp [Variable.shape]

/-- Commands are read as their schema says. -/
theorem Command.agrees : Agrees leaf? named Command.schema ((Command.shape d).read d) := by
  have htext : Agrees leaf? named (.ofKind [.string]) d.readText := Agrees.text hd
  have hoptional : Agrees leaf? named optionalText (d.readOptional d.readText) :=
    Agrees.optionalText hd hnull
  have hflag : Agrees leaf? named optionalFlag (d.readOptional d.readFlag) :=
    Agrees.optionalFlag hd hnull
  refine (Agrees.record hd ?_ ?_).described _
  · simp only [Command.shape, List.forall_mem_cons, List.not_mem_nil, false_implies, implies_true,
      and_true]
    exact ⟨⟨_, .tail _ (.tail _ (.tail _ (.tail _ (.tail _ (.tail _ (.head _)))))),
        fun x => (htext.described _).map _⟩,
      ⟨_, .head _, fun x => (htext.described _).map _⟩,
      ⟨_, .tail _ (.tail _ (.head _)), fun x => (hoptional.described _).map _⟩,
      ⟨_, .tail _ (.head _), fun x => hoptional.map _⟩,
      ⟨_, .tail _ (.tail _ (.tail _ (.head _))), fun x => hoptional.map _⟩,
      ⟨_, .tail _ (.tail _ (.tail _ (.tail _ (.head _)))),
        fun x => (hoptional.described _).map _⟩,
      ⟨_, .tail _ (.tail _ (.tail _ (.tail _ (.tail _ (.head _))))),
        fun x => (hflag.described _).map _⟩⟩
  · simp [Command.shape]

omit hnull
omit hd

/-- What names stand for in the settings schema. -/
theorem Settings.schema_named_sortOrder (v : Value) :
    schema.named "SortOrder" v = SortOrder.schema.accepts (fun _ _ => false) v := rfl

theorem Settings.schema_named_variable (v : Value) :
    schema.named "VariableDefinition" v = Variable.schema.accepts (fun _ _ => false) v := rfl

theorem Settings.schema_named_command (v : Value) :
    schema.named "CommandDefinition" v = Command.schema.accepts (fun _ _ => false) v := rfl

include hd hnull

/-- **The loader of the settings** agrees with their schema. -/
theorem Settings.agrees (v : Value) {n : Node α} (hn : n.value? leaf? = some v)
    (hv : schema.accepts v = true) : Fits v ((shape d).read d [] [] n) := by
  have hagrees : Agrees leaf? schema.named schema.body ((shape d).read d) := by
    have htext : Agrees leaf? schema.named (.ofKind [.string]) d.readText := Agrees.text hd
    have hoptional : Agrees leaf? schema.named optionalText (d.readOptional d.readText) :=
      Agrees.optionalText hd hnull
    have hflag : Agrees leaf? schema.named optionalFlag (d.readOptional d.readFlag) :=
      Agrees.optionalFlag hd hnull
    -- the definitions refer to nothing, so they are read whatever names stand for
    have horder : Agrees leaf? schema.named (.reference "SortOrder")
        (d.readWord (SortOrder.all.map SortOrder.name) SortOrder.ofName?) :=
      Agrees.reference (SortOrder.agrees hd) schema_named_sortOrder
    have hvariables := (Agrees.reference (Variable.agrees hd hnull) schema_named_variable).list hd
    have hcommands := (Agrees.reference (Command.agrees hd hnull) schema_named_command).list hd
    refine Agrees.record hd ?_ ?_
    · simp only [shape, List.forall_mem_cons, List.not_mem_nil, false_implies, implies_true,
        and_true]
      exact ⟨⟨_, .tail _ (.tail _ (.tail _ (.tail _ (.head _)))),
          fun x => ((horder.withDefault _).described _).map _⟩,
        ⟨_, .head _, fun x => (htext.described _).map _⟩,
        ⟨_, .tail _ (.tail _ (.head _)), fun x => (hflag.described _).map _⟩,
        ⟨_, .tail _ (.tail _ (.tail _ (.head _))), fun x => (hoptional.described _).map _⟩,
        ⟨_, .tail _ (.tail _ (.tail _ (.tail _ (.tail _ (.head _))))),
          fun x => (hvariables.withDefault _).map _⟩,
        ⟨_, .tail _ (.head _), fun x => (hcommands.withDefault _).map _⟩⟩
    · simp [shape]
  exact hagrees [] [] n v hn hv

end Shapes

/-! ## Writing -/

section Encoding

variable (named : String → Value → Bool)

theorem Variable.written_encode (v : Variable) : Written named schema v.encode := by
  have hnames : (schema.properties.map Prod.fst).Nodup := by decide
  have hname : Conform named schema.properties ["name"] [("name", .text v.name)] :=
    .field hnames (.tail _ (.head _)) ⟨rfl, rfl⟩
  have hvalue : Conform named schema.properties ["value"] [("value", .text v.value)] :=
    .field hnames (.tail _ (.tail _ (.tail _ (.head _)))) ⟨rfl, rfl⟩
  have hdescription : Conform named schema.properties ["description"]
      (optionalField "description" (v.description.map .text)) :=
    .optional hnames (.head _) .optionalText _
  have hoptions : Conform named schema.properties ["options"]
      (optionalField "options" (v.options.map .texts)) :=
    .optional hnames (.tail _ (.tail _ (.head _))) (fun xs => (Written.texts xs).described _) _
  have hfields := ((hname.append hvalue).append hdescription).append hoptions
  exact (hfields.record (by decide) (by simp)).described _

theorem Command.written_encode (c : Command) : Written named schema c.encode := by
  have hnames : (schema.properties.map Prod.fst).Nodup := by decide
  have htitle : Conform named schema.properties ["title"] [("title", .text c.title)] :=
    .field hnames (.tail _ (.tail _ (.tail _ (.tail _ (.tail _ (.tail _ (.head _))))))) ⟨rfl, rfl⟩
  have hcommand : Conform named schema.properties ["command"] [("command", .text c.command)] :=
    .field hnames (.head _) ⟨rfl, rfl⟩
  have hgroup : Conform named schema.properties ["group"]
      (optionalField "group" (c.group.map .text)) :=
    .optional hnames (.tail _ (.tail _ (.head _))) (fun s => (Written.optionalText s).described _) _
  have hdescription : Conform named schema.properties ["description"]
      (optionalField "description" (c.description.map .text)) :=
    .optional hnames (.tail _ (.head _)) .optionalText _
  have hicon : Conform named schema.properties ["icon"]
      (optionalField "icon" (c.icon.map .text)) :=
    .optional hnames (.tail _ (.tail _ (.tail _ (.head _)))) .optionalText _
  have hiconColor : Conform named schema.properties ["iconColor"]
      (optionalField "iconColor" (c.iconColor.map .text)) :=
    .optional hnames (.tail _ (.tail _ (.tail _ (.tail _ (.head _)))))
      (fun s => (Written.optionalText s).described _) _
  have hsendNewLine : Conform named schema.properties ["sendNewLine"]
      (optionalField "sendNewLine" (c.sendNewLine.map .flag)) :=
    .optional hnames (.tail _ (.tail _ (.tail _ (.tail _ (.tail _ (.head _))))))
      (fun b => (Written.optionalFlag b).described _) _
  have hfields := (((((htitle.append hcommand).append hgroup).append hdescription).append
    hicon).append hiconColor).append hsendNewLine
  exact (hfields.record (by decide) (by simp)).described _

end Encoding

/-- **Settings are written** as their schema says, and no name comes twice in them. -/
theorem Settings.written_encode (s : Settings) :
    schema.accepts s.encode = true ∧ s.encode.namesOnce = true := by
  have hnames : (schema.body.properties.map Prod.fst).Nodup := by decide
  have hsortOrder : Conform schema.named schema.body.properties ["sortOrder"]
      [("sortOrder", .text s.sortOrder.name)] := by
    refine .field hnames (.tail _ (.tail _ (.tail _ (.tail _ (.head _))))) ⟨?_, rfl⟩
    show schema.named "SortOrder" (.text s.sortOrder.name) = true
    cases s.sortOrder <;> decide
  have hcommandIconColor : Conform schema.named schema.body.properties ["commandIconColor"]
      (if s.commandIconColor = "" then []
        else [("commandIconColor", .text s.commandIconColor)]) := by
    split
    · exact .nil _
    · exact .field hnames (.head _) ⟨rfl, rfl⟩
  have hsendNewLine : Conform schema.named schema.body.properties ["sendNewLine"]
      (optionalField "sendNewLine" (s.sendNewLine.map .flag)) :=
    .optional hnames (.tail _ (.tail _ (.head _)))
      (fun b => (Written.optionalFlag b).described _) _
  have hshell : Conform schema.named schema.body.properties ["shell"]
      (optionalField "shell" (s.shell.map .text)) :=
    .optional hnames (.tail _ (.tail _ (.tail _ (.head _))))
      (fun s => (Written.optionalText s).described _) _
  have hvariables : Conform schema.named schema.body.properties ["variables"]
      [("variables", .list (s.vars.map Variable.encode))] :=
    .field hnames (.tail _ (.tail _ (.tail _ (.tail _ (.tail _ (.head _))))))
      ((Written.list (fun v => (v.written_encode _).reference schema_named_variable) _).withDefault
        _)
  have hcommands : Conform schema.named schema.body.properties ["commands"]
      [("commands", .list (s.commands.map Command.encode))] :=
    .field hnames (.tail _ (.head _))
      ((Written.list (fun c => (c.written_encode _).reference schema_named_command) _).withDefault
        _)
  have hfields := (((hsortOrder.append hcommandIconColor).append hsendNewLine).append
    hshell).append (hvariables.append hcommands)
  exact hfields.record (by decide) nofun

/-! ## Texts -/

namespace Document

namespace Json

/-- A number as it is written, but with a small `e` and without a plus. -/
def Literal.spelled (l : Literal) : String :=
  String.ofList <|
    (if l.negative then ['-'] else []) ++ l.whole ++
    (if l.fraction = [] then [] else '.' :: l.fraction) ++
    match l.exponent with
    | none => []
    | some (down, digits) => 'e' :: (if down then ['-'] else []) ++ digits

/-- What a JSON leaf holds; a string with half a surrogate pair holds nothing. -/
def Leaf.content? : Leaf → Option Value
  | number l => some (.number l.spelled)
  | a => a.value?

/-- The text is a JSON document with a value. -/
def Holds (text : String) (v : Value) : Prop :=
  (Reading.ofText text).sound = true ∧ (Reading.ofText text).root.value? Leaf.content? = some v

instance (text : String) (v : Value) : Decidable (Holds text v) :=
  inferInstanceAs (Decidable (_ ∧ _))

theorem Leaf.content?_eq_some {a : Leaf} {v : Value} (h : a.content? = some v) :
    (∃ l, a = .number l ∧ v = .number l.spelled) ∨ a.value? = some v := by
  cases a with
  | number l => exact .inl ⟨l, rfl, (Option.some.inj h).symm⟩
  | _ => exact .inr h

theorem Leaf.content?_of_value {a : Leaf} {v : Value} (h : a.value? = some v) :
    a.content? = some v := by
  cases a with
  | number l => cases h
  | _ => exact h

/-- JSON is read as what it holds. -/
theorem dialect_faithful_content : dialect.Faithful Leaf.content? where
  text h := by
    obtain ⟨l, -, hv⟩ | h := Leaf.content?_eq_some h
    · cases hv
    · exact dialect_faithful.text h
  flag h := by
    obtain ⟨l, -, hv⟩ | h := Leaf.content?_eq_some h
    · cases hv
    · exact dialect_faithful.flag h
  key h := by
    obtain ⟨l, -, hv⟩ | h := Leaf.content?_eq_some h
    · cases hv
    · exact dialect_faithful.key h
  word h := by
    obtain ⟨l, -, hv⟩ | h := Leaf.content?_eq_some h
    · cases hv
    · exact dialect_faithful.word h
  present h hv := by
    obtain ⟨l, rfl, -⟩ | h := Leaf.content?_eq_some h
    · rfl
    · exact dialect_faithful.present h hv
  sequencePresent := dialect_faithful.sequencePresent
  items := dialect_faithful.items
  parts := dialect_faithful.parts
  scalar h := by
    obtain ⟨l, -, rfl⟩ | h := Leaf.content?_eq_some h
    · rfl
    · exact dialect_faithful.scalar h

/-- Null is taken for left out. -/
theorem isAbsent_null {a : Leaf} (h : a.content? = some .null) :
    dialect.isAbsent (.leaf a) = .ok true := by
  cases a with
  | null => rfl
  | _ => cases h

end Json

namespace Node

variable {α : Type} {leaf? leaf?' : α → Option Value}

mutual
/-- A node holds the same value if its leaves do. -/
theorem value?_mono (hleaf : ∀ a v, leaf? a = some v → leaf?' a = some v) :
    ∀ (n : Node α) (v : Value), n.value? leaf? = some v → n.value? leaf?' = some v
  | .leaf a, v, h => hleaf a v h
  | .sequence items true, v, h => by
    obtain ⟨vs, hvs, rfl⟩ := Option.map_eq_some_iff.mp h
    rw [value?, values?_mono hleaf items vs hvs]
    rfl
  | .mapping entries true, v, h => by
    obtain ⟨fs, hfs, rfl⟩ := Option.map_eq_some_iff.mp h
    rw [value?, fields?_mono hleaf entries fs hfs]
    rfl
  | .sequence _ false, _, h => nomatch h
  | .mapping _ false, _, h => nomatch h
  | .marked _ _, _, h => nomatch h
  | .broken, _, h => nomatch h

theorem values?_mono (hleaf : ∀ a v, leaf? a = some v → leaf?' a = some v) :
    ∀ (ns : List (Node α)) (vs : List Value),
      values? leaf? ns = some vs → values? leaf?' ns = some vs
  | [], vs, h => h
  | n :: ns, vs, h => by
    rw [values?] at h
    split at h
    · rename_i v' vs' hv hvs
      obtain rfl := Option.some.inj h
      rw [values?, value?_mono hleaf n v' hv, values?_mono hleaf ns vs' hvs]
    · cases h

theorem fields?_mono (hleaf : ∀ a v, leaf? a = some v → leaf?' a = some v) :
    ∀ (entries : List (Node α × Node α)) (fs : List (String × Value)),
    fields? leaf? entries = some fs → fields? leaf?' entries = some fs
  | [], fs, h => h
  | (k, n) :: entries, fs, h => by
    rw [fields?] at h
    split at h
    · rename_i name v fs' hk hv hfs
      obtain rfl := Option.some.inj h
      rw [fields?, value?_mono hleaf k _ hk, value?_mono hleaf n v hv,
        fields?_mono hleaf entries fs' hfs]
    · cases h
end

end Node

end Document

/-- A JSON text holds the settings that were printed. -/
theorem Settings.holds_print (s : Settings) : Json.Holds (s.print .json) s.encode := by
  have hlayout : Json.Scans ("\n" : String).toList [] :=
    Json.Scans.space (by decide) Json.Scans.nil
  have hreading := Value.reading_toJson s.isPlain_encode "\n" hlayout
  have hnode := Value.value?_node s.encode s.isPlain_encode
  rw [Json.Holds, print, hreading]
  exact ⟨rfl, Node.value?_mono (fun _ _ => Json.Leaf.content?_of_value) _ _ hnode⟩

/-- The loader takes a text that holds what the schema accepts. -/
theorem Settings.parse_fits {text : String} {v : Value} (h : Json.Holds text v)
    (hv : schema.accepts v = true) : Fits v (parse .json text) := by
  obtain ⟨hsound, hroot⟩ := h
  rw [parse]
  split
  · exact .of_ok rfl
  · have hagrees := agrees Json.dialect_faithful_content (fun _ => Json.isAbsent_null) v hroot hv
    show Fits v (Json.readRecord (shape Json.dialect) text)
    rw [Json.readRecord]
    refine hagrees.bind id fun s _ => ?_
    rw [if_pos hsound]
    exact .read s

/-! ## Together -/

/-- **The published schema and the loader agree**, whatever references may be followed: what is
    saved as JSON is valid, and what is valid is read.  In a proper object no name comes twice;
    about any other one the loader complains of nothing but that. -/
theorem schema_agrees (depth : Nat) :
    (∀ (s : Settings) (fs saved : FileSystem) (path : String), Format.ofPath path = .json →
      s.save fs path = .ok saved →
        ∃ text, saved.readText? path = some text ∧ Json.Holds text s.encode ∧
          s.encode.namesOnce = true ∧
          Published.valid (depth + 1) Settings.schema.publish s.encode = true) ∧
    ∀ text v, Json.Holds text v → Published.valid (depth + 1) Settings.schema.publish v = true →
      (v.namesOnce = true → ∃ s, Settings.parse .json text = .ok s) ∧
      ∀ fault, Settings.parse .json text = .error fault →
        ∃ place name, fault = .shape place (.repeatedField name) := by
  refine ⟨fun s fs saved path hformat hsave => ?_, fun text v hholds hvalid => ?_⟩
  · have htext := Settings.readText?_save hsave
    rw [hformat] at htext
    obtain ⟨haccepts, honce⟩ := s.written_encode
    exact ⟨s.print .json, htext, s.holds_print, honce,
      (Settings.valid_publish depth s.encode).trans haccepts⟩
  · rw [Settings.valid_publish] at hvalid
    have hfits := Settings.parse_fits hholds hvalid
    cases hparse : Settings.parse .json text with
    | ok s => exact ⟨fun _ => ⟨s, rfl⟩, nofun⟩
    | error fault =>
      rw [hparse] at hfits
      cases hfits with
      | repeated hv place name =>
        refine ⟨fun honce => ?_, fun fault h => ⟨place, name, (Except.error.inj h).symm⟩⟩
        rw [honce] at hv
        cases hv

/-- A document with fields that the settings do not have, and a shell of null. -/
def foreignDocument : String :=
  "\x7b\"extra\":[\x7b\"n\":1.5\x7d],\"shell\":null,\"variables\":[\x7b\"name\":\"a\",\"x\":[]\x7d]\x7d"

/-- What it holds. -/
def foreignValue : Value :=
  .record [("extra", .list [.record [("n", .number "1.5")]]), ("shell", .null),
    ("variables", .list [.record [("name", .text "a"), ("x", .list [])]])]

/-- That document is valid and is read, and its settings are saved as a valid one. -/
theorem schema_agrees_foreign :
    (Json.Holds foreignDocument foreignValue ∧ foreignValue.namesOnce = true ∧
      Published.valid 1 Settings.schema.publish foreignValue = true) ∧
    ∃ s saved text, Settings.parse .json foreignDocument = .ok s ∧
      s.save {} "/s.json" = .ok saved ∧ saved.readText? "/s.json" = some text ∧
      Json.Holds text s.encode ∧ Published.valid 1 Settings.schema.publish s.encode = true := by
  have hformat : Format.ofPath "/s.json" = .json := by decide +kernel
  have hholds : Json.Holds foreignDocument foreignValue := by decide +kernel
  have honce : foreignValue.namesOnce = true := by decide
  have hvalid : Published.valid 1 Settings.schema.publish foreignValue = true := by decide +kernel
  obtain ⟨hread, -⟩ := (schema_agrees 0).2 foreignDocument foreignValue hholds hvalid
  obtain ⟨s, hs⟩ := hread honce
  refine ⟨⟨hholds, honce, hvalid⟩, s, ?_⟩
  cases hsave : s.save {} "/s.json" with
  | error e =>
    obtain ⟨cause, -, hwrite⟩ := Settings.save_eq_error hsave
    cases hwrite (.text "")
  | ok saved =>
    obtain ⟨text, htext, hheld, -, hvalid⟩ :=
      (schema_agrees 0).1 s {} saved "/s.json" hformat hsave
    exact ⟨saved, text, hs, rfl, htext, hheld, hvalid⟩

end CommandLauncher
