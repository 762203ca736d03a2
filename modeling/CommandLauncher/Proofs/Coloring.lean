/-
  COLOURING — what stands on the lines of a view besides their text.

  1. **Signs** — a terminal takes a line as a row of signs: characters that it shows, and sequences
     that tell it how to show them.  A sequence starts with an escape character and a bracket and
     goes to the next `m` (`Sign.read`).  Without the sequences a line is what can be seen of it.

  2. **Closing** — a row of signs is `Closed` if each sequence in it that opens a style is followed
     by shown characters and then by a reset, before anything else is opened and before the end.

  3. **Spans** — a style that is bold or has a colour, but not both, is opened by one sequence
     (`Style.IsSimple`).  A line of spans with such styles, whose texts have no escape character,
     is closed when it is written with colour, and shows what it is without (`reads_writeLine`).
     The induction is on the spans.

  4. **Views** — the lines of both views are made of such spans (`colors_only_add`).
-/
import CommandLauncher.Proofs.Outlines

namespace CommandLauncher

/-! ## Signs -/

/-- What a terminal finds on a line. -/
inductive Sign where
  | shown (c : Char)
  | sequence (code : List Char)
deriving DecidableEq, Repr

namespace Sign

/-- The code of a sequence and what follows it, where a text starts with one. -/
def sequence? : List Char → Option (List Char × List Char)
  | '\x1b' :: '[' :: cs =>
    match cs.dropWhile (· ≠ 'm') with
    | [] => none
    | _ :: rest => some (cs.takeWhile (· ≠ 'm'), rest)
  | _ => none

/-- A sequence takes up at least one character. -/
theorem length_of_sequence? {cs code rest : List Char} (h : sequence? cs = some (code, rest)) :
    rest.length < cs.length := by
  unfold sequence? at h
  split at h
  · rename_i cs
    split at h
    · cases h
    · rename_i c later hdrop
      obtain ⟨-, rfl⟩ := Prod.mk.inj (Option.some.inj h)
      have hlength : (cs.dropWhile (· ≠ 'm')).length ≤ cs.length :=
        (List.dropWhile_sublist _).length_le
      rw [hdrop] at hlength
      simp only [List.length_cons] at hlength ⊢
      omega
  · cases h

/-- The signs of a text, from left to right. -/
def read (cs : List Char) : List Sign :=
  match _h : sequence? cs with
  | some (code, rest) => .sequence code :: read rest
  | none =>
    match cs with
    | [] => []
    | c :: rest => .shown c :: read rest
termination_by cs.length
decreasing_by
  · exact length_of_sequence? _h
  · simp

theorem read_nil : read [] = [] := by
  rw [read]
  simp [sequence?]

/-- A sequence is read as one sign. -/
theorem read_sequence {code : List Char} (h : 'm' ∉ code) (rest : List Char) :
    read ('\x1b' :: '[' :: (code ++ 'm' :: rest)) = .sequence code :: read rest := by
  have hcode : ∀ c ∈ code, (decide (c ≠ 'm')) = true := by
    intro c hc
    rw [decide_eq_true_eq]
    rintro rfl
    exact h hc
  have hsequence : sequence? ('\x1b' :: '[' :: (code ++ 'm' :: rest)) = some (code, rest) := by
    rw [sequence?, List.dropWhile_append_of_pos hcode, List.takeWhile_append_of_pos hcode]
    simp
  rw [read]
  split
  · rename_i code' rest' h'
    rw [hsequence] at h'
    obtain ⟨rfl, rfl⟩ := Prod.mk.inj (Option.some.inj h')
    rfl
  · rename_i h'
    rw [hsequence] at h'
    cases h'

/-- Without an escape character the characters are read one by one. -/
theorem read_shown {cs : List Char} (h : '\x1b' ∉ cs) (rest : List Char) :
    read (cs ++ rest) = cs.map .shown ++ read rest := by
  induction cs with
  | nil => rfl
  | cons c cs ih =>
    obtain ⟨hc, hcs⟩ := not_or.mp (mt List.mem_cons.mpr h)
    have hnone : sequence? (c :: (cs ++ rest)) = none := by
      unfold sequence?
      split
      · rename_i heq
        exact absurd (List.cons.inj heq).1.symm hc
      · rfl
    rw [List.cons_append, read]
    split
    · rename_i h'
      rw [hnone] at h'
      cases h'
    · show shown c :: read (cs ++ rest) = _
      rw [ih hcs]
      rfl

/-- The character that a sign shows. -/
def char? : Sign → Option Char
  | shown c => some c
  | sequence _ => none

theorem filterMap_shown (cs : List Char) : (cs.map shown).filterMap char? = cs := by
  rw [List.filterMap_map]
  exact List.filterMap_some

end Sign

/-- The signs of a line. -/
def signs (line : String) : List Sign := Sign.read line.toList

/-- A line without its sequences. -/
def withoutSequences (line : String) : String :=
  String.ofList ((signs line).filterMap Sign.char?)

/-! ## Closing -/

/-- The code of a reset. -/
def resetCode : List Char := ['0']

/-- Whatever a row of signs opens is closed before something else is opened, and in the end. -/
inductive Closed : List Sign → Prop
  | done : Closed []
  | shown (c : Char) {later : List Sign} (h : Closed later) : Closed (.shown c :: later)
  | styled {code : List Char} (text : List Char) {later : List Sign} (hopens : code ≠ resetCode)
      (h : Closed later) :
      Closed (.sequence code :: (text.map .shown ++ .sequence resetCode :: later))

theorem Closed.text (cs : List Char) {later : List Sign} (h : Closed later) :
    Closed (cs.map .shown ++ later) := by
  induction cs with
  | nil => exact h
  | cons c cs ih => exact .shown c ih

/-! ## Spans -/

/-- No escape character stands in a text. -/
def NoEscape (t : String) : Prop := '\x1b' ∉ t.toList

instance (t : String) : Decidable (NoEscape t) := inferInstanceAs (Decidable ('\x1b' ∉ t.toList))

theorem NoEscape.append {t u : String} (ht : NoEscape t) (hu : NoEscape u) : NoEscape (t ++ u) := by
  rw [NoEscape, String.toList_append, List.mem_append]
  exact not_or.mpr ⟨ht, hu⟩

/-- What is no digit does not stand in a number. -/
theorem not_mem_toString {c : Char} (h : c.isDigit = false) (n : Nat) :
    c ∉ (toString n).toList := by
  rw [Nat.toString_eq_ofList_toDigits, String.toList_ofList]
  intro hc
  have hdigit : c.isDigit = true := Nat.isDigit_of_mem_toDigits (by decide) (by decide) hc
  rw [h] at hdigit
  cases hdigit

/-- One sequence opens the style, if any. -/
def Style.IsSimple (s : Style) : Prop := s.bold = false ∨ s.color = none

/-- What a colour is opened with. -/
theorem Color.exists_code (c : Color) : ∃ code : String,
    c.sequence = escapeSequence code ∧ 'm' ∉ code.toList ∧ code.toList ≠ resetCode := by
  cases c with
  | basic h => refine ⟨_, rfl, ?_, ?_⟩ <;> cases h <;> decide +kernel
  | bright h => refine ⟨_, rfl, ?_, ?_⟩ <;> cases h <;> decide +kernel
  | mixed r g b =>
    refine ⟨_, rfl, ?_, ?_⟩
    · simp only [String.toList_append, List.mem_append, not_or]
      have hnumber : ∀ n : Nat, 'm' ∉ (toString n).toList := not_mem_toString rfl
      exact ⟨⟨⟨⟨⟨by decide, hnumber r⟩, by decide⟩, hnumber g⟩, by decide⟩, hnumber b⟩
    · simp [resetCode]

/-- What a style is opened with. -/
theorem Style.exists_code {s : Style} (h : s.IsSimple) (hne : s ≠ .ordinary) : ∃ code : String,
    s.sequence = escapeSequence code ∧ 'm' ∉ code.toList ∧ code.toList ≠ resetCode := by
  obtain ⟨color, bold⟩ := s
  cases color with
  | none =>
    cases bold with
    | false => exact absurd rfl hne
    | true => exact ⟨"1", rfl, by decide, by decide⟩
  | some c =>
    rcases h with hbold | hcolor
    · obtain rfl : bold = false := hbold
      obtain ⟨code, hcode, hrest⟩ := c.exists_code
      exact ⟨code, by rw [← hcode, sequence]; simp, hrest⟩
    · cases hcolor

/-- A span that can be told from its text. -/
structure Span.IsPlain (s : Span) : Prop where
  text : NoEscape s.text
  style : s.style.IsSimple

/-- A span with colour is its text, or stands between the sequence of its style and a reset. -/
theorem Span.write_cases {s : Span} (h : s.style.IsSimple) : s.write true = s.text ∨
    ∃ code : String, 'm' ∉ code.toList ∧ code.toList ≠ resetCode ∧
      s.write true = escapeSequence code ++ s.text ++ escapeSequence "0" := by
  by_cases hstyle : s.style = .ordinary
  · exact .inl (by rw [write, hstyle]; simp)
  · obtain ⟨code, hcode, hm, hne⟩ := Style.exists_code h hstyle
    refine .inr ⟨code, hm, hne, ?_⟩
    rw [write, if_pos (by simpa using hstyle), Style.paint, hcode]
    rfl

/-- Text is read character by character. -/
theorem signs_text {t : String} (h : NoEscape t) (u : String) :
    signs (t ++ u) = t.toList.map .shown ++ signs u := by
  rw [signs, String.toList_append, Sign.read_shown h, signs]

/-- An escape sequence is read as one sign. -/
theorem signs_escapeSequence {code : String} (h : 'm' ∉ code.toList) (u : String) :
    signs (escapeSequence code ++ u) = .sequence code.toList :: signs u := by
  have hchars : (escapeSequence code ++ u).toList =
      '\x1b' :: '[' :: (code.toList ++ 'm' :: u.toList) := by
    simp [escapeSequence]
  rw [signs, hchars, Sign.read_sequence h, signs]

/-- **A line with colour is closed, and it shows what the line is without.** -/
theorem reads_writeLine {spans : List Span} (h : ∀ s ∈ spans, s.IsPlain) :
    Closed (signs (writeLine true spans)) ∧
      (signs (writeLine true spans)).filterMap Sign.char? = (writeLine false spans).toList := by
  induction spans with
  | nil =>
    have hnone : signs (writeLine true []) = [] := Sign.read_nil
    rw [hnone]
    exact ⟨.done, rfl⟩
  | cons s spans ih =>
    obtain ⟨hs, hspans⟩ := List.forall_mem_cons.mp h
    obtain ⟨hclosed, hshown⟩ := ih hspans
    have hwithout : (writeLine false (s :: spans)).toList =
        s.text.toList ++ (writeLine false spans).toList := by
      rw [writeLine_cons, String.toList_append]
      rfl
    rw [writeLine_cons, hwithout, ← hshown]
    rcases Span.write_cases hs.style with hwrite | ⟨code, hm, hopens, hwrite⟩
    · rw [hwrite, signs_text hs.text]
      refine ⟨hclosed.text _, ?_⟩
      rw [List.filterMap_append, Sign.filterMap_shown]
    · have hsigns : signs (s.write true ++ writeLine true spans) = .sequence code.toList ::
          (s.text.toList.map .shown ++ .sequence resetCode :: signs (writeLine true spans)) := by
        rw [hwrite, String.append_assoc, String.append_assoc, signs_escapeSequence hm,
          signs_text hs.text, signs_escapeSequence (by decide)]
        rfl
      rw [hsigns]
      refine ⟨.styled _ hopens hclosed, ?_⟩
      rw [List.filterMap_cons_none rfl, List.filterMap_append, Sign.filterMap_shown,
        List.filterMap_cons_none rfl]

/-! ## Views -/

theorem isPlain_ordinary {t : String} (h : NoEscape t) : Span.IsPlain ⟨t, .ordinary⟩ :=
  ⟨h, .inl rfl⟩

theorem isPlain_dim {t : String} (h : NoEscape t) : Span.IsPlain ⟨t, .dim⟩ := ⟨h, .inl rfl⟩

theorem isPlain_strong {t : String} (h : NoEscape t) : Span.IsPlain ⟨t, .strong⟩ := ⟨h, .inr rfl⟩

/-- A text that may be missing adds plain spans. -/
theorem isPlain_remark {text : Option String} (h : ∀ t ∈ text, NoEscape t) :
    ∀ s ∈ Row.remark text, s.IsPlain := by
  cases text with
  | none => exact nofun
  | some t =>
    rw [Row.remark]
    split
    · exact nofun
    · rw [List.forall_mem_cons, List.forall_mem_singleton]
      exact ⟨isPlain_ordinary (by decide), isPlain_dim (h t rfl)⟩

theorem noEscape_indent (depth : Nat) : NoEscape (Row.indent depth) := by
  rw [NoEscape, Row.indent, String.toList_ofList, List.mem_replicate]
  rintro ⟨-, h⟩
  exact absurd h (by decide)

theorem noEscape_join {ts : List String} (h : ∀ t ∈ ts, NoEscape t) :
    NoEscape (Text.join ", " ts) := by
  induction ts with
  | nil => exact nofun
  | cons t ts ih =>
    obtain ⟨ht, hts⟩ := List.forall_mem_cons.mp h
    cases ts with
    | nil => exact ht
    | cons u us => exact (ht.append (by decide)).append (ih hts)

/-- What an item shows of itself has no escape character. -/
def Group.Item.HasNoEscape : Item → Prop
  | group g => NoEscape g.label
  | command c => NoEscape c.title ∧ ∀ t ∈ c.description, NoEscape t

instance : (item : Group.Item) → Decidable item.HasNoEscape
  | .group g => inferInstanceAs (Decidable (NoEscape g.label))
  | .command c =>
    inferInstanceAs (Decidable (NoEscape c.title ∧ ∀ t ∈ c.description, NoEscape t))

/-- What a variable shows of itself has no escape character. -/
structure Variable.HasNoEscape (v : Variable) : Prop where
  name : NoEscape v.name
  value : NoEscape v.value
  description : ∀ t ∈ v.description, NoEscape t
  options : ∀ ts ∈ v.options, ∀ t ∈ ts, NoEscape t

/-- The row of an item is made of plain spans, whatever its colour is. -/
theorem isPlain_row {e : Group.Entry} (h : e.item.HasNoEscape) (isOpen : String → Bool)
    (iconColor : String) : ∀ s ∈ (e.row isOpen).spans iconColor, s.IsPlain := by
  obtain ⟨around, item⟩ := e
  cases item with
  | group g =>
    have hmarker : NoEscape (if isOpen g.path then "▾ " else "▸ ") := by split <;> decide
    have hcount : NoEscape (toString g.count) := not_mem_toString rfl _
    have hnumber : NoEscape ("(" ++ toString g.count ++ ")") :=
      (NoEscape.append (by decide) hcount).append (by decide)
    rw [Group.Entry.row, Row.spans]
    simp only [List.forall_mem_cons]
    exact ⟨isPlain_ordinary ((noEscape_indent _).append hmarker), isPlain_strong h,
      isPlain_ordinary (by decide), isPlain_dim hnumber, List.forall_mem_nil _⟩
  | command c =>
    obtain ⟨htitle, hdescription⟩ := h
    have hbullet : NoEscape "•" := by decide
    rw [Group.Entry.row, Row.spans]
    simp only [List.forall_mem_append, List.forall_mem_cons]
    exact ⟨⟨isPlain_ordinary (noEscape_indent _), ⟨hbullet, .inl rfl⟩,
      isPlain_ordinary (NoEscape.append (by decide) htitle), List.forall_mem_nil _⟩,
      isPlain_remark hdescription⟩

/-- The line of a variable is made of plain spans. -/
theorem isPlain_variable {v : Variable} (h : v.HasNoEscape) (uses : Nat) :
    ∀ s ∈ v.spans uses, s.IsPlain := by
  have huses : NoEscape (Settings.usesText uses) := by
    have hnumber : NoEscape (toString uses) := not_mem_toString rfl uses
    have hnoun : NoEscape (if uses = 1 then " command)" else " commands)") := by split <;> decide
    exact (NoEscape.append (by decide) hnumber).append hnoun
  rw [Variable.spans]
  simp only [List.forall_mem_append, List.forall_mem_cons]
  refine ⟨⟨⟨isPlain_strong h.name, isPlain_ordinary ?_, List.forall_mem_nil _⟩,
    isPlain_remark h.description⟩, isPlain_remark fun t ht => ?_⟩
  · split
    · rename_i options hoptions
      have hjoin : NoEscape (Text.join ", " options) :=
        noEscape_join (h.options options (Variable.choices_eq_some_iff.mp hoptions).1)
      exact ((((NoEscape.append (by decide) hjoin).append (by decide)).append h.value).append
        (by decide))
    · exact NoEscape.append (by decide) h.value
  · split at ht
    · cases ht
    · obtain rfl := Option.some.inj ht
      exact huses

/-- A view with colour has nothing but sequences more than without, and closes what it opens. -/
structure ColorsOnlyAdd (view : Bool → List String) : Prop where
  text : (view true).map withoutSequences = view false
  closed : ∀ line ∈ view true, Closed (signs line)

theorem ColorsOnlyAdd.of_plain {rows : List (List Span)}
    (h : ∀ spans ∈ rows, ∀ s ∈ spans, s.IsPlain) :
    ColorsOnlyAdd fun color => rows.map (writeLine color) where
  text := by
    rw [List.map_map]
    refine List.map_congr_left fun spans hspans => ?_
    show withoutSequences (writeLine true spans) = writeLine false spans
    rw [withoutSequences, (reads_writeLine (h spans hspans)).2, String.ofList_toList]
  closed := by
    intro line hline
    obtain ⟨spans, hspans, rfl⟩ := List.mem_map.mp hline
    exact (reads_writeLine (h spans hspans)).1

/-- **Colours never change the text that can be seen**, for every tree, whatever groups are open
    and whatever colour is asked for, and for every settings, if no escape character stands in
    the labels, titles, descriptions, names, values and options that are shown.  The lines of the
    view with colour, taken without their sequences, are those of the view without; and in each
    of them whatever opens a style is closed by a reset before another style is opened and
    before the line ends. -/
theorem colors_only_add :
    (∀ (root : Group) isOpen iconColor,
      (∀ around item, Group.Stands root around item → item.HasNoEscape) →
        ColorsOnlyAdd (root.lines isOpen iconColor)) ∧
    ∀ s : Settings, (∀ v ∈ s.vars, v.HasNoEscape) → ColorsOnlyAdd s.variableLines := by
  constructor
  · intro root isOpen iconColor hroot
    have hplain : ∀ spans ∈ (Row.ofTree isOpen root).map (Row.spans iconColor),
        ∀ s ∈ spans, s.IsPlain := by
      rw [List.forall_mem_map, Group.ofTree_eq_outline, List.forall_mem_map]
      intro e he
      have hstands := Group.mem_outline.mp (List.mem_filter.mp he).1
      exact isPlain_row (hroot _ _ hstands) isOpen iconColor
    have hlines : root.lines isOpen iconColor = fun color =>
        ((Row.ofTree isOpen root).map (Row.spans iconColor)).map (writeLine color) := by
      funext color
      rw [Group.lines, List.map_map]
      rfl
    rw [hlines]
    exact .of_plain hplain
  · intro s hs
    let rows := (arrange Variable.name s.vars s.sortOrder).map fun v => v.spans (s.uses v.name)
    have hplain : ∀ spans ∈ rows, ∀ sp ∈ spans, sp.IsPlain := by
      rw [List.forall_mem_map]
      intro v hv
      have hmem : v ∈ s.vars := (arrange_perm Variable.name s.vars s.sortOrder).mem_iff.mp hv
      exact isPlain_variable (hs v hmem) (s.uses v.name)
    have hlines : s.variableLines = fun color => rows.map (writeLine color) := by
      funext color
      rw [Settings.variableLines, List.map_map]
      rfl
    rw [hlines]
    exact .of_plain hplain

/-- A group with two commands, of which one has a colour of its own, and a variable with options. -/
theorem colors_only_add_open_group :
    let ship : Command :=
      { title := "ship", command := "./ship", group := some "Ops", description := some "Ship it",
        iconColor := some "charts.purple" }
    let ls : Command := { title := "ls", command := "ls", group := some "Ops" }
    let env : Variable := { name := "env", value := "dev", options := some ["dev", "prod"] }
    let root := Group.ofCommands [ship, ls] .settings
    let view := root.lines (fun _ => true) "terminal.ansiCyan"
    let s : Settings := { vars := [env], commands := [ship, ls] }
    ((∀ around item, Group.Stands root around item → item.HasNoEscape) ∧
      ∀ v ∈ s.vars, v.HasNoEscape) ∧
    view true = ["▾ \x1b[1mOps\x1b[0m \x1b[90m(2)\x1b[0m",
      "  \x1b[35m•\x1b[0m ship  \x1b[90mShip it\x1b[0m", "  \x1b[36m•\x1b[0m ls"] ∧
    (view true).map withoutSequences = ["▾ Ops (2)", "  • ship  Ship it", "  • ls"] ∧
    (∀ line ∈ view true, Closed (signs line)) ∧ ColorsOnlyAdd s.variableLines := by
  intro ship ls env root view s
  have hitems : ∀ e ∈ root.outline, e.item.HasNoEscape := by decide +kernel
  have hroot : ∀ around item, Group.Stands root around item → item.HasNoEscape :=
    fun around item hstands => hitems ⟨around, item⟩ (Group.mem_outline.mpr hstands)
  have hvars : ∀ v ∈ s.vars, v.HasNoEscape :=
    List.forall_mem_singleton.mpr ⟨by decide, by decide, by decide, by decide⟩
  obtain ⟨htrees, hvariables⟩ := colors_only_add
  obtain ⟨htext, hclosed⟩ := htrees root (fun _ => true) "terminal.ansiCyan" hroot
  exact ⟨⟨hroot, hvars⟩, by decide +kernel, htext.trans (by decide +kernel), hclosed,
    hvariables s hvars⟩

end CommandLauncher
