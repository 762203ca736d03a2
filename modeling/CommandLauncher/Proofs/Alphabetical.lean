/-
  ALPHABETICAL VIEWS — in alphabetical order it does not matter how a file lists its entries.

  1. **Told apart** — `ToldApart cs` says that the titles and the labels of the commands have an
     image of one character for each of their own, that commands which compare equal within a
     group are one command, and that labels which compare equal below a group are one label.
     Two labels are siblings if they are the first ones in which two ways differ (`parting?`).

  2. **Trees** — at each place a permuted list leaves the same commands and labels in another
     order, and these are arranged to the same lists.  So the trees, which are grown in different
     orders on every level, are arranged to one tree (`ofCommands_eq_of_perm`).

  3. **Variables** — names that a text can refer to compare equal only if they are equal, so the
     lines of distinct variables follow one order (`variableLines_eq_of_perm`).
-/
import CommandLauncher.Display.View
import CommandLauncher.Proofs.Placing
import CommandLauncher.Proofs.Rebuilding
import Mathlib.Data.List.Nodup

namespace CommandLauncher

namespace Group

/-! ## Told apart -/

/-- The first labels in which two ways down from a group differ. -/
def parting? : List String → List String → Option (String × String)
  | s :: ss, t :: ts => if s = t then parting? ss ts else some (s, t)
  | _, _ => none

theorem parting?_append {ss us vs : List String} {s t : String} (h : s ≠ t) :
    parting? (ss ++ s :: us) (ss ++ t :: vs) = some (s, t) := by
  induction ss with
  | nil => exact if_neg h
  | cons r ss ih => exact (if_pos rfl).trans ih

/-- The comparison of keys tells the commands of each group and the labels below it apart. -/
structure ToldApart (cs : List Command) : Prop where
  titles : ∀ c ∈ cs, Charwise c.title
  labels : ∀ c ∈ cs, ∀ s ∈ segments c.group, Charwise s
  commands : ∀ c ∈ cs, ∀ d ∈ cs, segments c.group = segments d.group →
    compareKeys c.title d.title = .eq → c = d
  siblings : ∀ c ∈ cs, ∀ d ∈ cs, ∀ p ∈ parting? (segments c.group) (segments d.group),
    compareKeys p.1 p.2 ≠ .eq

instance (cs : List Command) : Decidable (ToldApart cs) :=
  decidable_of_iff
    ((∀ c ∈ cs, Charwise c.title) ∧ (∀ c ∈ cs, ∀ s ∈ segments c.group, Charwise s) ∧
      (∀ c ∈ cs, ∀ d ∈ cs, segments c.group = segments d.group →
        compareKeys c.title d.title = .eq → c = d) ∧
      ∀ c ∈ cs, ∀ d ∈ cs, ∀ p ∈ parting? (segments c.group) (segments d.group),
        compareKeys p.1 p.2 ≠ .eq)
    ⟨fun ⟨h₁, h₂, h₃, h₄⟩ => ⟨h₁, h₂, h₃, h₄⟩, fun ⟨h₁, h₂, h₃, h₄⟩ => ⟨h₁, h₂, h₃, h₄⟩⟩

/-! ## Trees -/

section Trees

variable {cs ds : List Command} {ss : List String} {s : String} {c : Command}

/-- The commands that are left at a place are those with its labels. -/
theorem mem_own_left : c ∈ own (left ss (placed cs)) ↔ c ∈ cs ∧ segments c.group = ss := by
  rw [mem_own, mem_left, mem_placed, List.append_nil]

/-- The labels that are left behind a place are those that follow its labels. -/
theorem mem_heads_left : s ∈ heads (left ss (placed cs)) ↔
    ∃ ts, ∃ c ∈ cs, segments c.group = ss ++ s :: ts := by
  simp only [mem_heads, mem_left, mem_placed]

/-- A permuted list leaves the same commands at each place. -/
theorem own_left_perm (h : cs.Perm ds) (ss : List String) :
    (own (left ss (placed cs))).Perm (own (left ss (placed ds))) := by
  rw [own_left, own_left]
  exact ((h.map _).filter _).map _

/-- And the same labels. -/
theorem heads_left_perm (h : cs.Perm ds) (ss : List String) :
    (heads (left ss (placed cs))).Perm (heads (left ss (placed ds))) := by
  have hnodup : ∀ ps, (heads ps).Nodup := fun _ => Template.nodup_firsts _
  refine (List.perm_ext_iff_of_nodup (hnodup _) (hnodup _)).mpr fun s => ?_
  simp only [mem_heads_left, h.mem_iff]

/-- **Alphabetical trees.**  Commands that are told apart make one tree, however they are
    listed. -/
theorem ofCommands_eq_of_perm (hperm : cs.Perm ds) (h : ToldApart cs) :
    ofCommands cs .alphabetical = ofCommands ds .alphabetical := by
  refine (holds_grow cs).arranged_eq (holds_grow ds) (by rw [grow_label, grow_label])
    (by rw [grow_path, grow_path]) (fun ss => ?_) fun ss => ?_
  · refine arrange_eq_of_perm (own_left_perm hperm ss) ?_ fun c hc d hd => ?_
    · exact consistent_of_charwise fun c hc => h.titles c (mem_own_left.mp hc).1
    · obtain ⟨hc, hcs⟩ := mem_own_left.mp hc
      obtain ⟨hd, hds⟩ := mem_own_left.mp hd
      exact h.commands c hc d hd (hcs.trans hds.symm)
  · refine arrange_eq_of_perm (heads_left_perm hperm ss) ?_ fun s hs t ht heq => ?_
    · refine consistent_of_charwise fun s hs => ?_
      obtain ⟨ts, c, hc, hsegments⟩ := mem_heads_left.mp hs
      exact h.labels c hc s (hsegments ▸ List.mem_append_right ss List.mem_cons_self)
    · obtain ⟨us, c, hc, hcs⟩ := mem_heads_left.mp hs
      obtain ⟨vs, d, hd, hds⟩ := mem_heads_left.mp ht
      -- different labels would be where the ways of the two commands part
      by_contra hne
      refine h.siblings c hc d hd (s, t) ?_ heq
      rw [hcs, hds]
      exact parting?_append hne

end Trees

end Group

/-! ## Variables -/

/-- **Alphabetical variables.**  Variables with different names that a text can refer to are shown
    in one order. -/
theorem Settings.variableLines_eq_of_perm {s s' : Settings} (hs : s.sortOrder = .alphabetical)
    (hs' : s'.sortOrder = .alphabetical) (hcommands : s.commands = s'.commands)
    (hperm : s.vars.Perm s'.vars) (hdistinct : Distinct Variable.name s.vars)
    (hnames : ∀ v ∈ s.vars, Variable.isName v.name = true) (color : Bool) :
    s.variableLines color = s'.variableLines color := by
  have harranged : arrange Variable.name s.vars .alphabetical =
      arrange Variable.name s'.vars .alphabetical := by
    refine arrange_eq_of_perm hperm ?_ fun v hv w hw heq => ?_
    · exact consistent_of_charwise fun v hv => charwise_of_ascii (ascii_of_isName (hnames v hv))
    · exact List.inj_on_of_nodup_map hdistinct hv hw
        (eq_of_compareKeys_eq (hnames v hv) (hnames w hw) heq)
  rw [variableLines, variableLines, hs, hs', harranged]
  exact List.map_congr_left fun v _ => by rw [uses, uses, hcommands]

/-! ## All views -/

/-- **Alphabetical views do not depend on the order of the file.**  On keys whose characters all
    have images of one character, arranging permutes a list so that no earlier key is greater than
    a later one and items that compare equal keep their order.  So permuted lists of commands make
    the same tree, if their titles and labels are such keys and are told apart.  And settings with
    the same commands and with permuted variables show the same lines, if the names of the
    variables differ and a text can refer to them, for such names never compare equal. -/
theorem alphabetical_views :
    (∀ {α : Type} (key : α → String) (xs : List α), (∀ x ∈ xs, Charwise (key x)) →
      (arrange key xs .alphabetical).Perm xs ∧
      (arrange key xs .alphabetical).Pairwise (fun x y => compareKeys (key x) (key y) ≠ .gt) ∧
      ∀ x ∈ xs, (arrange key xs .alphabetical).filter (fun y => compareKeys (key x) (key y) = .eq) =
        xs.filter fun y => compareKeys (key x) (key y) = .eq) ∧
    (∀ cs ds : List Command, cs.Perm ds → Group.ToldApart cs →
      Group.ofCommands cs .alphabetical = Group.ofCommands ds .alphabetical) ∧
    (∀ s s' : Settings, s.sortOrder = .alphabetical → s'.sortOrder = .alphabetical →
      s.commands = s'.commands → s.vars.Perm s'.vars → Distinct Variable.name s.vars →
      (∀ v ∈ s.vars, Variable.isName v.name = true) →
        ∀ color, s.variableLines color = s'.variableLines color) ∧
    ∀ a b : String, Variable.isName a = true → Variable.isName b = true →
      compareKeys a b = .eq → a = b :=
  ⟨fun _ _ h =>
      have hsorted := arrange_isSorted (consistent_of_charwise h)
      ⟨hsorted.perm, hsorted.ordered, hsorted.stable⟩,
    fun _ _ => Group.ofCommands_eq_of_perm,
    fun _ _ hs hs' hcommands hperm hdistinct hnames color =>
      Settings.variableLines_eq_of_perm hs hs' hcommands hperm hdistinct hnames color,
    fun _ _ => eq_of_compareKeys_eq⟩

/-- Keys, a list of commands in nested groups, and a list of variables, the last two together with
    their reverse. -/
theorem alphabetical_views_reversed :
    (arrange id ["z", "É", "a", "é"] .alphabetical).Pairwise (fun a b => compareKeys a b ≠ .gt) ∧
    Group.ofCommands
        [{ title := "ship", command := "./ship", group := some "Ops/Deploy" },
          { title := "Ship", command := "make", group := some "Ops/Deploy" },
          { title := "logs", command := "tail", group := some "Ops" },
          { title := "ls", command := "ls" }] .alphabetical =
      Group.ofCommands
        [{ title := "ls", command := "ls" },
          { title := "logs", command := "tail", group := some "Ops" },
          { title := "Ship", command := "make", group := some "Ops/Deploy" },
          { title := "ship", command := "./ship", group := some "Ops/Deploy" }] .alphabetical ∧
    Settings.variableLines
        { vars := [.fixed "env" "dev", .fixed "Env" "prod"], commands := [],
          sortOrder := .alphabetical } false =
      Settings.variableLines
        { vars := [.fixed "Env" "prod", .fixed "env" "dev"], commands := [],
          sortOrder := .alphabetical } false := by
  obtain ⟨harrange, htrees, hvariables, -⟩ := alphabetical_views
  refine ⟨(harrange id _ (by decide +kernel)).2.1, ?_, ?_⟩
  · exact htrees _ _ (List.reverse_perm _).symm (by decide +kernel)
  · exact hvariables _ _ (by rfl) (by rfl) (by rfl) (by decide) (by decide) (by decide +kernel) false

end CommandLauncher
