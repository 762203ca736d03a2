/-
  OUTLINES — what the view of a tree shows, and in which order.

  1. **Entries** — the outline of a tree has an entry for every group and every command below its
     root, depth first and with the child groups before the commands.  An entry knows the groups
     around it, from the root down and without the root.  The outline lists whatever stands in
     the tree and nothing else (`mem_outline`), and in the tree of a list it has no group twice
     (`nodup_outline_paths`), since there no two groups share a path.

  2. **What is shown** — which groups are open is told by their paths, as `Expansion.isExpanded`
     does for saved ones.  The view skips a closed group's inside as it walks.  That comes to the
     same as taking from the whole outline the entries that have only open groups around them
     (`ofTree_eq_outline`): inside a closed group every entry has this group around it.

  3. **Picking** — with every group open the bullets are the commands of the tree in the order in
     which the picker offers them (`bullets_eq`), so the position of a bullet picks its command.
-/
import CommandLauncher.Display.View
import CommandLauncher.Proofs.Addresses
import CommandLauncher.Proofs.Rewriting
import CommandLauncher.Proofs.Running

namespace CommandLauncher

namespace Group

/-! ## Entries -/

/-- What can have a line of its own. -/
inductive Item where
  | group (g : Group)
  | command (c : Command)

/-- An item with the groups around it, the outermost first. -/
structure Entry where
  around : List Group
  item : Item

mutual
/-- The entries inside a group, which has `around` and itself around them. -/
def inside (around : List Group) : Group → List Entry
  | ⟨_, _, gs, cs⟩ => insideAll around gs ++ cs.map fun c => ⟨around, .command c⟩

/-- The entries of the groups and of what is inside them. -/
def insideAll (around : List Group) : List Group → List Entry
  | [] => []
  | g :: gs => ⟨around, .group g⟩ :: (inside (around ++ [g]) g ++ insideAll around gs)
end

/-- All entries below a root. -/
def outline (root : Group) : List Entry := inside [] root

/-- An item stands below a root, with these groups on the way. -/
inductive Stands : Group → List Group → Item → Prop
  | group {root g : Group} (hmem : g ∈ root.groups) : Stands root [] (.group g)
  | command {root : Group} {c : Command} (hmem : c ∈ root.commands) : Stands root [] (.command c)
  | down {root g : Group} {around : List Group} {item : Item} (hmem : g ∈ root.groups)
      (hbelow : Stands g around item) : Stands root (g :: around) item

mutual
theorem mem_inside : ∀ {around : List Group} {g : Group} {p : Entry},
    p ∈ inside around g ↔ ∃ way, p.around = around ++ way ∧ Stands g way p.item
  | around, ⟨label, path, gs, cs⟩, p => by
    rw [inside, List.mem_append, mem_insideAll, List.mem_map]
    constructor
    · rintro (⟨g, hg, rfl | ⟨way, hway, hbelow⟩⟩ | ⟨c, hc, rfl⟩)
      · exact ⟨[], (List.append_nil _).symm, .group hg⟩
      · exact ⟨g :: way, hway, .down hg hbelow⟩
      · exact ⟨[], (List.append_nil _).symm, .command hc⟩
    · obtain ⟨entries, item⟩ := p
      rintro ⟨way, rfl, hitem⟩
      cases hitem with
      | group hg =>
        rw [List.append_nil]
        exact .inl ⟨_, hg, .inl rfl⟩
      | command hc =>
        rw [List.append_nil]
        exact .inr ⟨_, hc, rfl⟩
      | down hg hbelow => exact .inl ⟨_, hg, .inr ⟨_, rfl, hbelow⟩⟩

theorem mem_insideAll : ∀ {around gs : List Group} {p : Entry},
    p ∈ insideAll around gs ↔ ∃ g ∈ gs, p = ⟨around, .group g⟩ ∨
      ∃ way, p.around = around ++ g :: way ∧ Stands g way p.item
  | around, [], p => by simp [insideAll]
  | around, g :: gs, p => by
    have hhead : p ∈ inside (around ++ [g]) g ↔
        ∃ way, p.around = around ++ g :: way ∧ Stands g way p.item := by
      rw [mem_inside]
      simp only [List.append_assoc, List.singleton_append]
    rw [insideAll, List.mem_cons, List.mem_append, hhead, mem_insideAll, ← or_assoc]
    constructor
    · rintro (h | ⟨g', hg', h⟩)
      · exact ⟨g, List.mem_cons_self, h⟩
      · exact ⟨g', List.mem_cons_of_mem g hg', h⟩
    · rintro ⟨g', hg', h⟩
      rcases List.mem_cons.mp hg' with rfl | hg'
      · exact .inl h
      · exact .inr ⟨g', hg', h⟩
end

/-- The outline has an entry for whatever stands below the root. -/
theorem mem_outline {root : Group} {around : List Group} {item : Item} :
    ⟨around, item⟩ ∈ root.outline ↔ Stands root around item := by
  rw [outline, mem_inside]
  constructor
  · rintro ⟨way, hway, hitem⟩
    rwa [show around = way from hway]
  · exact fun h => ⟨around, rfl, h⟩

/-! ## No group twice -/

/-- The path of an item that is a group. -/
def Item.path? : Item → Option String
  | .group g => some g.path
  | .command _ => none

/-- The paths of the groups among entries. -/
def paths (entries : List Entry) : List String := entries.filterMap fun e => e.item.path?

theorem paths_append (es fs : List Entry) : paths (es ++ fs) = paths es ++ paths fs :=
  List.filterMap_append

theorem paths_commands (around : List Group) (cs : List Command) :
    paths (cs.map fun c => ⟨around, .command c⟩) = [] := by
  rw [paths, List.filterMap_map]
  exact List.filterMap_eq_nil_iff.mpr fun _ _ => rfl

/-- The labels of the groups around a group, and its own, lead to it. -/
theorem Stands.reaches {root g : Group} {around : List Group}
    (h : Stands root around (.group g)) : Reaches root ((around ++ [g]).map label) g := by
  generalize hitem : Item.group g = item at h
  induction h with
  | group hmem =>
    obtain rfl := Item.group.inj hitem
    exact .down hmem (.here g)
  | command => cases hitem
  | down hmem _ ih => exact .down hmem (ih hitem)

/-- A group that stands around something stands in the tree itself. -/
theorem Stands.of_mem_around {root a : Group} {around : List Group} {item : Item}
    (h : Stands root around item) (ha : a ∈ around) : ∃ way, Stands root way (.group a) := by
  induction h with
  | group => cases ha
  | command => cases ha
  | down hmem _ ih =>
    rcases List.mem_cons.mp ha with rfl | ha
    · exact ⟨[], .group hmem⟩
    · obtain ⟨way, hway⟩ := ih ha
      exact ⟨_, .down hmem hway⟩

theorem Stands.exists_reached {root : Group} {around : List Group} {item : Item} {path : String}
    (h : Stands root around item) (hpath : item.path? = some path) :
    ∃ s ss n, Reaches root (s :: ss) n ∧ n.path = path := by
  cases item with
  | group n =>
    have hreaches := h.reaches
    cases around with
    | nil => exact ⟨_, _, n, hreaches, Option.some.inj hpath⟩
    | cons => exact ⟨_, _, n, hreaches, Option.some.inj hpath⟩
  | command => cases hpath

theorem reaches_of_mem_paths_inside {around : List Group} {g : Group} {path : String}
    (h : path ∈ paths (inside around g)) : ∃ s ss n, Reaches g (s :: ss) n ∧ n.path = path := by
  obtain ⟨e, he, hpath⟩ := List.mem_filterMap.mp h
  obtain ⟨way, -, hstands⟩ := mem_inside.mp he
  exact hstands.exists_reached hpath

theorem reaches_of_mem_paths_insideAll {around gs : List Group} {path : String}
    (h : path ∈ paths (insideAll around gs)) :
    ∃ g ∈ gs, ∃ ss n, Reaches g ss n ∧ n.path = path := by
  obtain ⟨e, he, hpath⟩ := List.mem_filterMap.mp h
  obtain ⟨g, hg, rfl | ⟨way, -, hstands⟩⟩ := mem_insideAll.mp he
  · exact ⟨g, hg, [], g, .here g, Option.some.inj hpath⟩
  · obtain ⟨s, ss, n, hn⟩ := hstands.exists_reached hpath
    exact ⟨g, hg, s :: ss, n, hn⟩

/-- Siblings have different labels, and the path of a group tells the labels that lead to it. -/
structure Addressed (root : Group) : Prop where
  siblings : ∀ {ss n}, Reaches root ss n → (n.groups.map label).Nodup
  labels : ∀ {ss ts n m}, Reaches root ss n → Reaches root ts m → n.path = m.path → ss = ts

theorem Addressed.below {root n : Group} {ss : List String} (h : Addressed root)
    (hn : Reaches root ss n) : Addressed n where
  siblings hm := h.siblings (hn.trans hm)
  labels h₁ h₂ hpath := List.append_cancel_left (h.labels (hn.trans h₁) (hn.trans h₂) hpath)

theorem addressed_of_reaches {cs : List Command} {order : SortOrder} {ss : List String} {n : Group}
    (h : Reaches (ofCommands cs order) ss n) : Addressed n := by
  have htree := ofCommands?_insertion cs order
  refine Addressed.below ⟨nodup_labels_of_reaches htree, fun hn hm hpath => ?_⟩ h
  rw [← pathLabels_of_reaches htree hn, hpath, pathLabels_of_reaches htree hm]

mutual
theorem nodup_paths_inside : ∀ (around : List Group) (g : Group), Addressed g →
    (paths (inside around g)).Nodup
  | around, ⟨label, path, gs, cs⟩, h => by
    rw [inside, paths_append, paths_commands, List.append_nil]
    exact nodup_paths_insideAll around gs h (List.Sublist.refl gs)

theorem nodup_paths_insideAll : ∀ {parent : Group} (around gs : List Group), Addressed parent →
    gs.Sublist parent.groups → (paths (insideAll around gs)).Nodup
  | _, _, [], _, _ => List.nodup_nil
  | parent, around, g :: gs, h, hsub => by
    have hmem : ∀ child ∈ g :: gs, child ∈ parent.groups := fun child hchild => hsub.subset hchild
    have hlabel : g.label ∉ gs.map label :=
      (List.nodup_cons.mp ((h.siblings (.here parent)).sublist (hsub.map label))).1
    -- a path below `g` has the label of `g` in front, one below a later sibling another label
    have hother : ∀ ss n, Reaches g ss n → n.path ∉ paths (insideAll around gs) := by
      intro ss n hn hpath
      obtain ⟨g', hg', ts, m, hm, hpath⟩ := reaches_of_mem_paths_insideAll hpath
      have hlabels := h.labels (.down (hmem g' (List.mem_cons_of_mem g hg')) hm)
        (.down (hmem g List.mem_cons_self) hn) hpath
      exact hlabel ((List.cons.inj hlabels).1 ▸ List.mem_map_of_mem hg')
    have hg : Addressed g := h.below (.down (hmem g List.mem_cons_self) (.here g))
    have hself : g.path ∉ paths (inside (around ++ [g]) g) := by
      intro hpath
      obtain ⟨s, ss, n, hn, hpath⟩ := reaches_of_mem_paths_inside hpath
      cases hg.labels (.here g) hn hpath.symm
    have hpaths : paths (insideAll around (g :: gs)) =
        g.path :: (paths (inside (around ++ [g]) g) ++ paths (insideAll around gs)) := by
      rw [← paths_append]
      rfl
    rw [hpaths, List.nodup_cons, List.mem_append, List.nodup_append]
    refine ⟨fun hpath => hpath.elim hself (hother [] g (.here g)), nodup_paths_inside _ g hg,
      nodup_paths_insideAll around gs h ((List.sublist_cons_self g gs).trans hsub), ?_⟩
    rintro path hin _ hlater rfl
    obtain ⟨s, ss, n, hn, rfl⟩ := reaches_of_mem_paths_inside hin
    exact hother _ n hn hlater
end

/-- In the tree of a list, and in every group of it, the outline has no group twice. -/
theorem nodup_outline_paths {cs : List Command} {order : SortOrder} {ss : List String}
    {root : Group} (h : Reaches (ofCommands cs order) ss root) : (paths root.outline).Nodup :=
  nodup_paths_inside [] root (addressed_of_reaches h)

/-! ## What is shown -/

/-- All groups around the entry are open. -/
def Entry.isVisible (isOpen : String → Bool) (p : Entry) : Bool :=
  p.around.all fun g => isOpen g.path

/-- The row of an entry. -/
def Entry.row (isOpen : String → Bool) (p : Entry) : Row :=
  match p.item with
  | .group g => .group p.around.length (isOpen g.path) g.label g.count
  | .command c => .command p.around.length c

/-- Nothing inside a closed group is visible. -/
theorem filter_inside_of_closed {isOpen : String → Bool} {around : List Group} {g : Group}
    (hclosed : isOpen g.path = false) :
    (inside (around ++ [g]) g).filter (Entry.isVisible isOpen) = [] := by
  rw [List.filter_eq_nil_iff]
  intro p hp hvisible
  obtain ⟨way, hway, -⟩ := mem_inside.mp hp
  rw [Entry.isVisible, hway, List.all_eq_true] at hvisible
  have hopen := hvisible g (by simp)
  rw [hclosed] at hopen
  cases hopen

section Rows

variable {isOpen : String → Bool}

mutual
/-- The rows inside an open group that can be seen itself are those of its visible entries. -/
theorem rows_inside : ∀ {around : List Group} (g : Group), (∀ a ∈ around, isOpen a.path = true) →
    Row.ofGroups isOpen around.length g.groups ++ g.commands.map (.command around.length) =
      ((inside around g).filter (Entry.isVisible isOpen)).map (Entry.row isOpen)
  | around, ⟨label, path, gs, cs⟩, hopen => by
    have hvisible : (cs.map fun c => ⟨around, .command c⟩).filter (Entry.isVisible isOpen) =
        cs.map fun c => ⟨around, .command c⟩ := by
      rw [List.filter_eq_self]
      intro p hp
      obtain ⟨c, -, rfl⟩ := List.mem_map.mp hp
      exact List.all_eq_true.mpr hopen
    rw [inside, List.filter_append, List.map_append, hvisible, List.map_map,
      ← rows_insideAll gs hopen]
    rfl

theorem rows_insideAll : ∀ {around : List Group} (gs : List Group),
    (∀ a ∈ around, isOpen a.path = true) →
    Row.ofGroups isOpen around.length gs =
      ((insideAll around gs).filter (Entry.isVisible isOpen)).map (Entry.row isOpen)
  | around, [], _ => rfl
  | around, ⟨label, path, gs, cs⟩ :: rest, hopen => by
    have hvisible : Entry.isVisible isOpen ⟨around, .group ⟨label, path, gs, cs⟩⟩ = true :=
      List.all_eq_true.mpr hopen
    rw [Row.ofGroups, Row.ofGroup, insideAll, List.filter_cons_of_pos hvisible, List.filter_append,
      List.map_cons, List.map_append, ← rows_insideAll rest hopen, List.cons_append]
    congr 2
    split
    · rename_i hgroup
      have hinside : ∀ a ∈ around ++ [⟨label, path, gs, cs⟩], isOpen a.path = true := by
        intro a ha
        rcases List.mem_append.mp ha with ha | ha
        · exact hopen a ha
        · rw [List.mem_singleton.mp ha]
          exact hgroup
      have hrows := rows_inside ⟨label, path, gs, cs⟩ hinside
      rwa [List.length_append, List.length_singleton] at hrows
    · rename_i hgroup
      rw [filter_inside_of_closed (Bool.eq_false_iff.mpr hgroup)]
      rfl
end

end Rows

/-- The view shows the entries of the outline that have only open groups around them. -/
theorem ofTree_eq_outline (isOpen : String → Bool) (root : Group) : Row.ofTree isOpen root =
    (root.outline.filter (Entry.isVisible isOpen)).map (Entry.row isOpen) :=
  rows_inside root (List.forall_mem_nil _)

/-- With every group in the tree open that is all of them. -/
theorem filter_outline_of_all_open {isOpen : String → Bool} {root : Group}
    (hopen : ∀ around g, Stands root around (.group g) → isOpen g.path = true) :
    root.outline.filter (Entry.isVisible isOpen) = root.outline := by
  rw [List.filter_eq_self]
  rintro ⟨around, item⟩ he
  refine List.all_eq_true.mpr fun a ha => ?_
  obtain ⟨way, hway⟩ := (mem_outline.mp he).of_mem_around ha
  exact hopen way a hway

/-! ## Lines -/

/-- The text on the line of an entry: two spaces for each group around it; then for a group whether
    it is open, its label and how many commands are below it, shown or not, and for a command its
    bullet, its title and its description. -/
def Entry.line (isOpen : String → Bool) (iconColor : String) (color : Bool) (e : Entry) : String :=
  String.ofList (List.replicate (2 * e.around.length) ' ') ++
    match e.item with
    | .group g =>
      (if isOpen g.path then "▾ " else "▸ ") ++ Span.write color ⟨g.label, .strong⟩ ++ " " ++
        Span.write color ⟨"(" ++ toString g.allCommands.length ++ ")", .dim⟩
    | .command c =>
      Span.write color ⟨"•", { color := Theme.color? (Row.colorName iconColor c) }⟩ ++ " " ++
        c.title ++ writeLine color (Row.remark c.description)

theorem writeLine_row (isOpen : String → Bool) (iconColor : String) (color : Bool) (e : Entry) :
    writeLine color ((e.row isOpen).spans iconColor) = e.line isOpen iconColor color := by
  obtain ⟨around, item⟩ := e
  cases item with
  | group g =>
    simp only [Entry.row, Entry.line, Row.spans, Row.indent, length_allCommands, writeLine_cons,
      writeLine_nil, Span.write_ordinary, String.append_assoc, String.append_empty]
  | command c =>
    simp only [Entry.row, Entry.line, Row.spans, Row.indent, List.cons_append, List.nil_append,
      writeLine_cons, Span.write_ordinary, String.append_assoc]

/-! ## Picking -/

/-- The command of an entry that is one. -/
def Entry.command? (e : Entry) : Option Command :=
  match e.item with
  | .group _ => none
  | .command c => some c

/-- The commands behind the bullets of the fully open view, from top to bottom. -/
def bullets (root : Group) : List Command := root.outline.filterMap Entry.command?

mutual
theorem filterMap_inside : ∀ (around : List Group) (g : Group),
    (inside around g).filterMap Entry.command? = g.contents
  | around, ⟨label, path, gs, cs⟩ => by
    rw [inside, List.filterMap_append, filterMap_insideAll, contents_eq, List.filterMap_map]
    exact congrArg _ (List.filterMap_some)

theorem filterMap_insideAll : ∀ (around gs : List Group),
    (insideAll around gs).filterMap Entry.command? = contentsAll gs
  | around, [] => rfl
  | around, g :: gs => by
    rw [insideAll, List.filterMap_cons_none rfl, List.filterMap_append, filterMap_inside,
      filterMap_insideAll, contentsAll_cons]
end

/-- They are the commands of the tree, in order. -/
theorem bullets_eq (root : Group) : root.bullets = root.allCommands.map (·.2) :=
  filterMap_inside [] root

end Group

/-- The picked bullet is the command of a run from the picker. -/
theorem picker_command? (settings : Settings) (s : Session) :
    Start.picker.command? settings s = s.pickedPosition.bind fun i =>
      (Group.ofCommands settings.commands settings.sortOrder).bullets[i]? := by
  rw [Start.command?, Option.map_bind, Group.bullets_eq]
  congr 1
  funext i
  exact (List.getElem?_map ..).symm

/-- **The view of a tree shows exactly what can be seen.**  Whatever groups are open, its lines are
    those of the entries in the outline that have only open groups around them, in the order of the
    outline.  The outline has an entry for whatever stands below the root, and no group twice.
    With every group of the tree open all entries have their line, and the commands among them
    are those of the tree in order.  So the position of a bullet, given to the picker, runs its
    command. -/
theorem treeView_exact :
    (∀ (root : Group) isOpen iconColor color, root.lines isOpen iconColor color =
      (root.outline.filter (Group.Entry.isVisible isOpen)).map
        (Group.Entry.line isOpen iconColor color)) ∧
    (∀ (root : Group) around item, ⟨around, item⟩ ∈ root.outline ↔ Group.Stands root around item) ∧
    (∀ cs order ss root, Group.Reaches (Group.ofCommands cs order) ss root →
      (Group.paths root.outline).Nodup) ∧
    (∀ (root : Group) isOpen iconColor color,
      (∀ around g, Group.Stands root around (.group g) → isOpen g.path = true) →
      root.lines isOpen iconColor color =
        root.outline.map (Group.Entry.line isOpen iconColor color)) ∧
    (∀ root : Group, root.bullets = root.allCommands.map (·.2)) ∧
    (∀ (s : Session) settings i c, s.onDisk = .ok settings → s.pickedPosition = some i →
      (Group.ofCommands settings.commands settings.sortOrder).bullets[i]? = some c →
      tryOn (Action.run none).attempt s =
        tryOn (Attempt.launch settings c) ((Start.picker.preamble settings).run s).2) := by
  have hlines : ∀ (root : Group) isOpen iconColor color, root.lines isOpen iconColor color =
      (root.outline.filter (Group.Entry.isVisible isOpen)).map
        (Group.Entry.line isOpen iconColor color) := by
    intro root isOpen iconColor color
    rw [Group.lines, Group.ofTree_eq_outline, List.map_map]
    exact List.map_congr_left fun e _ => Group.writeLine_row isOpen iconColor color e
  refine ⟨hlines, fun _ _ _ => Group.mem_outline, fun _ _ _ _ h => Group.nodup_outline_paths h,
    fun root isOpen iconColor color hopen => ?_, Group.bullets_eq,
    fun s settings i c hs hi hc => ?_⟩
  · rw [hlines, Group.filter_outline_of_all_open hopen]
  · have hpicked : Start.picker.command? settings s = some c := by
      rw [picker_command?, hi]
      exact hc
    exact Start.attempt_of_command hs hpicked

/-- The second bullet stands below the inside of a group, and is the first command of the file. -/
theorem treeView_exact_second :
    let first : Command := { title := "a", command := "x", group := some "B" }
    let second : Command := { title := "b", command := "y", group := some "B / C" }
    let settings : Settings := { commands := [first, second] }
    let s := Session.alone settings [.index 1]
    (s.onDisk = .ok settings ∧ s.pickedPosition = some 1 ∧
      (Group.ofCommands settings.commands settings.sortOrder).bullets[1]? = some first) ∧
    tryOn (Action.run none).attempt s =
      tryOn (Attempt.launch settings first) ((Start.picker.preamble settings).run s).2 := by
  intro first second settings s
  have hread : s.onDisk = .ok settings := Session.onDisk_alone _ (by decide +kernel)
  have hbullet : (Group.ofCommands settings.commands settings.sortOrder).bullets[1]? =
      some first := by
    decide +kernel
  exact ⟨⟨hread, rfl, hbullet⟩, treeView_exact.2.2.2.2.2 s settings 1 first hread rfl hbullet⟩

end CommandLauncher
