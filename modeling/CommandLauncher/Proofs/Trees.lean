/-
  TREES — the commands of a tree are those that it was made of.

  1. **Places** — `Reaches g ss n` says that the labels `ss` lead from `g` down to `n`.  It looks at
     the tree alone and follows any child with the label, not only the first one.

  2. **Growing** — putting a command into a tree adds that command to those below it and nothing
     else, however deep its group is and whether or not the groups on the way are there
     (`contents_insert`).  The induction is on the segments; at each level the changed child is
     found, or made, among the children.

  3. **Arranging** — arranging moves groups and commands within their level, whatever sort does it.
     So the commands below a tree are only permuted (`contents_arranged?`), and the same labels
     lead to the arranged groups (`reaches_arranged?`).  Where insertion is what the sort makes of
     every level it is what becomes of the tree (`arranged?_eq`).  The recursions follow the tree.
-/
import CommandLauncher.Proofs.Arranging
import CommandLauncher.CommandTree

namespace CommandLauncher.Group

/-! ## Places -/

/-- The labels `ss` lead from one group down to another. -/
inductive Reaches : Group → List String → Group → Prop
  | here (g : Group) : Reaches g [] g
  | down {g child n : Group} {ss : List String} (hmem : child ∈ g.groups)
      (hbelow : Reaches child ss n) : Reaches g (child.label :: ss) n

theorem Reaches.trans {g m n : Group} {ss ts : List String} (h : Reaches g ss m)
    (h' : Reaches m ts n) : Reaches g (ss ++ ts) n := by
  induction h with
  | here g => exact h'
  | down hmem _ ih => exact .down hmem (ih h')

mutual
/-- The commands of a tree are those of the groups in it, each with its group. -/
theorem mem_allCommands : ∀ {g n : Group} {c : Command},
    (n, c) ∈ g.allCommands ↔ (∃ ss, Reaches g ss n) ∧ c ∈ n.commands
  | ⟨label, path, gs, cs⟩, n, c => by
    rw [allCommands, List.mem_append, mem_allCommandsIn]
    constructor
    · rintro (⟨child, hchild, ⟨ss, hss⟩, hc⟩ | hown)
      · exact ⟨⟨_, .down hchild hss⟩, hc⟩
      · obtain ⟨c', hc', heq⟩ := List.mem_map.mp hown
        obtain ⟨rfl, rfl⟩ := Prod.mk.inj heq
        exact ⟨⟨[], .here _⟩, hc'⟩
    · rintro ⟨⟨ss, hss⟩, hc⟩
      cases hss with
      | here => exact .inr (List.mem_map.mpr ⟨c, hc, rfl⟩)
      | down hchild hbelow => exact .inl ⟨_, hchild, ⟨_, hbelow⟩, hc⟩

theorem mem_allCommandsIn : ∀ {gs : List Group} {n : Group} {c : Command},
    (n, c) ∈ allCommandsIn gs ↔ ∃ child ∈ gs, (∃ ss, Reaches child ss n) ∧ c ∈ n.commands
  | [], n, c => by simp [allCommandsIn]
  | g :: gs, n, c => by
    rw [allCommandsIn, List.mem_append, mem_allCommands, mem_allCommandsIn]
    constructor
    · rintro (h | ⟨child, hchild, h⟩)
      · exact ⟨g, List.mem_cons_self, h⟩
      · exact ⟨child, List.mem_cons_of_mem g hchild, h⟩
    · rintro ⟨child, hchild, h⟩
      rcases List.mem_cons.mp hchild with rfl | hchild
      · exact .inl h
      · exact .inr ⟨child, hchild, h⟩
end

/-! ## Contents -/

/-- The commands below a group, without their groups. -/
def contents (g : Group) : List Command := g.allCommands.map (·.2)

/-- The commands below each of the groups. -/
def contentsAll (gs : List Group) : List Command := gs.flatMap contents

theorem contentsAll_cons (g : Group) (gs : List Group) :
    contentsAll (g :: gs) = g.contents ++ contentsAll gs := List.flatMap_cons

theorem map_allCommandsIn (gs : List Group) : (allCommandsIn gs).map (·.2) = contentsAll gs := by
  induction gs with
  | nil => simp [allCommandsIn, contentsAll]
  | cons g gs ih => rw [allCommandsIn, List.map_append, ih, contentsAll_cons, contents]

/-- Below a group are the commands of its children, then its own. -/
theorem contents_eq (g : Group) : g.contents = contentsAll g.groups ++ g.commands := by
  cases g with
  | mk label path gs cs =>
    rw [contents, allCommands, List.map_append, map_allCommandsIn, List.map_map]
    exact congrArg _ (List.map_id cs)

theorem contents_newChild (parent label : String) : (newChild parent label).contents = [] := by
  rw [contents_eq]
  rfl

/-! ## Growing -/

/-- A change that adds a command to any group adds it to the children among which one changes. -/
theorem contentsAll_updateChild {c : Command} {change : Group → Group}
    (hchange : ∀ g, (change g).contents.Perm (g.contents ++ [c])) (parent label : String)
    (gs : List Group) :
    (contentsAll (updateChild parent label change gs)).Perm (contentsAll gs ++ [c]) := by
  induction gs with
  | nil =>
    -- no child has the label, so one without commands is made and changed
    have h := hchange (newChild parent label)
    rw [contents_newChild] at h
    simpa [updateChild, contentsAll] using h
  | cons g gs ih =>
    rw [updateChild]
    split
    · have h : (contentsAll (change g :: gs)).Perm ((g.contents ++ [c]) ++ contentsAll gs) :=
        (hchange g).append_right (contentsAll gs)
      refine h.trans ?_
      -- the new command moves behind those of the children that follow
      rw [contentsAll_cons, List.append_assoc, List.append_assoc]
      exact List.perm_append_comm.append_left g.contents
    · rw [contentsAll_cons, contentsAll_cons, List.append_assoc]
      exact ih.append_left g.contents

/-- **Putting a command into a tree adds that command.** -/
theorem contents_insert (c : Command) (ss : List String) : ∀ g : Group,
    (insert c ss g).contents.Perm (g.contents ++ [c]) := by
  induction ss with
  | nil =>
    intro g
    rw [contents_eq, contents_eq, insert, List.append_assoc]
  | cons s ss ih =>
    intro g
    rw [contents_eq, contents_eq, insert]
    have h := contentsAll_updateChild ih g.path s g.groups
    refine (h.append_right g.commands).trans ?_
    rw [List.append_assoc, List.append_assoc]
    exact List.perm_append_comm.append_left (contentsAll g.groups)

theorem contents_grow (cs : List Command) : (grow cs).contents.Perm cs := by
  -- the fold starts from the root; the induction needs it from any tree
  have step : ∀ (cs : List Command) (tree : Group),
      (cs.foldl (fun tree c => insert c (segments c.group) tree) tree).contents.Perm
        (tree.contents ++ cs) := by
    intro cs
    induction cs with
    | nil => exact fun tree => by rw [List.append_nil]; exact List.Perm.refl _
    | cons c cs ih =>
      intro tree
      have h := (contents_insert c (segments c.group) tree).append_right cs
      rw [List.append_assoc, List.singleton_append] at h
      exact (ih (insert c (segments c.group) tree)).trans h
  have hroot : root.contents = [] := by
    rw [contents_eq]
    rfl
  have h := step cs root
  rw [hroot] at h
  exact h

/-! ## Arranging -/

theorem contentsAll_perm {gs hs : List Group} (h : gs.Perm hs) : (contentsAll gs).Perm (contentsAll hs) :=
  h.flatMap_right contents

section Arranging

variable {sorting : Sorting} {order : SortOrder}

/-- A group is arranged by arranging the groups below it, then sorting them and its commands. -/
theorem arranged?_eq_some {g g' : Group} : arranged? sorting order g = some g' ↔
    ∃ below, arrangedAll? sorting order g.groups = some below ∧
    ∃ gs, sorting.arrange? label below order = some gs ∧
    ∃ cs, sorting.arrange? Command.title g.commands order = some cs ∧
      ⟨g.label, g.path, gs, cs⟩ = g' := by
  cases g
  simp only [arranged?, Option.bind_eq_bind, Option.bind_eq_some_iff, Option.some.injEq]

theorem arrangedAll?_cons_eq_some {g : Group} {gs below : List Group} :
    arrangedAll? sorting order (g :: gs) = some below ↔
    ∃ first, arranged? sorting order g = some first ∧
    ∃ rest, arrangedAll? sorting order gs = some rest ∧ first :: rest = below := by
  simp only [arrangedAll?, Option.bind_eq_bind, Option.bind_eq_some_iff, Option.some.injEq]

/-- Labels and paths stay. -/
theorem label_of_arranged? {g g' : Group} (h : arranged? sorting order g = some g') :
    g'.label = g.label := by
  obtain ⟨_, _, _, _, _, _, rfl⟩ := arranged?_eq_some.mp h
  rfl

theorem path_of_arranged? {g g' : Group} (h : arranged? sorting order g = some g') :
    g'.path = g.path := by
  obtain ⟨_, _, _, _, _, _, rfl⟩ := arranged?_eq_some.mp h
  rfl

theorem mem_arrangedAll? {gs below : List Group} {n : Group}
    (h : arrangedAll? sorting order gs = some below) :
    n ∈ below ↔ ∃ old ∈ gs, arranged? sorting order old = some n := by
  induction gs generalizing below with
  | nil =>
    obtain rfl := Option.some.inj h
    simp
  | cons g gs ih =>
    obtain ⟨first, hfirst, rest, hrest, rfl⟩ := arrangedAll?_cons_eq_some.mp h
    simp only [List.mem_cons, ih hrest, exists_eq_or_imp, hfirst, Option.some.injEq]
    rw [eq_comm]

theorem arranged?_of_mem {gs below : List Group} {g : Group}
    (h : arrangedAll? sorting order gs = some below) (hg : g ∈ gs) :
    ∃ g', arranged? sorting order g = some g' := by
  induction gs generalizing below with
  | nil => cases hg
  | cons first gs ih =>
    obtain ⟨first', hfirst, rest, hrest, rfl⟩ := arrangedAll?_cons_eq_some.mp h
    rcases List.mem_cons.mp hg with rfl | hg
    · exact ⟨first', hfirst⟩
    · exact ih hrest hg

theorem map_label_arrangedAll? {gs below : List Group}
    (h : arrangedAll? sorting order gs = some below) : below.map label = gs.map label := by
  induction gs generalizing below with
  | nil =>
    obtain rfl := Option.some.inj h
    rfl
  | cons g gs ih =>
    obtain ⟨first, hfirst, rest, hrest, rfl⟩ := arrangedAll?_cons_eq_some.mp h
    rw [List.map_cons, List.map_cons, label_of_arranged? hfirst, ih hrest]

section Level

variable {g g' : Group} (h : arranged? sorting order g = some g')
include h

theorem mem_groups_of_arranged? {n : Group} :
    n ∈ g'.groups ↔ ∃ old ∈ g.groups, arranged? sorting order old = some n := by
  obtain ⟨below, hbelow, gs, hgroups, _, _, rfl⟩ := arranged?_eq_some.mp h
  rw [(sorting.arrange?_perm hgroups).mem_iff, mem_arrangedAll? hbelow]

theorem mem_commands_of_arranged? {c : Command} : c ∈ g'.commands ↔ c ∈ g.commands := by
  obtain ⟨_, _, _, _, cs, hcommands, rfl⟩ := arranged?_eq_some.mp h
  exact (sorting.arrange?_perm hcommands).mem_iff

/-- The labels on a level are permuted. -/
theorem labels_perm_of_arranged? : (g'.groups.map label).Perm (g.groups.map label) := by
  obtain ⟨below, hbelow, gs, hgroups, _, _, rfl⟩ := arranged?_eq_some.mp h
  rw [← map_label_arrangedAll? hbelow]
  exact (sorting.arrange?_perm hgroups).map label

end Level

/-- The same labels lead through an arranged tree, to the arranged groups. -/
theorem reaches_arranged? {g g' n : Group} {ss : List String}
    (h : arranged? sorting order g = some g') :
    Reaches g' ss n ↔ ∃ m, Reaches g ss m ∧ arranged? sorting order m = some n := by
  constructor
  · intro hr
    induction hr generalizing g with
    | here => exact ⟨g, .here g, h⟩
    | down hmem _ ih =>
      obtain ⟨old, hold, hchild⟩ := (mem_groups_of_arranged? h).mp hmem
      obtain ⟨m, hm, hn⟩ := ih hchild
      rw [label_of_arranged? hchild]
      exact ⟨m, .down hold hm, hn⟩
  · rintro ⟨m, hm, hn⟩
    induction hm generalizing g' with
    | here =>
      obtain rfl := Option.some.inj (h.symm.trans hn)
      exact .here _
    | @down g child m ss hmem _ ih =>
      -- the level below was arranged as a whole, so each group of it was
      obtain ⟨below, hbelow, gs, hgroups, _, _, rfl⟩ := arranged?_eq_some.mp h
      obtain ⟨child', hchild'⟩ := arranged?_of_mem hbelow hmem
      rw [← label_of_arranged? hchild']
      exact .down ((mem_groups_of_arranged? h).mpr ⟨child, hmem, hchild'⟩) (ih hchild' hn)

mutual
/-- Arranging permutes the commands below a group. -/
theorem contents_arranged? : ∀ {g g' : Group}, arranged? sorting order g = some g' →
    g'.contents.Perm g.contents
  | ⟨label, path, gs, cs⟩, g', h => by
    obtain ⟨below, hbelow, gs', hgroups, cs', hcommands, rfl⟩ := arranged?_eq_some.mp h
    rw [contents_eq, contents_eq]
    exact ((contentsAll_perm (sorting.arrange?_perm hgroups)).trans
      (contentsAll_arrangedAll? hbelow)).append (sorting.arrange?_perm hcommands)

theorem contentsAll_arrangedAll? : ∀ {gs below : List Group},
    arrangedAll? sorting order gs = some below → (contentsAll below).Perm (contentsAll gs)
  | [], below, h => by
    obtain rfl := Option.some.inj h
    exact List.Perm.refl _
  | g :: gs, below, h => by
    obtain ⟨first, hfirst, rest, hrest, rfl⟩ := arrangedAll?_cons_eq_some.mp h
    exact (contents_arranged? hfirst).append (contentsAll_arrangedAll? hrest)
end

/-- **A tree loses and invents no command.** -/
theorem contents_ofCommands? {cs : List Command} {tree : Group}
    (h : ofCommands? sorting cs order = some tree) : tree.contents.Perm cs :=
  (contents_arranged? h).trans (contents_grow cs)

section Insertion

-- what is known of the keys on a level, enough for the sort to return what insertion makes
variable (keys : List String → Prop)

mutual
/-- **Insertion.**  A sort that makes of every level what insertion makes of it makes the tree that
    insertion makes. -/
theorem arranged?_eq
    (hsort : ∀ {α : Type} (key : α → String) (xs : List α), keys (xs.map key) →
      sorting.arrange? key xs order = some (arrange key xs order)) : ∀ g : Group,
    (∀ ss n, Reaches g ss n → keys (n.groups.map label) ∧ keys (n.commands.map Command.title)) →
    arranged? sorting order g = some (arranged order g)
  | ⟨label, path, gs, cs⟩, h => by
    obtain ⟨hgroups, hcommands⟩ := h [] _ (.here _)
    have hbelow := arrangedAll?_eq hsort gs fun child hchild ss n hn => h _ n (.down hchild hn)
    have hlabels : (arrangedAll order gs).map Group.label = gs.map Group.label :=
      map_label_arrangedAll? hbelow
    rw [arranged?_eq_some]
    exact ⟨_, hbelow, _, hsort _ _ (hlabels ▸ hgroups), _, hsort _ _ hcommands, by rw [arranged]⟩

theorem arrangedAll?_eq
    (hsort : ∀ {α : Type} (key : α → String) (xs : List α), keys (xs.map key) →
      sorting.arrange? key xs order = some (arrange key xs order)) : ∀ gs : List Group,
    (∀ child ∈ gs, ∀ ss n, Reaches child ss n →
      keys (n.groups.map label) ∧ keys (n.commands.map Command.title)) →
    arrangedAll? sorting order gs = some (arrangedAll order gs)
  | [], _ => rfl
  | g :: gs, h => by
    rw [arrangedAll?_cons_eq_some]
    exact ⟨_, arranged?_eq hsort g (h g List.mem_cons_self), _,
      arrangedAll?_eq hsort gs fun child hchild => h child (List.mem_cons_of_mem g hchild),
      by rw [arrangedAll]⟩
end

theorem arranged?_insertion (order : SortOrder) (g : Group) :
    arranged? .insertion order g = some (arranged order g) := by
  refine arranged?_eq (fun _ => True) ?_ g fun _ _ _ => ⟨trivial, trivial⟩
  exact fun key xs _ => Sorting.arrange?_insertion key xs order

end Insertion

theorem ofCommands?_insertion (cs : List Command) (order : SortOrder) :
    ofCommands? .insertion cs order = some (ofCommands cs order) :=
  arranged?_insertion order (grow cs)

end Arranging

end CommandLauncher.Group
