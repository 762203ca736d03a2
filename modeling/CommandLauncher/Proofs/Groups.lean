/-
  GROUPS — where the commands of a list stand in their tree.

  1. **Placed commands** — a command is placed by the labels of the group it belongs to.  A list
     of placed commands tells everything about the tree it makes: the commands with no labels
     left stand in the root (`own`), the first labels name the children in the order of their
     first use (`heads`), and below a child is what the commands with its label leave (`tails`).

  2. **Holding** — `Holds g ps` says this of `g`, and of every group below it with what is left of
     `ps` there.  It is the invariant of growing: putting a command into a tree that holds `ps`
     gives a tree that holds `ps` and this command behind them (`Holds.insert`).  The induction
     is on the labels of the new command.  So the tree of a list holds the list (`holds_grow`).

  3. **The tree of a list** — so a level of the grown tree is told by the list alone
     (`level_of_reaches`), and arranging permutes it.  This is said of every sort that returns a
     tree.  Each does in the order of the settings, where nothing moves, and where the titles
     and the labels on every level are consistent.
-/
import CommandLauncher.Proofs.Occurrences
import CommandLauncher.Proofs.Trees
import CommandLauncher.Proofs.WellFormed

namespace CommandLauncher.Group

open Template (firsts mem_firsts nodup_firsts firsts_append_singleton)

/-! ## Placed commands -/

section Placed

variable {ps qs : List (List String × Command)} {s : String} {ss : List String} {c : Command}

/-- The commands with no labels left. -/
def own (ps : List (List String × Command)) : List Command := (ps.filter (·.1 = [])).map (·.2)

/-- The first labels, each once, in the order of their first use. -/
def heads (ps : List (List String × Command)) : List String := firsts (ps.filterMap (·.1.head?))

/-- What is left of a placed command behind a label. -/
def tail? (s : String) : List String × Command → Option (List String × Command)
  | ([], _) => none
  | (t :: ts, c) => if t = s then some (ts, c) else none

/-- What the commands with a first label leave behind it. -/
def tails (s : String) (ps : List (List String × Command)) : List (List String × Command) :=
  ps.filterMap (tail? s)

theorem mem_heads : s ∈ heads ps ↔ ∃ ss c, (s :: ss, c) ∈ ps := by
  rw [heads, mem_firsts, List.mem_filterMap]
  constructor
  · rintro ⟨⟨labels, c⟩, hp, hhead⟩
    obtain ⟨ss, rfl⟩ := List.head?_eq_some_iff.mp hhead
    exact ⟨ss, c, hp⟩
  · rintro ⟨ss, c, hp⟩
    exact ⟨_, hp, rfl⟩

theorem mem_tails : (ss, c) ∈ tails s ps ↔ (s :: ss, c) ∈ ps := by
  rw [tails, List.mem_filterMap]
  constructor
  · rintro ⟨⟨labels, c'⟩, hp, htail⟩
    cases labels with
    | nil => cases htail
    | cons t ts =>
      rw [tail?] at htail
      split at htail
      · rename_i hts
        obtain ⟨rfl, rfl⟩ := Prod.mk.inj (Option.some.inj htail)
        rwa [← hts]
      · cases htail
  · exact fun hp => ⟨_, hp, if_pos rfl⟩

/-- A label that is not used has nothing behind it. -/
theorem tails_eq_nil (h : s ∉ heads ps) : tails s ps = [] := by
  rw [List.eq_nil_iff_forall_not_mem]
  rintro ⟨ss, c⟩ hp
  exact h (mem_heads.mpr ⟨ss, c, mem_tails.mp hp⟩)

theorem tails_append : tails s (ps ++ qs) = tails s ps ++ tails s qs := List.filterMap_append

theorem heads_append_cons : heads (ps ++ [(s :: ss, c)]) =
    if s ∈ heads ps then heads ps else heads ps ++ [s] := by
  have hmem : s ∈ heads ps ↔ s ∈ ps.filterMap (·.1.head?) := mem_firsts
  rw [heads, List.filterMap_append]
  simp only [hmem]
  exact firsts_append_singleton _ s

theorem heads_append_nil : heads (ps ++ [([], c)]) = heads ps := by
  rw [heads, List.filterMap_append]
  exact congrArg firsts (List.append_nil _)

end Placed

/-! ## Holding -/

/-- A group holds placed commands: those with no labels left are its own, and what is left behind
    each first label is in the child with this label. -/
inductive Holds : Group → List (List String × Command) → Prop
  | intro {g : Group} {ps : List (List String × Command)}
      (hown : g.commands = own ps)
      (hlabels : g.groups.map label = heads ps)
      (hpaths : ∀ child ∈ g.groups, child.path = childPath g.path child.label)
      (hbelow : ∀ child ∈ g.groups, Holds child (tails child.label ps)) : Holds g ps

section Growing

variable {g : Group} {gs : List Group} {ps : List (List String × Command)} {c : Command}
  {s : String} {ss : List String}

theorem holds_of_empty (hgroups : g.groups = []) (hcommands : g.commands = []) : Holds g [] := by
  refine .intro hcommands (by rw [hgroups]; rfl) ?_ ?_
  · rw [hgroups]
    exact fun _ h => absurd h List.not_mem_nil
  · rw [hgroups]
    exact fun _ h => absurd h List.not_mem_nil

theorem insert_label (c : Command) (ss : List String) (g : Group) :
    (insert c ss g).label = g.label := by
  cases ss <;> rfl

theorem insert_path (c : Command) (ss : List String) (g : Group) :
    (insert c ss g).path = g.path := by
  cases ss <;> rfl

/-- A change that keeps labels changes no label; a new child comes last. -/
theorem map_label_updateChild {change : Group → Group} (hchange : ∀ g, (change g).label = g.label)
    (parent : String) (gs : List Group) :
    (updateChild parent s change gs).map label =
      if s ∈ gs.map label then gs.map label else gs.map label ++ [s] := by
  induction gs with
  | nil => exact congrArg (fun l => [l]) (hchange _)
  | cons g gs ih =>
    rw [updateChild]
    by_cases hg : g.label = s
    · simp [hg, hchange]
    · rw [if_neg hg, List.map_cons, ih, List.map_cons]
      by_cases hmem : s ∈ gs.map label
      · rw [if_pos hmem, if_pos (List.mem_cons_of_mem _ hmem)]
      · rw [if_neg hmem, if_neg, List.cons_append]
        exact fun h => (List.mem_cons.mp h).elim (fun heq => hg heq.symm) hmem

/-- A child after a change: another one, the one that was changed, or a new one. -/
theorem mem_updateChild {change : Group → Group} {parent : String} {child : Group}
    (hnodup : (gs.map label).Nodup) (h : child ∈ updateChild parent s change gs) :
    (child ∈ gs ∧ child.label ≠ s) ∨ (∃ old ∈ gs, old.label = s ∧ child = change old) ∨
      (s ∉ gs.map label ∧ child = change (newChild parent s)) := by
  induction gs with
  | nil => exact .inr (.inr ⟨List.not_mem_nil, List.mem_singleton.mp h⟩)
  | cons g gs ih =>
    obtain ⟨hg, hnodup⟩ := List.nodup_cons.mp hnodup
    rw [updateChild] at h
    split at h
    · rename_i hlabel
      rcases List.mem_cons.mp h with rfl | hmem
      · exact .inr (.inl ⟨g, List.mem_cons_self, hlabel, rfl⟩)
      · -- no later child has the label of the one that was changed
        refine .inl ⟨List.mem_cons_of_mem g hmem, fun heq => hg ?_⟩
        rw [hlabel, ← heq]
        exact List.mem_map_of_mem hmem
    · rename_i hlabel
      rcases List.mem_cons.mp h with rfl | hmem
      · exact .inl ⟨List.mem_cons_self, hlabel⟩
      · rcases ih hnodup hmem with ⟨hold, hne⟩ | ⟨old, hold, hs, rfl⟩ | ⟨hs, rfl⟩
        · exact .inl ⟨List.mem_cons_of_mem g hold, hne⟩
        · exact .inr (.inl ⟨old, List.mem_cons_of_mem g hold, hs, rfl⟩)
        · refine .inr (.inr ⟨fun hmem => ?_, rfl⟩)
          exact (List.mem_cons.mp hmem).elim (fun heq => hlabel heq.symm) hs

theorem Holds.nodup_labels (h : Holds g ps) : (g.groups.map label).Nodup := by
  cases h with
  | intro _ hlabels =>
    rw [hlabels]
    exact nodup_firsts _

/-- **Growing.**  Putting a command into a tree puts it behind the commands that the tree holds. -/
theorem Holds.insert (c : Command) (ss : List String) :
    ∀ {g : Group} {ps : List (List String × Command)}, Holds g ps →
      Holds (insert c ss g) (ps ++ [(ss, c)]) := by
  induction ss with
  | nil =>
    intro g ps h
    cases h with
    | intro hown hlabels hpaths hbelow =>
      refine .intro ?_ ?_ hpaths fun child hchild => ?_
      · rw [Group.insert, hown, own, own, List.filter_append, List.map_append]
        rfl
      · rw [heads_append_nil]
        exact hlabels
      · rw [tails_append, show tails child.label [([], c)] = [] from rfl, List.append_nil]
        exact hbelow child hchild
  | cons s ss ih =>
    intro g ps h
    have hnodup := h.nodup_labels
    cases h with
    | intro hown hlabels hpaths hbelow =>
      -- what the new command leaves behind a label: itself behind `s`, and nothing behind another
      have htails_self : tails s (ps ++ [(s :: ss, c)]) = tails s ps ++ [(ss, c)] := by
        simp [tails, tail?]
      have htails_ne : ∀ t, t ≠ s → tails t (ps ++ [(s :: ss, c)]) = tails t ps := fun t ht => by
        simp [tails, tail?, ht.symm]
      refine .intro ?_ ?_ ?_ ?_
      · rw [Group.insert, hown, own, own, List.filter_append, List.map_append]
        simp
      · rw [Group.insert, heads_append_cons, ← hlabels]
        exact map_label_updateChild (insert_label c ss) g.path g.groups
      · intro child hchild
        rcases mem_updateChild hnodup hchild with ⟨hold, -⟩ | ⟨old, hold, -, rfl⟩ | ⟨-, rfl⟩
        · exact hpaths child hold
        · rw [insert_path, insert_label]
          exact hpaths old hold
        · rw [insert_path, insert_label]
          rfl
      · intro child hchild
        rcases mem_updateChild hnodup hchild with ⟨hold, hne⟩ | ⟨old, hold, hs, rfl⟩ | ⟨hs, rfl⟩
        · rw [htails_ne _ hne]
          exact hbelow child hold
        · have hold' := hbelow old hold
          rw [insert_label, hs, htails_self]
          rw [hs] at hold'
          exact ih hold'
        · rw [hlabels] at hs
          rw [insert_label, show (newChild g.path s).label = s from rfl, htails_self,
            tails_eq_nil hs]
          exact ih (holds_of_empty rfl rfl)

/-- The commands of a list, each with the labels of its group. -/
def placed (cs : List Command) : List (List String × Command) :=
  cs.map fun c => (segments c.group, c)

/-- The tree of a list holds the list. -/
theorem holds_grow (cs : List Command) : Holds (grow cs) (placed cs) := by
  -- the fold starts from the root, which holds nothing; the induction needs it from any tree
  have step : ∀ (cs : List Command) (tree : Group) (ps : List (List String × Command)),
      Holds tree ps →
      Holds (cs.foldl (fun tree c => insert c (segments c.group) tree) tree)
        (ps ++ placed cs) := by
    intro cs
    induction cs with
    | nil =>
      intro tree ps h
      rwa [placed, List.map_nil, List.append_nil]
    | cons c cs ih =>
      intro tree ps h
      have h' := ih _ _ (h.insert c (segments c.group))
      rwa [List.append_assoc] at h'
  exact step cs root [] (holds_of_empty rfl rfl)

end Growing

/-! ## What stands below -/

section Reached

variable {g n : Group} {ps : List (List String × Command)} {c : Command} {s : String}
  {ss ts : List String}

/-- What placed commands leave behind labels. -/
def left : List String → List (List String × Command) → List (List String × Command)
  | [], ps => ps
  | s :: ss, ps => left ss (tails s ps)

theorem mem_left : (ts, c) ∈ left ss ps ↔ (ss ++ ts, c) ∈ ps := by
  induction ss generalizing ps with
  | nil => rfl
  | cons s ss ih => rw [left, ih, mem_tails, List.cons_append]

/-- A group in a tree holds what is left behind the labels that lead to it. -/
theorem Holds.reached (h : Holds g ps) (hr : Reaches g ss n) : Holds n (left ss ps) := by
  induction hr generalizing ps with
  | here => exact h
  | down hmem _ ih =>
    cases h with
    | intro _ _ _ hbelow => exact ih (hbelow _ hmem)

/-- Every placed command stands at its labels. -/
theorem Holds.exists_reached (h : Holds g ps) (hc : (ss, c) ∈ ps) :
    ∃ n, Reaches g ss n ∧ c ∈ n.commands := by
  induction ss generalizing g ps with
  | nil =>
    cases h with
    | intro hown =>
      refine ⟨g, .here g, ?_⟩
      rw [hown]
      exact List.mem_map.mpr ⟨_, List.mem_filter.mpr ⟨hc, by simp⟩, rfl⟩
  | cons s ss ih =>
    cases h with
    | intro _ hlabels _ hbelow =>
      have hs : s ∈ g.groups.map label := by
        rw [hlabels]
        exact mem_heads.mpr ⟨ss, c, hc⟩
      obtain ⟨child, hchild, rfl⟩ := List.mem_map.mp hs
      obtain ⟨n, hr, hmem⟩ := ih (hbelow child hchild) (mem_tails.mpr hc)
      exact ⟨n, .down hchild hr, hmem⟩

/-- No child is there without a command that asks for it. -/
theorem Holds.tails_ne_nil (h : Holds g ps) {child : Group} (hchild : child ∈ g.groups) :
    tails child.label ps ≠ [] := by
  cases h with
  | intro _ hlabels =>
    have hlabel : child.label ∈ heads ps := hlabels ▸ List.mem_map_of_mem hchild
    obtain ⟨ss, c, hmem⟩ := mem_heads.mp hlabel
    exact List.ne_nil_of_mem (mem_tails.mpr hmem)

theorem Holds.left_ne_nil (h : Holds g ps) (hr : Reaches g ss n) (hps : ss = [] → ps ≠ []) :
    left ss ps ≠ [] := by
  induction hr generalizing ps with
  | here => exact hps rfl
  | down hmem _ ih =>
    have hne := h.tails_ne_nil hmem
    cases h with
    | intro _ _ _ hbelow => exact ih (hbelow _ hmem) fun _ => hne

/-- So labels that lead to a group are the first ones of some command. -/
theorem Holds.exists_command (h : Holds g ps) (hr : Reaches g ss n) (hss : ss ≠ []) :
    ∃ ts c, (ss ++ ts, c) ∈ ps := by
  have hne := h.left_ne_nil hr fun hnil => absurd hnil hss
  obtain ⟨⟨ts, c⟩, hmem⟩ := List.exists_mem_of_ne_nil _ hne
  exact ⟨ts, c, mem_left.mp hmem⟩

/-- And no group is empty, except for the root. -/
theorem Holds.allCommands_ne_nil (h : Holds g ps) (hr : Reaches g ss n) (hss : ss ≠ []) :
    n.allCommands ≠ [] := by
  obtain ⟨ts, c, hmem⟩ := h.exists_command hr hss
  obtain ⟨m, hm, hc⟩ := (h.reached hr).exists_reached (mem_left.mpr hmem)
  exact List.ne_nil_of_mem (mem_allCommands.mpr ⟨⟨ts, hm⟩, hc⟩)

/-- The path of a group is made of the labels that lead to it. -/
theorem Holds.path_eq (h : Holds g ps) (hr : Reaches g ss n) :
    n.path = ss.foldl childPath g.path := by
  induction hr generalizing ps with
  | here => rfl
  | down hmem _ ih =>
    cases h with
    | intro _ _ hpaths hbelow => rw [ih (hbelow _ hmem), hpaths _ hmem, List.foldl_cons]

/-- What is left without labels are the commands that were placed at the labels. -/
theorem own_left (ss : List String) (ps : List (List String × Command)) :
    own (left ss ps) = (ps.filter (·.1 = ss)).map (·.2) := by
  induction ss generalizing ps with
  | nil => rfl
  | cons s ss ih =>
    rw [left, ih]
    induction ps with
    | nil => rfl
    | cons p ps ihps =>
      obtain ⟨labels, c⟩ := p
      cases labels with
      | nil =>
        rw [show tails s (([], c) :: ps) = tails s ps from rfl, ihps,
          List.filter_cons_of_neg (by simp)]
      | cons t ts =>
        by_cases hts : t = s <;> by_cases htss : ts = ss <;> simp_all [tails, tail?]

/-- The label behind `ss`, where `ss` is the beginning of the labels and not all of them. -/
def labelBehind? (ss labels : List String) : Option String :=
  if ss <+: labels then labels[ss.length]? else none

theorem filterMap_head?_left (ss : List String) (ps : List (List String × Command)) :
    (left ss ps).filterMap (·.1.head?) = ps.filterMap fun p => labelBehind? ss p.1 := by
  induction ss generalizing ps with
  | nil =>
    rw [left]
    congr 1
    funext p
    simp [labelBehind?, List.head?_eq_getElem?]
  | cons s ss ih =>
    rw [left, ih, tails, List.filterMap_filterMap]
    congr 1
    funext p
    obtain ⟨labels, c⟩ := p
    cases labels with
    | nil => simp [tail?, labelBehind?]
    | cons t ts =>
      by_cases hts : t = s
      · simp [tail?, labelBehind?, hts]
      · simp [tail?, labelBehind?, hts, Ne.symm hts]

end Reached

/-! ## Arranging -/

section Arranged

variable {order : SortOrder} {g child : Group}

theorem arrangedAll_eq_map (order : SortOrder) (gs : List Group) :
    arrangedAll order gs = gs.map (arranged order) := by
  induction gs with
  | nil => rfl
  | cons g gs ih => rw [arrangedAll, ih, List.map_cons]

@[simp]
theorem arranged_label (order : SortOrder) (g : Group) : (arranged order g).label = g.label := by
  cases g
  rfl

@[simp]
theorem arranged_path (order : SortOrder) (g : Group) : (arranged order g).path = g.path := by
  cases g
  rfl

theorem arranged_commands (order : SortOrder) (g : Group) :
    (arranged order g).commands = arrange Command.title g.commands order := by
  cases g
  rfl

theorem arranged_groups (order : SortOrder) (g : Group) :
    (arranged order g).groups = arrange label (g.groups.map (arranged order)) order := by
  cases g with
  | mk label path gs cs => rw [arranged, arrangedAll_eq_map]

theorem mem_arranged_groups :
    child ∈ (arranged order g).groups ↔ ∃ old ∈ g.groups, arranged order old = child := by
  rw [arranged_groups, (arrange_perm _ _ order).mem_iff, List.mem_map]

mutual
/-- In the order of the settings nothing moves. -/
theorem arranged_settings : ∀ g : Group, arranged .settings g = g
  | ⟨label, path, gs, cs⟩ => by
    rw [arranged, arrangedAll_settings]
    rfl

theorem arrangedAll_settings : ∀ gs : List Group, arrangedAll .settings gs = gs
  | [] => rfl
  | g :: gs => by
    rw [arrangedAll, arranged_settings g, arrangedAll_settings gs]
end

end Arranged

/-! ## The tree of a list -/

/-- A text that can be a label: it is not empty, has nothing to trim, and has no slash. -/
def IsLabel (s : String) : Prop := s ≠ "" ∧ Text.trim s = s ∧ '/' ∉ s.toList

theorem isLabel_of_mem_segments {group : Option String} {s : String} (h : s ∈ segments group) :
    IsLabel s := by
  rw [segments] at h
  split at h
  · obtain rfl := List.mem_singleton.mp h
    unfold IsLabel
    decide +kernel
  · rename_i hparts
    obtain ⟨⟨htrim, hblank⟩, hslash⟩ := Text.isTidy_of_mem_parts (hparts ▸ h)
    refine ⟨?_, htrim, hslash⟩
    rintro rfl
    exact absurd hblank (by decide)

/-- Below a path that is not empty, labels are joined to it. -/
theorem foldl_childPath {path : String} (hpath : path ≠ "") (ss : List String) :
    ss.foldl childPath path = Text.join "/" (path :: ss) := by
  induction ss generalizing path with
  | nil => rfl
  | cons s ss ih =>
    have hne : path ++ "/" ++ s ≠ "" := by simp
    rw [List.foldl_cons, childPath, if_neg hpath, ih hne]
    cases ss with
    | nil => rfl
    | cons t ts => simp only [Text.join, String.append_assoc]

/-- From the root they are joined to one another. -/
theorem foldl_childPath_root {ss : List String} (h : ∀ s ∈ ss, s ≠ "") :
    ss.foldl childPath "" = Text.join "/" ss := by
  cases ss with
  | nil => rfl
  | cons s ss =>
    rw [List.foldl_cons, childPath, if_pos rfl]
    exact foldl_childPath (h s List.mem_cons_self) ss

section OfCommands

variable {cs : List Command} {order : SortOrder} {ss : List String} {n : Group}

theorem grow_path (cs : List Command) : (grow cs).path = "" :=
  List.foldlRecOn cs _ (motive := fun tree => tree.path = "") rfl fun tree h c _ =>
    (insert_path c _ tree).trans h

theorem mem_placed {c : Command} : (ss, c) ∈ placed cs ↔ c ∈ cs ∧ segments c.group = ss := by
  rw [placed, List.mem_map]
  constructor
  · rintro ⟨c', hc', heq⟩
    obtain ⟨rfl, rfl⟩ := Prod.mk.inj heq
    exact ⟨hc', rfl⟩
  · rintro ⟨hc, rfl⟩
    exact ⟨c, hc, rfl⟩

/-- In the grown tree the commands of a group are those of the list with its labels, in the order
    of the list, and its children stand in the order in which the list first uses them. -/
theorem level_of_reaches (h : Reaches (grow cs) ss n) :
    n.commands = cs.filter (fun c => segments c.group = ss) ∧
    n.groups.map label = firsts (cs.filterMap fun c => labelBehind? ss (segments c.group)) := by
  cases (holds_grow cs).reached h with
  | intro hown hlabels =>
    constructor
    · rw [hown, own_left, placed, List.filter_map, List.map_map]
      exact List.map_id _
    · rw [hlabels, heads, filterMap_head?_left, placed, List.filterMap_map]
      rfl

section Tree

variable {sorting : Sorting} {tree : Group} (htree : ofCommands? sorting cs order = some tree)
include htree

/-- Every label on the way to a group is a label of a command. -/
theorem isLabel_of_reaches (h : Reaches tree ss n) : ∀ s ∈ ss, IsLabel s := by
  obtain ⟨m, hm, -⟩ := (reaches_arranged? htree).mp h
  intro s hs
  obtain ⟨ts, c, hmem⟩ := (holds_grow cs).exists_command hm (List.ne_nil_of_mem hs)
  have hmember : s ∈ segments c.group := by
    rw [(mem_placed.mp hmem).2]
    exact List.mem_append_left ts hs
  exact isLabel_of_mem_segments hmember

theorem path_of_reaches (h : Reaches tree ss n) : n.path = Text.join "/" ss := by
  have hne : ∀ s ∈ ss, s ≠ "" := fun s hs => (isLabel_of_reaches htree h s hs).1
  obtain ⟨m, hm, hn⟩ := (reaches_arranged? htree).mp h
  rw [path_of_arranged? hn, (holds_grow cs).path_eq hm, grow_path cs, foldl_childPath_root hne]

/-- The commands of a group are those that were placed at its labels. -/
theorem mem_commands_of_reaches (h : Reaches tree ss n) {c : Command} :
    c ∈ n.commands ↔ c ∈ cs ∧ segments c.group = ss := by
  obtain ⟨m, hm, hn⟩ := (reaches_arranged? htree).mp h
  rw [mem_commands_of_arranged? hn, (level_of_reaches hm).1, List.mem_filter, decide_eq_true_iff]

end Tree

theorem mem_of_labelBehind? {labels : List String} {s : String}
    (h : labelBehind? ss labels = some s) : s ∈ labels := by
  rw [labelBehind?] at h
  split at h
  · exact List.mem_of_getElem? h
  · cases h

/-- Titles and labels without the dotted capital I are consistent on every level. -/
theorem consistent_levels (htitles : ∀ c ∈ cs, 'İ' ∉ c.title.toList)
    (hlabels : ∀ c ∈ cs, ∀ s ∈ segments c.group, 'İ' ∉ s.toList) (ss : List String) :
    Consistent ((cs.filter fun c => segments c.group = ss).map Command.title) ∧
    Consistent (cs.filterMap fun c => labelBehind? ss (segments c.group)) := by
  constructor
  · refine consistent_of_undotted (List.forall_mem_map.mpr fun c hc => ?_)
    exact htitles c (List.mem_filter.mp hc).1
  · refine consistent_of_undotted fun s hs => ?_
    obtain ⟨c, hc, hbehind⟩ := List.mem_filterMap.mp hs
    exact hlabels c hc s (mem_of_labelBehind? hbehind)

/-- Where the titles and the labels on every level are consistent, and in the order of the settings
    whatever they are, every sort returns the tree that insertion makes. -/
theorem ofCommands?_eq {sorting : Sorting} (h : order = .settings ∨ ∀ ss,
      Consistent ((cs.filter fun c => segments c.group = ss).map Command.title) ∧
      Consistent (cs.filterMap fun c => labelBehind? ss (segments c.group))) :
    ofCommands? sorting cs order = some (ofCommands cs order) := by
  refine arranged?_eq (fun keys => order = .settings ∨ Consistent keys)
    (fun key xs hkeys => sorting.arrange?_eq hkeys) (grow cs) fun ss n hn => ?_
  obtain ⟨hcommands, hlabels⟩ := level_of_reaches hn
  rw [hcommands, hlabels]
  rcases h with hsettings | hlevels
  · exact ⟨.inl hsettings, .inl hsettings⟩
  · obtain ⟨htitles, hlabels⟩ := hlevels ss
    exact ⟨.inr (hlabels.of_subset fun _ => mem_firsts.mp), .inr htitles⟩

end OfCommands

/-- **A tree loses and invents nothing.**  In the order of the settings, and where the titles and
    the labels on every level are consistent, every sort returns the tree that insertion makes; on
    other keys it may give up.  Whatever tree it makes of a list, the commands of the tree are those
    of the list.  Each stands in the group at its labels, and the path of that group is the labels
    joined by slashes.  The root has no commands of its own, every other group has a command below
    it, and the counts are right.  In the order of the settings the commands of a group are those
    of the list with its labels, in the order of the list, and its children stand in the order in
    which the list first uses them. -/
theorem ofCommands_exact (sorting : Sorting) (cs : List Command) (order : SortOrder) :
    ((order = .settings ∨ ∀ ss,
        Consistent ((cs.filter fun c => segments c.group = ss).map Command.title) ∧
        Consistent (cs.filterMap fun c => labelBehind? ss (segments c.group))) →
      ofCommands? sorting cs order = some (ofCommands cs order)) ∧
    ∀ tree, ofCommands? sorting cs order = some tree →
      (tree.allCommands.map (·.2)).Perm cs ∧
      (∀ n c, (n, c) ∈ tree.allCommands →
        Reaches tree (segments c.group) n ∧ n.path = Text.join "/" (segments c.group)) ∧
      tree.commands = [] ∧
      (∀ ss n, Reaches tree ss n →
        (ss ≠ [] → n.allCommands ≠ []) ∧ n.count = n.allCommands.length) ∧
      (order = .settings → ∀ ss n, Reaches tree ss n →
        n.commands = cs.filter (fun c => segments c.group = ss) ∧
        n.groups.map label = firsts (cs.filterMap fun c => labelBehind? ss (segments c.group))) := by
  refine ⟨ofCommands?_eq, fun tree htree => ?_⟩
  refine ⟨contents_ofCommands? htree, fun n c hmem => ?_, ?_, fun ss n hr => ⟨fun hss => ?_, ?_⟩, ?_⟩
  · obtain ⟨⟨ss, hr⟩, hc⟩ := mem_allCommands.mp hmem
    obtain ⟨-, rfl⟩ := (mem_commands_of_reaches htree hr).mp hc
    exact ⟨hr, path_of_reaches htree hr⟩
  · rw [List.eq_nil_iff_forall_not_mem]
    intro c hc
    exact segments_ne_nil c.group ((mem_commands_of_reaches htree (.here _)).mp hc).2
  · obtain ⟨m, hm, hn⟩ := (reaches_arranged? htree).mp hr
    have hne := (holds_grow cs).allCommands_ne_nil hm hss
    have hlength := (contents_arranged? hn).length_eq
    rw [contents, contents, List.length_map, List.length_map] at hlength
    rwa [← List.length_pos_iff, hlength, List.length_pos_iff]
  · exact (length_allCommands n).symm
  · rintro rfl ss n hr
    rw [ofCommands?_eq (.inl rfl), ofCommands, arranged_settings] at htree
    obtain rfl := Option.some.inj htree
    exact level_of_reaches hr

/-- A sort that turns items with inconsistent keys round. -/
def turning : Sorting where
  sort? key xs :=
    if Consistent (xs.map key) then some (arrange key xs .alphabetical) else some xs.reverse
  perm h := by
    split at h
    · obtain rfl := Option.some.inj h
      exact arrange_perm _ _ .alphabetical
    · obtain rfl := Option.some.inj h
      exact List.reverse_perm _
  sorts h := ⟨_, if_pos h, arrange_isSorted h⟩

/-- With this sort: three commands in one group, whose titles are a cycle of the comparison, come
    in turned order, and commands in nested groups come as insertion arranges them. -/
theorem ofCommands_exact_turned :
    (∃ tree, ofCommands? turning
        [{ title := "I\u0307Ⱥ", command := "a" }, { title := "İⱥ", command := "b" },
          { title := "I\u0307ⱥ", command := "c" }] .alphabetical = some tree ∧
      tree.allCommands.map (·.2.title) = ["I\u0307ⱥ", "İⱥ", "I\u0307Ⱥ"] ∧
      (tree.allCommands.map (·.2)).Perm
        [{ title := "I\u0307Ⱥ", command := "a" }, { title := "İⱥ", command := "b" },
          { title := "I\u0307ⱥ", command := "c" }]) ∧
    ofCommands? turning
        [{ title := "ship", command := "./ship", group := some "Ops/Deploy" },
          { title := "logs", command := "tail", group := some "Ops" }] .alphabetical =
      some (ofCommands
        [{ title := "ship", command := "./ship", group := some "Ops/Deploy" },
          { title := "logs", command := "tail", group := some "Ops" }] .alphabetical) := by
  constructor
  · have htitles : (ofCommands? turning
        [{ title := "I\u0307Ⱥ", command := "a" }, { title := "İⱥ", command := "b" },
          { title := "I\u0307ⱥ", command := "c" }] .alphabetical).map
        (fun tree => tree.allCommands.map (·.2.title)) =
          some ["I\u0307ⱥ", "İⱥ", "I\u0307Ⱥ"] := by
      decide +kernel
    obtain ⟨tree, htree, htitles⟩ := Option.map_eq_some_iff.mp htitles
    exact ⟨tree, htree, htitles, ((ofCommands_exact turning _ .alphabetical).2 tree htree).1⟩
  · exact (ofCommands_exact turning _ .alphabetical).1
      (.inr (consistent_levels (by decide +kernel) (by decide +kernel)))

end CommandLauncher.Group
