/-
  ADDRESSES — a path leads to one group of a tree, and each group has one.

  1. **Siblings** — the children of a group in the tree of a list have different labels, since they
     are the firsts of a list (`nodup_labels_of_reaches`).  So following the first child with a
     label is following any (`descend_eq_some_iff`).

  2. **Paths and labels** — labels have no slashes and are not empty, so cutting a path gives back
     the labels that it was joined from (`pathLabels_join`).

  3. **Finding** — the group at a path is the one that the pieces of the path lead to, and with its
     own path every group is found (`ofCommands_addressed`), whatever sort arranged the tree.
-/
import CommandLauncher.Proofs.Groups

namespace CommandLauncher

/-! ## Cutting what was joined -/

theorem Text.split_join {ss : List String} (hne : ss ≠ []) (h : ∀ s ∈ ss, '/' ∉ s.toList) :
    split '/' (join "/" ss) = ss := by
  induction ss with
  | nil => exact absurd rfl hne
  | cons s ss ih =>
    have hs := splitChars_of_not_mem (h s List.mem_cons_self)
    cases ss with
    | nil => rw [join, split, hs, List.map_singleton, String.ofList_toList]
    | cons t ts =>
      have hrest := ih (List.cons_ne_nil t ts) fun s' hs' => h s' (List.mem_cons_of_mem s hs')
      have htext : (s ++ "/" ++ join "/" (t :: ts)).toList =
          s.toList ++ '/' :: (join "/" (t :: ts)).toList := by
        rw [String.toList_append, String.toList_append, List.append_assoc]
        rfl
      rw [join, split, htext, splitChars_append_sep, hs, List.map_append, List.map_singleton,
        String.ofList_toList, ← split, hrest]
      · rfl
      · exact List.cons_ne_nil t ts

namespace Group

theorem pathLabels_join {ss : List String} (h : ∀ s ∈ ss, IsLabel s) :
    pathLabels (Text.join "/" ss) = ss := by
  by_cases hne : ss = []
  · rw [hne]
    decide
  · rw [pathLabels, Text.split_join hne fun s hs => (h s hs).2.2, List.filter_eq_self]
    intro s hs
    simpa using (h s hs).1

/-! ## Siblings -/

/-- Among children with different labels each is the first one with its label. -/
theorem find?_label_eq {gs : List Group} (hnodup : (gs.map label).Nodup) {g : Group} (hg : g ∈ gs) :
    gs.find? (fun child => child.label = g.label) = some g := by
  induction gs with
  | nil => cases hg
  | cons first gs ih =>
    obtain ⟨hfirst, hnodup⟩ := List.nodup_cons.mp hnodup
    rcases List.mem_cons.mp hg with rfl | hg
    · exact List.find?_cons_of_pos (by simp)
    · rw [List.find?_cons_of_neg, ih hnodup hg]
      intro heq
      exact hfirst (of_decide_eq_true heq ▸ List.mem_map_of_mem hg)

/-- Where siblings have different labels, the first children with the labels are the way down. -/
theorem descend_eq_some_iff {g n : Group} {ss : List String}
    (hnodup : ∀ ts m, Reaches g ts m → (m.groups.map label).Nodup) :
    descend ss g = some n ↔ Reaches g ss n := by
  induction ss generalizing g with
  | nil =>
    constructor
    · intro h
      obtain rfl := Option.some.inj h
      exact .here _
    · rintro ⟨⟩
      rfl
  | cons s ss ih =>
    have hchild : ∀ child ∈ g.groups, (descend ss child = some n ↔ Reaches child ss n) :=
      fun child hchild => ih fun ts m hm => hnodup _ m (.down hchild hm)
    rw [descend, Option.bind_eq_some_iff]
    constructor
    · rintro ⟨child, hfind, hbelow⟩
      have hmem := List.mem_of_find?_eq_some hfind
      have hlabel : child.label = s := by simpa using List.find?_some hfind
      rw [← hlabel]
      exact .down hmem ((hchild child hmem).mp hbelow)
    · rintro (_ | ⟨hmem, hbelow⟩)
      exact ⟨_, find?_label_eq (hnodup [] g (.here g)) hmem, (hchild _ hmem).mpr hbelow⟩

section Tree

variable {sorting : Sorting} {cs : List Command} {order : SortOrder} {tree : Group}
  (htree : ofCommands? sorting cs order = some tree) {ss : List String} {n : Group}
include htree

theorem nodup_labels_of_reaches (h : Reaches tree ss n) : (n.groups.map label).Nodup := by
  obtain ⟨old, hold, hn⟩ := (reaches_arranged? htree).mp h
  exact (labels_perm_of_arranged? hn).nodup_iff.mpr ((holds_grow cs).reached hold).nodup_labels

/-- A group is found with labels exactly where they lead to it. -/
theorem descend_tree : descend ss tree = some n ↔ Reaches tree ss n :=
  descend_eq_some_iff fun _ _ h => nodup_labels_of_reaches htree h

theorem pathLabels_of_reaches (h : Reaches tree ss n) : pathLabels n.path = ss := by
  rw [path_of_reaches htree h, pathLabels_join (isLabel_of_reaches htree h)]

end Tree

/-- **Paths address groups uniquely.**  This holds of every tree that a sort makes of a list.
    Siblings have different labels, and these are not empty, trimmed and without slashes.  The
    path of a group is the labels that lead to it, joined by slashes; with it the group is found,
    and no two groups share one.  What is found with any path is the group that the pieces of the
    path lead to. -/
theorem ofCommands_addressed (sorting : Sorting) (cs : List Command) (order : SortOrder)
    (tree : Group) (htree : ofCommands? sorting cs order = some tree) :
    (∀ ss n, Reaches tree ss n →
      (n.groups.map label).Nodup ∧ ∀ child ∈ n.groups, IsLabel child.label) ∧
    (∀ ss n, Reaches tree ss n → n.path = Text.join "/" ss ∧ tree.find? n.path = some n) ∧
    (∀ ss ts n m, Reaches tree ss n → Reaches tree ts m → n.path = m.path → ss = ts ∧ n = m) ∧
    (∀ path n, tree.find? path = some n ↔
      Reaches tree ((Text.split '/' path).filter fun s => !s.isEmpty) n) := by
  refine ⟨fun ss n h => ⟨nodup_labels_of_reaches htree h, fun child hchild => ?_⟩,
    fun ss n h => ⟨path_of_reaches htree h, ?_⟩,
    fun ss ts n m hn hm hpath => ?_, fun path n => descend_tree htree⟩
  · have hbelow := h.trans (.down hchild (.here child))
    exact isLabel_of_reaches htree hbelow child.label (List.mem_append_right ss List.mem_cons_self)
  · rw [find?, pathLabels_of_reaches htree h]
    exact (descend_tree htree).mpr h
  · have hlabels : ss = ts := by
      rw [← pathLabels_of_reaches htree hn, hpath, pathLabels_of_reaches htree hm]
    subst hlabels
    refine ⟨rfl, Option.some.inj ?_⟩
    rw [← (descend_tree htree).mpr hn, (descend_tree htree).mpr hm]

/-- Three groups whose labels are a cycle of the comparison, in turned order: each is found. -/
theorem ofCommands_addressed_turned :
    ∃ tree, ofCommands? turning
        [{ title := "a", command := "a", group := some "I\u0307Ⱥ" },
          { title := "b", command := "b", group := some "İⱥ / x" },
          { title := "c", command := "c", group := some "I\u0307ⱥ" }] .alphabetical = some tree ∧
      tree.groups.map label = ["I\u0307ⱥ", "İⱥ", "I\u0307Ⱥ"] ∧
      ∀ ss n, Reaches tree ss n → tree.find? n.path = some n := by
  have hlabels : (ofCommands? turning
      [{ title := "a", command := "a", group := some "I\u0307Ⱥ" },
        { title := "b", command := "b", group := some "İⱥ / x" },
        { title := "c", command := "c", group := some "I\u0307ⱥ" }] .alphabetical).map
      (fun tree => tree.groups.map label) = some ["I\u0307ⱥ", "İⱥ", "I\u0307Ⱥ"] := by
    decide +kernel
  obtain ⟨tree, htree, hlabels⟩ := Option.map_eq_some_iff.mp hlabels
  refine ⟨tree, htree, hlabels, fun ss n h => ?_⟩
  exact ((ofCommands_addressed turning _ .alphabetical tree htree).2.1 ss n h).2

end Group

end CommandLauncher
