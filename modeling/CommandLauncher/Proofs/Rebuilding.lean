/-
  REBUILDING — a tree is told by the commands that it holds, and listing them gives it back.

  1. **One tree** — what a tree holds says which commands and labels stand at which place.  Two
     trees that hold the same at every place, up to the order in which they are arranged, are the
     same tree once they are arranged (`Holds.arranged_eq`).  The induction is on the first tree,
     with the other one generalised: their children are paired by their labels.

  2. **Listing** — `listed g` lists the commands of a tree as `allCommands` does, each with the
     labels that lead to it instead of its group.  It names no other commands than those the tree
     holds, but in another order: child groups come before the commands of their parent.

  3. **Holding the listing** — the commands below a child are listed in one piece, under its label,
     and there is at least one.  So the first labels of the listing are the labels of the children
     in their order, and what it leaves behind one is the listing of that child.  Hence a tree
     also holds its own listing (`Holds.listing`), and the tree of the listed commands is the
     tree they were listed from (`ofCommands_relisted`).
-/
import CommandLauncher.Proofs.Arranging
import CommandLauncher.Proofs.Groups

namespace CommandLauncher.Group

open Template (firsts mem_firsts)

/-! ## One tree -/

/-- Lists with the same images are equal if their elements with one image are. -/
theorem eq_of_map_eq {α β : Type} {f : α → β} {xs ys : List α} (h : xs.map f = ys.map f)
    (heq : ∀ x ∈ xs, ∀ y ∈ ys, f x = f y → x = y) : xs = ys := by
  induction xs generalizing ys with
  | nil => exact (List.map_eq_nil_iff.mp h.symm).symm
  | cons x xs ih =>
    cases ys with
    | nil => cases h
    | cons y ys =>
      obtain ⟨hhead, htail⟩ := List.cons.inj h
      rw [heq x List.mem_cons_self y List.mem_cons_self hhead,
        ih htail fun a ha b hb => heq a (List.mem_cons_of_mem x ha) b (List.mem_cons_of_mem y hb)]

/-- A group is told by its four parts. -/
theorem eq_of_parts {g g' : Group} (hlabel : g.label = g'.label) (hpath : g.path = g'.path)
    (hgroups : g.groups = g'.groups) (hcommands : g.commands = g'.commands) : g = g' := by
  cases g
  cases g'
  simp_all

/-- The labels of arranged groups are the arranged labels. -/
theorem map_label_arranged_groups (order : SortOrder) (g : Group) :
    (arranged order g).groups.map label = arrange id (g.groups.map label) order := by
  rw [arranged_groups]
  refine (map_arrange id label _ order).trans ?_
  rw [List.map_map]
  exact congrArg (arrange id · order) (List.map_congr_left fun g _ => arranged_label order g)

section OneTree

variable {g g' : Group} {ps qs : List (List String × Command)} {order : SortOrder}

/-- **One tree.**  Trees that hold the same commands and labels at every place, up to their
    arrangement, are arranged to the same tree. -/
theorem Holds.arranged_eq (h : Holds g ps) (h' : Holds g' qs) (hlabel : g.label = g'.label)
    (hpath : g.path = g'.path)
    (hown : ∀ ss, arrange Command.title (own (left ss ps)) order =
      arrange Command.title (own (left ss qs)) order)
    (hheads : ∀ ss, arrange id (heads (left ss ps)) order =
      arrange id (heads (left ss qs)) order) :
    arranged order g = arranged order g' := by
  induction h generalizing g' qs with
  | @intro g ps hcommands hlabels hpaths _ ih =>
    cases h' with
    | intro hcommands' hlabels' hpaths' hbelow' =>
      refine eq_of_parts ?_ ?_ (eq_of_map_eq (f := label) ?_ fun n hn n' hn' heq => ?_) ?_
      · rw [arranged_label, arranged_label, hlabel]
      · rw [arranged_path, arranged_path, hpath]
      · rw [map_label_arranged_groups, map_label_arranged_groups, hlabels, hlabels']
        exact hheads []
      · -- children with one label hold what is left behind it on both sides
        obtain ⟨child, hchild, rfl⟩ := mem_arranged_groups.mp hn
        obtain ⟨child', hchild', rfl⟩ := mem_arranged_groups.mp hn'
        rw [arranged_label, arranged_label] at heq
        have hbelow := hbelow' child' hchild'
        rw [← heq] at hbelow
        refine ih child hchild hbelow heq ?_ (fun ss => hown (child.label :: ss))
          fun ss => hheads (child.label :: ss)
        rw [hpaths child hchild, hpaths' child' hchild', heq, hpath]
      · rw [arranged_commands, arranged_commands, hcommands, hcommands']
        exact hown []

end OneTree

theorem mem_own {ps : List (List String × Command)} {c : Command} : c ∈ own ps ↔ ([], c) ∈ ps := by
  simp [own]

/-! ## Listing -/

/-- A placed command one level further down. -/
def under (s : String) (p : List String × Command) : List String × Command := (s :: p.1, p.2)

mutual
/-- The commands below a group with the labels that lead to them; child groups come first. -/
def listed : Group → List (List String × Command)
  | ⟨_, _, gs, cs⟩ => listedIn gs ++ cs.map (fun c => ([], c))

/-- The commands below each of the groups. -/
def listedIn : List Group → List (List String × Command)
  | [] => []
  | g :: gs => (listed g).map (under g.label) ++ listedIn gs
end

theorem listedIn_eq_flatMap (gs : List Group) :
    listedIn gs = gs.flatMap fun child => (listed child).map (under child.label) := by
  induction gs with
  | nil => rfl
  | cons g gs ih => rw [listedIn, ih, List.flatMap_cons]

theorem listed_eq (g : Group) :
    listed g = listedIn g.groups ++ g.commands.map fun c => ([], c) := by
  cases g
  rfl

mutual
/-- The listing has the commands of the tree in the order in which the tree lists them. -/
theorem map_listed : ∀ g : Group, (listed g).map (·.2) = g.contents
  | ⟨label, path, gs, cs⟩ => by
    rw [contents_eq, listed, List.map_append, map_listedIn gs, List.map_map]
    exact congrArg _ (List.map_id cs)

theorem map_listedIn : ∀ gs : List Group, (listedIn gs).map (·.2) = contentsAll gs
  | [] => rfl
  | g :: gs => by
    rw [listedIn, List.map_append, map_listedIn gs, List.map_map, contentsAll_cons,
      ← map_listed g]
    rfl
end

section Listing

variable {g : Group} {gs : List Group} {ps : List (List String × Command)} {s : String}
  {ss : List String} {c : Command}

theorem mem_listedIn :
    (ss, c) ∈ listedIn gs ↔ ∃ child ∈ gs, ∃ ts, child.label :: ts = ss ∧ (ts, c) ∈ listed child := by
  rw [listedIn_eq_flatMap, List.mem_flatMap]
  refine exists_congr fun child => and_congr_right fun _ => ?_
  rw [List.mem_map]
  constructor
  · rintro ⟨⟨ts, c'⟩, hmem, heq⟩
    obtain ⟨rfl, rfl⟩ := Prod.mk.inj heq
    exact ⟨ts, rfl, hmem⟩
  · rintro ⟨ts, rfl, hmem⟩
    exact ⟨(ts, c), hmem, rfl⟩

/-- A tree lists what it holds. -/
theorem Holds.mem_listed (h : Holds g ps) : (ss, c) ∈ listed g ↔ (ss, c) ∈ ps := by
  induction h generalizing ss with
  | @intro g ps hcommands hlabels _ _ ih =>
    rw [listed_eq, List.mem_append, mem_listedIn]
    cases ss with
    | nil =>
      have hown : c ∈ g.commands ↔ ([], c) ∈ ps := by rw [hcommands, mem_own]
      simp [hown]
    | cons s ss =>
      have hnone : (s :: ss, c) ∉ g.commands.map fun c => (([] : List String), c) := by simp
      rw [or_iff_left hnone, ← mem_tails]
      constructor
      · rintro ⟨child, hchild, ts, heq, hmem⟩
        obtain ⟨rfl, rfl⟩ := List.cons.inj heq
        exact (ih child hchild).mp hmem
      · intro hmem
        -- a label that is in use is the label of a child
        have hs : s ∈ g.groups.map label := by
          rw [hlabels]
          exact mem_heads.mpr ⟨ss, c, mem_tails.mp hmem⟩
        obtain ⟨child, hchild, rfl⟩ := List.mem_map.mp hs
        exact ⟨child, hchild, ss, rfl, (ih child hchild).mpr hmem⟩

/-! ## Holding the listing -/

theorem own_listed (g : Group) : own (listed g) = g.commands := by
  have hbelow : (listedIn g.groups).filter (fun p => p.1 = []) = [] := by
    rw [List.filter_eq_nil_iff]
    rintro ⟨ss, c⟩ hmem
    obtain ⟨child, -, ts, rfl, -⟩ := mem_listedIn.mp hmem
    simp
  rw [own, listed_eq, List.filter_append, hbelow, List.nil_append, List.filter_eq_self.mpr]
  · rw [List.map_map]
    exact List.map_id _
  · simp

theorem tails_map_under_self (ps : List (List String × Command)) :
    tails s (ps.map (under s)) = ps := by
  have hback : tail? s ∘ under s = some := funext fun _ => if_pos rfl
  rw [tails, List.filterMap_map, hback, List.filterMap_some]

theorem tails_map_under_ne {t : String} (h : t ≠ s) (ps : List (List String × Command)) :
    tails s (ps.map (under t)) = [] := by
  rw [tails, List.filterMap_map, List.filterMap_eq_nil_iff]
  exact fun _ _ => if_neg h

/-- A label that no child has leaves nothing. -/
theorem tails_listedIn_of_not_mem (h : s ∉ gs.map label) : tails s (listedIn gs) = [] := by
  refine tails_eq_nil fun hmem => h ?_
  obtain ⟨ss, c, hmem⟩ := mem_heads.mp hmem
  obtain ⟨child, hchild, ts, heq, -⟩ := mem_listedIn.mp hmem
  rw [← (List.cons.inj heq).1]
  exact List.mem_map_of_mem hchild

theorem tails_listedIn (hnodup : (gs.map label).Nodup) {child : Group} (hchild : child ∈ gs) :
    tails child.label (listedIn gs) = listed child := by
  induction gs with
  | nil => cases hchild
  | cons g gs ih =>
    obtain ⟨hg, hnodup⟩ := List.nodup_cons.mp hnodup
    rw [listedIn, tails_append]
    rcases List.mem_cons.mp hchild with rfl | hchild
    · rw [tails_map_under_self, tails_listedIn_of_not_mem hg, List.append_nil]
    · have hne : g.label ≠ child.label := fun heq => hg (heq ▸ List.mem_map_of_mem hchild)
      rw [tails_map_under_ne hne, ih hnodup hchild, List.nil_append]

/-- Behind the label of a child the listing leaves the listing of the child. -/
theorem tails_listed (hnodup : (g.groups.map label).Nodup) {child : Group}
    (hchild : child ∈ g.groups) : tails child.label (listed g) = listed child := by
  have hown : tails child.label (g.commands.map fun c => ([], c)) = [] := by
    rw [tails, List.filterMap_map, List.filterMap_eq_nil_iff]
    exact fun _ _ => rfl
  rw [listed_eq, tails_append, hown, List.append_nil, tails_listedIn hnodup hchild]

/-- What repeats one element in front adds this element once. -/
theorem firsts_replicate_append (n : Nat) (s : String) (ss : List String) :
    firsts (List.replicate (n + 1) s ++ ss) = s :: (firsts ss).filter fun t => t ≠ s := by
  induction n with
  | zero => rfl
  | succ n ih =>
    rw [List.replicate_succ, List.cons_append, firsts, ih, List.filter_cons_of_neg (by simp),
      List.filter_filter]
    simp only [Bool.and_self]

/-- The first labels are those of the children, since each child lists something. -/
theorem heads_listedIn (hnodup : (gs.map label).Nodup) (hne : ∀ child ∈ gs, listed child ≠ []) :
    heads (listedIn gs) = gs.map label := by
  induction gs with
  | nil => rfl
  | cons g gs ih =>
    obtain ⟨hg, hnodup⟩ := List.nodup_cons.mp hnodup
    obtain ⟨hneg, hne⟩ := List.forall_mem_cons.mp hne
    have hfirst : ((listed g).map (under g.label)).filterMap (·.1.head?) =
        List.replicate ((listed g).length - 1 + 1) g.label := by
      have hsome : (fun p : List String × Command => p.1.head?) ∘ under g.label =
          fun _ => some g.label := rfl
      have hpos := List.length_pos_iff.mpr hneg
      rw [List.filterMap_map, hsome, List.filterMap_eq_map', List.map_const',
        Nat.sub_add_cancel hpos]
    rw [heads, listedIn, List.filterMap_append, hfirst, firsts_replicate_append, ← heads,
      ih hnodup hne, List.map_cons, List.filter_eq_self.mpr]
    intro t ht
    simpa using fun heq : t = g.label => hg (heq ▸ ht)

theorem heads_listed (hnodup : (g.groups.map label).Nodup)
    (hne : ∀ child ∈ g.groups, listed child ≠ []) : heads (listed g) = g.groups.map label := by
  have hown : (g.commands.map fun c => (([] : List String), c)).filterMap (·.1.head?) = [] := by
    rw [List.filterMap_map, List.filterMap_eq_nil_iff]
    exact fun _ _ => rfl
  rw [← heads_listedIn hnodup hne, heads, heads, listed_eq, List.filterMap_append, hown,
    List.append_nil]

/-- **Holding the listing.**  What a tree holds may as well be listed in the order of the tree. -/
theorem Holds.listing (h : Holds g ps) : Holds g (listed g) := by
  induction h with
  | @intro g ps hcommands hlabels hpaths hbelow ih =>
    have h : Holds g ps := .intro hcommands hlabels hpaths hbelow
    have hne : ∀ child ∈ g.groups, listed child ≠ [] := by
      intro child hchild
      obtain ⟨⟨ss, c⟩, hmem⟩ := List.exists_mem_of_ne_nil _ (h.tails_ne_nil hchild)
      exact List.ne_nil_of_mem ((hbelow child hchild).mem_listed.mpr hmem)
    refine .intro (own_listed g).symm (heads_listed h.nodup_labels hne).symm hpaths ?_
    intro child hchild
    rw [tails_listed h.nodup_labels hchild]
    exact ih child hchild

end Listing

/-! ## The tree of the listed commands -/

/-- The listing of the tree of a list is the list of its commands, placed. -/
theorem placed_contents (cs : List Command) : placed (grow cs).contents = listed (grow cs) := by
  rw [placed, ← map_listed, List.map_map]
  refine (List.map_congr_left fun p hp => ?_).trans (List.map_id _)
  obtain ⟨ss, c⟩ := p
  obtain ⟨-, hplace⟩ := mem_placed.mp ((holds_grow cs).mem_listed.mp hp)
  exact Prod.ext hplace rfl

theorem grow_label (cs : List Command) : (grow cs).label = "" :=
  List.foldlRecOn cs _ (motive := fun tree => tree.label = "") rfl fun tree h c _ =>
    (insert_label c _ tree).trans h

/-- **Rebuilding.**  The tree of the commands that a tree lists, in the order of the settings, is
    that tree: the same groups with the same labels and paths, and the same groups and commands
    in the same order at every level. -/
theorem ofCommands_relisted (cs : List Command) :
    ofCommands ((ofCommands cs .settings).allCommands.map (·.2)) .settings =
      ofCommands cs .settings := by
  have hrebuilt := holds_grow (grow cs).contents
  rw [placed_contents] at hrebuilt
  have hlabel : (grow (grow cs).contents).label = (grow cs).label := by
    rw [grow_label, grow_label]
  have hpath : (grow (grow cs).contents).path = (grow cs).path := by rw [grow_path, grow_path]
  rw [ofCommands, ofCommands, arranged_settings (grow cs)]
  exact (hrebuilt.arranged_eq (holds_grow cs).listing hlabel hpath (fun _ => rfl)
    fun _ => rfl).trans (arranged_settings _)

end CommandLauncher.Group
