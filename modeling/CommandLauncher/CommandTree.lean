/-
  COMMAND TREE — commands sorted into groups within groups.

  1. **Data** — a `Group` has a label, a path, child groups and commands of its own.  The root
     has an empty label and path and no commands; the path of any other group is the labels from
     the root, joined by slashes.

  2. **Segments** — a command says where it belongs by a text such as `Ops/Deploy`.  Its
     segments are the trimmed parts between the slashes that are not empty; a command without
     any goes to the group `Ungrouped`.

  3. **Growing** — `insert` walks down along the segments, taking at each level the first child
     with the label or a new one at the end, and puts the command last in the group it reaches.
     `ofCommands?` inserts the commands one after another and then arranges every level with a
     given sort; there is no tree where the sort gives up.  `ofCommands` is the tree that
     insertion makes.

  4. **Reading** — `allCommands` lists the commands below a group with the group each stands in,
     child groups first; `count` is their number; `find?` follows a path of labels.
-/
import CommandLauncher.Command
import CommandLauncher.SortOrder
import CommandLauncher.Text.Parts

namespace CommandLauncher

/-- A node of the command tree. -/
structure Group where
  label : String
  path : String
  groups : List Group
  commands : List Command
deriving Repr, Inhabited

namespace Group

/-- The group that takes the commands without a group. -/
def ungrouped : String := "Ungrouped"

/-- The labels on the way from the root to a command's group. -/
def segments (group : Option String) : List String :=
  match Text.parts '/' (group.getD "") with
  | [] => [ungrouped]
  | s :: ss => s :: ss

theorem segments_ne_nil (group : Option String) : segments group ≠ [] := by
  unfold segments
  split <;> simp

/-! ## Growing a tree -/

/-- The root of a tree without commands. -/
def root : Group := { label := "", path := "", groups := [], commands := [] }

/-- The path of a group from its parent's path and its label. -/
def childPath (parent label : String) : String :=
  if parent = "" then label else parent ++ "/" ++ label

/-- A new group below the given path. -/
def newChild (parent label : String) : Group :=
  { label, path := childPath parent label, groups := [], commands := [] }

/-- Change the first group with the label; if there is none, append a changed new one. -/
def updateChild (parent label : String) (change : Group → Group) : List Group → List Group
  | [] => [change (newChild parent label)]
  | g :: gs => if g.label = label then change g :: gs else g :: updateChild parent label change gs

/-- Put a command last into the group at the end of the segments. -/
def insert (c : Command) : List String → Group → Group
  | [], g => { g with commands := g.commands ++ [c] }
  | s :: ss, g => { g with groups := updateChild g.path s (insert c ss) g.groups }

/-- The tree of the commands in the order in which they are given. -/
def grow (cs : List Command) : Group :=
  cs.foldl (fun tree c => insert c (segments c.group) tree) root

mutual
/-- Arrange the groups and the commands of every level. -/
def arranged (order : SortOrder) : Group → Group
  | ⟨label, path, gs, cs⟩ =>
    ⟨label, path, arrange Group.label (arrangedAll order gs) order,
      arrange Command.title cs order⟩

/-- Arrange the levels below each of the groups. -/
def arrangedAll (order : SortOrder) : List Group → List Group
  | [] => []
  | g :: gs => arranged order g :: arrangedAll order gs
end

/-- The tree of the commands. -/
def ofCommands (cs : List Command) (order : SortOrder) : Group := arranged order (grow cs)

mutual
/-- Arrange the groups and the commands of every level with a given sort. -/
def arranged? (sorting : Sorting) (order : SortOrder) : Group → Option Group
  | ⟨label, path, gs, cs⟩ => do
    let below ← arrangedAll? sorting order gs
    let groups ← sorting.arrange? Group.label below order
    let commands ← sorting.arrange? Command.title cs order
    some ⟨label, path, groups, commands⟩

/-- Arrange the levels below each of the groups with a given sort. -/
def arrangedAll? (sorting : Sorting) (order : SortOrder) : List Group → Option (List Group)
  | [] => some []
  | g :: gs => do
    let first ← arranged? sorting order g
    let rest ← arrangedAll? sorting order gs
    some (first :: rest)
end

/-- The tree of the commands, arranged with a given sort. -/
def ofCommands? (sorting : Sorting) (cs : List Command) (order : SortOrder) : Option Group :=
  arranged? sorting order (grow cs)

/-! ## Reading a tree -/

mutual
/-- The commands below a group, each with the group it stands in; child groups come first. -/
def allCommands : Group → List (Group × Command)
  | ⟨label, path, gs, cs⟩ =>
    allCommandsIn gs ++ cs.map (fun c => (⟨label, path, gs, cs⟩, c))

/-- The commands below each of the groups. -/
def allCommandsIn : List Group → List (Group × Command)
  | [] => []
  | g :: gs => allCommands g ++ allCommandsIn gs
end

mutual
/-- How many commands there are below a group. -/
def count : Group → Nat
  | ⟨_, _, gs, cs⟩ => cs.length + countIn gs

/-- How many commands there are below the groups. -/
def countIn : List Group → Nat
  | [] => 0
  | g :: gs => count g + countIn gs
end

/-- Follow the labels downwards. -/
def descend : List String → Group → Option Group
  | [], g => some g
  | s :: ss, g => (g.groups.find? (fun child => child.label = s)).bind (descend ss)

/-- The labels of a path: its pieces between slashes that are not empty. -/
def pathLabels (path : String) : List String :=
  (Text.split '/' path).filter (fun s => !s.isEmpty)

/-- The group at a path below `g`. -/
def find? (g : Group) (path : String) : Option Group := descend (pathLabels path) g

/-! ## The two ways of counting agree -/

mutual
theorem length_allCommands : ∀ g : Group, (allCommands g).length = count g
  | ⟨label, path, gs, cs⟩ => by
    rw [allCommands, count, List.length_append, List.length_map, length_allCommandsIn gs]
    omega

theorem length_allCommandsIn : ∀ gs : List Group, (allCommandsIn gs).length = countIn gs
  | [] => rfl
  | g :: gs => by
    rw [allCommandsIn, countIn, List.length_append, length_allCommands g,
      length_allCommandsIn gs]
end

end Group

/-! ## Running it -/

example : Group.segments (some " Ops / / Deploy") = ["Ops", "Deploy"] ∧
    Group.segments (some " / ") = ["Ungrouped"] := by decide +kernel
example :
    ((Group.ofCommands
      [{ title := "a", command := "x", group := some "B/C" }, { title := "b", command := "y" },
       { title := "c", command := "z", group := some "B" }] .settings).allCommands.map
        fun p => (p.1.path, p.2.title)) = [("B/C", "a"), ("B", "c"), ("Ungrouped", "b")] := by
  decide +kernel

end CommandLauncher
