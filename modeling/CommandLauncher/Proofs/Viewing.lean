/-
  VIEWING — what a view of the variables shows in the course of time.

  1. **Lines** — the line of a variable tells how many commands refer to it (`Variable.line_inj`).
     So settings with the same variables in the same order have the same lines exactly if each
     variable has as many uses in one as in the other (`variableLines_eq_iff`).

  2. **Held lines** — a view that keeps what it was told last holds the lines of those settings
     (`held`).

  3. **Steps** — an action tells of the variables whenever it changes them or their order.  One
     that changes the commands tells of the commands only (`after_shows`).

  4. **Courses** — a course falls into what led to the last refresh of the variables and what came
     since (`Follows`).  By induction on the course a view shows the variables as they are now, in
     their order of now, each with the uses that it had at that refresh (`variableView_follows`).

  5. **What is not current** — these need not be the uses that it has now; and where the settings
     are in the state file, opening a group takes all variables away (`variableView_stale`).
-/
import Mathlib.Data.List.Induction
import CommandLauncher.Proofs.Telling

namespace CommandLauncher

open Session

/-! ## Lines -/

theorem writeLine_append (color : Bool) (xs ys : List Span) :
    writeLine color (xs ++ ys) = writeLine color xs ++ writeLine color ys := by
  induction xs with
  | nil => simp
  | cons x xs ih => rw [List.cons_append, writeLine_cons, writeLine_cons, ih, String.append_assoc]

/-- What is painted can be seen. -/
theorem Span.write_inj (color : Bool) (style : Style) {t u : String} :
    Span.write color ⟨t, style⟩ = Span.write color ⟨u, style⟩ ↔ t = u := by
  rw [Span.write, Span.write]
  split
  · rw [Style.paint, Style.paint, String.append_left_inj, String.append_right_inj]
  · rfl

namespace Settings

/-- The number of uses can be read off its text. -/
theorem usesText_injective : Function.Injective usesText := by
  have hread : ∀ n, Nat.ofDigitChars 10
      (((usesText n).toList.drop 9).takeWhile Char.isDigit) 0 = n := by
    intro n
    have hdigits : ∀ c ∈ Nat.toDigits 10 n, c.isDigit = true := fun c hc =>
      Nat.isDigit_of_mem_toDigits (by decide) (by decide) hc
    have hstart : "(used by ".toList.length = 9 := by decide
    rw [usesText, String.append_assoc, String.toList_append, String.toList_append,
      List.drop_left' hstart, Nat.toString_eq_ofList_toDigits, String.toList_ofList,
      List.takeWhile_append_of_pos hdigits]
    -- what follows starts with a blank
    have hrest :
        (if n = 1 then " command)" else " commands)").toList.takeWhile Char.isDigit = [] := by
      split <;> decide
    rw [hrest, List.append_nil]
    exact Nat.ofDigitChars_ten_toDigits
  intro n m h
  rw [← hread n, ← hread m, h]

theorem usesText_isEmpty (n : Nat) : (usesText n).isEmpty = false := by
  rw [String.isEmpty_eq_false_iff]
  intro h
  have htext := congrArg String.toList h
  simp [usesText] at htext

end Settings

/-- What a line ends with: a variable that is used has a remark on it. -/
theorem writeLine_uses (color : Bool) (k : Nat) :
    writeLine color (Row.remark (if k = 0 then none else some (Settings.usesText k))) =
      if k = 0 then "" else "  " ++ Span.write color ⟨Settings.usesText k, .dim⟩ := by
  split
  · rfl
  · rw [Row.remark, if_neg (by simp [Settings.usesText_isEmpty]), writeLine_cons, writeLine_cons,
      writeLine_nil, Span.write_ordinary, String.append_empty]

/-- The line of a variable tells how often it is used. -/
theorem Variable.line_inj (v : Variable) (color : Bool) {n m : Nat} :
    writeLine color (v.spans n) = writeLine color (v.spans m) ↔ n = m := by
  obtain ⟨start, hspans⟩ : ∃ start, ∀ k, v.spans k =
      start ++ Row.remark (if k = 0 then none else some (Settings.usesText k)) := ⟨_, fun _ => rfl⟩
  refine ⟨fun h => ?_, fun h => h ▸ rfl⟩
  rw [hspans, hspans, writeLine_append, writeLine_append, String.append_right_inj,
    writeLine_uses, writeLine_uses] at h
  split at h <;> split at h
  · omega
  · simp [String.ext_iff] at h
  · simp [String.ext_iff] at h
  · rw [String.append_right_inj, Span.write_inj] at h
    exact Settings.usesText_injective h

/-- Settings that differ at most in their commands show the same lines exactly if every variable
    has the same number of uses in both. -/
theorem Settings.variableLines_eq_iff {seen now : Settings} (hvars : now.vars = seen.vars)
    (horder : now.sortOrder = seen.sortOrder) (color : Bool) :
    seen.variableLines color = now.variableLines color ↔
      ∀ v ∈ now.vars, seen.uses v.name = now.uses v.name := by
  rw [variableLines, variableLines, hvars, horder, List.map_inj_left]
  refine forall_congr' fun v => ?_
  rw [(arrange_perm Variable.name seen.vars seen.sortOrder).mem_iff, Variable.line_inj]

/-! ## Held lines -/

/-- The settings that the subscriber with the number `n` is told of for their variables. -/
def Event.toldOfVars? (n : Nat) : Event → Option Settings
  | .refreshed k .vars settings => if k = n then some settings else none
  | _ => none

/-- The settings that it was told of last. -/
def lastTold (n : Nat) (es : List Event) : Option Settings :=
  (es.filterMap (Event.toldOfVars? n)).getLast?

/-- The lines that it holds if it keeps those of the settings that it was told of last. -/
def held (n : Nat) (color : Bool) (lines : List String) (es : List Event) : List String :=
  match lastTold n es with
  | some settings => settings.variableLines color
  | none => lines

section LastTold

variable {n : Nat}

theorem lastTold_append (es fs : List Event) :
    lastTold n (es ++ fs) = (lastTold n fs).or (lastTold n es) := by
  rw [lastTold, List.filterMap_append, List.getLast?_append, lastTold, lastTold]

/-- Only signals matter. -/
theorem lastTold_signals (es : List Event) : lastTold n (signals es) = lastTold n es := by
  rw [lastTold, signals, List.filterMap_filter, lastTold]
  congr 2
  funext e
  cases e <;> rfl

theorem lastTold_eq_none {es : List Event} (h : ∀ e ∈ es, e.isRefresh = false) :
    lastTold n es = none := by
  rw [lastTold, List.getLast?_eq_none_iff, List.filterMap_eq_nil_iff]
  intro e he
  cases e with
  | refreshed => cases h _ he
  | _ => rfl

/-- Of a refresh of the commands it takes no note. -/
theorem lastTold_commands (now : Settings) (k : Nat) :
    lastTold n (deliveries .commands now k) = none := by
  rw [lastTold, List.getLast?_eq_none_iff, List.filterMap_eq_nil_iff]
  intro e he
  obtain ⟨_, -, rfl⟩ := List.mem_map.mp he
  rfl

/-- A refresh of the variables reaches it if it is among the subscribers. -/
theorem lastTold_vars (now : Settings) {k : Nat} (h : n < k) :
    lastTold n (deliveries .vars now k) = some now := by
  induction k with
  | zero => omega
  | succ k ih =>
    have hlast : lastTold n [.refreshed k .vars now] = if k = n then some now else none := by
      by_cases hk : k = n <;> simp [lastTold, Event.toldOfVars?, hk]
    have hsplit : deliveries .vars now (k + 1) =
        deliveries .vars now k ++ [.refreshed k .vars now] := by
      rw [deliveries, List.range_succ, List.map_append]
      rfl
    rw [hsplit, lastTold_append, hlast]
    split
    · rfl
    · exact ih (by omega)

end LastTold

/-! ## Steps -/

/-- The actions that change the list of the commands, if they come to something. -/
def Action.ChangesCommands : Action → Prop
  | add .commands => True
  | edit .commands _ => True
  | remove .commands _ => True
  | _ => False

/-- An action does not write the expansion state over the settings. -/
def Action.SparesSettings (a : Action) (s : Store) : Prop :=
  a.IsAboutGroups → Path.fileName? s.path ≠ some Expansion.fileName

/-- What need not be told to those who look at the variables: nothing has changed, or perhaps the
    commands have. -/
structure Unseen (commandsMayChange : Prop) (before now : Settings) : Prop where
  vars : now.vars = before.vars
  order : now.sortOrder = before.sortOrder
  commands : now = before ∨ commandsMayChange

namespace Unseen

variable {may more : Prop} {before now later : Settings}

theorem refl (may : Prop) (before : Settings) : Unseen may before before := ⟨rfl, rfl, .inl rfl⟩

theorem trans (h : Unseen may before now) (h' : Unseen more now later) :
    Unseen (may ∨ more) before later where
  vars := h'.vars.trans h.vars
  order := h'.order.trans h.order
  commands := by
    rcases h'.commands with rfl | hmore
    · exact h.commands.imp_right .inl
    · exact .inr (.inr hmore)

theorem weaken (h : Unseen may before now) (hmore : may → more) : Unseen more before now :=
  { h with commands := h.commands.imp_right hmore }

/-- Replacing the commands is not seen. -/
theorem replace (h : may) (before : Settings) (entries : List Part.commands.Entry) :
    Unseen may before (Part.commands.catalog.replace entries before) :=
  ⟨rfl, rfl, .inr h⟩

end Unseen

section Occasion

variable {s : Session} {before now : Settings} {a : Action} {part : Part} {notes : List Event}
  {shows : Settings → Prop} (h : Occasion s before a part notes shows)

include h

/-- Before an occasion is told, nobody is told of anything. -/
theorem Occasion.notes_quiet : ∀ e ∈ notes, e.isRefresh = false := by
  cases h with
  | saved => exact List.forall_mem_singleton.mpr rfl
  | _ => exact nofun

/-- An occasion that is told as one of the commands leaves the variables and their order. -/
theorem Occasion.unseen (hpart : part = .commands) (hshows : shows now)
    (hspares : a.SparesSettings s.store) : Unseen a.ChangesCommands before now := by
  cases h with
  | saved u start entry s₁ hopen hform =>
    obtain ⟨p, edited⟩ := u
    obtain rfl : p = .commands := hpart
    obtain ⟨entries, -, rfl⟩ := hshows
    refine Unseen.replace ?_ before entries
    cases edited <;> trivial
  | removed p key hthere hattended hreply =>
    subst hpart hshows
    refine Unseen.replace ?_ before _
    trivial
  | toggled t hpaths =>
    rcases hshows with rfl | ⟨-, hname⟩
    · exact Unseen.refl _ _
    · exact absurd hname (hspares t.isAboutGroups)
  | requested =>
    subst hshows
    exact Unseen.refl _ _

end Occasion

/-- **An action tells of the variables**, or it leaves them and their order. -/
theorem after_shows {s : Session} {a : Action} {before : Settings} {n : Nat}
    (hread : s.onDisk = .ok before) (h : Undisturbed s a)
    (hyaml : (s.after a).files.YamlReadsBack s.store.path) (hn : n < s.subscribers.length) :
    ∃ es now, (s.after a).events = s.events ++ es ∧ (s.after a).onDisk = .ok now ∧
      (lastTold n es = some now ∨ lastTold n es = none ∧
        (a.SparesSettings s.store → Unseen a.ChangesCommands before now)) := by
  rcases after_ends hread h hyaml with
    ⟨⟨-, es, hes, hquiet⟩, honDisk⟩ | ⟨part, notes, shows, now, hocc, hshows, htells⟩
  · exact ⟨es, before, hes, honDisk, .inr ⟨lastTold_eq_none hquiet, fun _ => Unseen.refl _ _⟩⟩
  · obtain ⟨-, es, hes, hsignals⟩ := htells.sends
    have htold : lastTold n es = lastTold n (deliveries part now s.subscribers.length) := by
      rw [← lastTold_signals, hsignals, lastTold_append, lastTold_eq_none hocc.notes_quiet,
        Option.or_none]
    refine ⟨es, now, hes, htells.onDisk, ?_⟩
    rw [htold]
    cases part with
    | vars => exact .inl (lastTold_vars now hn)
    | commands => exact .inr ⟨lastTold_commands now _, hocc.unseen rfl hshows⟩

/-! ## Courses -/

/-- In the turns of a course the expansion state is not written over the settings. -/
def SparesSettings (s : Store) (course : List Happening) : Prop :=
  ∀ t, .takes t ∈ course → t.action.SparesSettings s

/-- In one of the turns of a course somebody was about to change the commands. -/
def ChangesCommands (course : List Happening) : Prop :=
  ∃ t, .takes t ∈ course ∧ t.action.ChangesCommands

/-- A course falls into what led to the settings `seen` and what came later.  The subscriber with
    the number `n` was told of them last for the variables, or they are those from the start.
    Since then it was not told of the variables, and these and their order stayed; nothing else
    changed either unless somebody was about to change the commands. -/
structure Follows (n : Nat) (s : Session) (start : Settings) (earlier later : List Happening)
    (es fs : List Event) (seen now : Settings) : Prop where
  before : (s.through earlier).events = s.events ++ es
  since : (s.through (earlier ++ later)).events = s.events ++ (es ++ fs)
  seenOnDisk : (s.through earlier).onDisk = .ok seen
  nowOnDisk : (s.through (earlier ++ later)).onDisk = .ok now
  told : lastTold n es = some seen ∨ earlier = [] ∧ es = [] ∧ seen = start
  untold : lastTold n fs = none
  unseen : SparesSettings s.store later → Unseen (ChangesCommands later) seen now

namespace Follows

variable {n : Nat} {s : Session} {start seen now next : Settings} {earlier later : List Happening}
  {es fs gs : List Event}

theorem refl (hread : s.onDisk = .ok start) : Follows n s start [] [] [] [] start start where
  before := (List.append_nil _).symm
  since := (List.append_nil _).symm
  seenOnDisk := hread
  nowOnDisk := hread
  told := .inr ⟨rfl, rfl, rfl⟩
  untold := rfl
  unseen := fun _ => Unseen.refl _ _

section Next

variable {happening : Happening} (h : Follows n s start earlier later es fs seen now)
  (hevents : (happening.run (s.through (earlier ++ later))).events =
    (s.through (earlier ++ later)).events ++ gs)
  (honDisk : (happening.run (s.through (earlier ++ later))).onDisk = .ok next)

include h hevents honDisk

/-- The subscriber is told of the variables. -/
theorem next_told (htold : lastTold n gs = some next) :
    Follows n s start (earlier ++ later ++ [happening]) [] (es ++ fs ++ gs) [] next next := by
  rw [← Session.through_append] at hevents honDisk
  have hbefore : (s.through (earlier ++ later ++ [happening])).events =
      s.events ++ (es ++ fs ++ gs) := by
    rw [hevents, h.since, List.append_assoc]
  have hlast : lastTold n (es ++ fs ++ gs) = some next := by
    rw [lastTold_append, htold, Option.some_or]
  exact {
    before := hbefore
    since := by rw [List.append_nil, List.append_nil, hbefore]
    seenOnDisk := honDisk
    nowOnDisk := by rw [List.append_nil, honDisk]
    told := .inl hlast
    untold := rfl
    unseen := fun _ => Unseen.refl _ _ }

/-- The subscriber is not told, and need not be. -/
theorem next_untold (huntold : lastTold n gs = none)
    (hunseen : SparesSettings s.store [happening] → Unseen (ChangesCommands [happening]) now next) :
    Follows n s start earlier (later ++ [happening]) es (fs ++ gs) seen next := by
  rw [← Session.through_append, List.append_assoc] at hevents honDisk
  refine { h with since := ?_, nowOnDisk := honDisk, untold := ?_, unseen := fun hspares => ?_ }
  · rw [hevents, h.since]
    simp only [List.append_assoc]
  · rw [lastTold_append, huntold, h.untold, Option.or_none]
  · have hlater := h.unseen fun t ht => hspares t (List.mem_append_left _ ht)
    have hlast := hunseen fun t ht => hspares t (List.mem_append_right _ ht)
    refine (hlater.trans hlast).weaken ?_
    rintro (⟨t, ht, hchanges⟩ | ⟨t, ht, hchanges⟩)
    · exact ⟨t, List.mem_append_left _ ht, hchanges⟩
    · exact ⟨t, List.mem_append_right _ ht, hchanges⟩

end Next

/-- What is held are the lines of the settings that were seen. -/
theorem held_eq (h : Follows n s start earlier later es fs seen now) (color : Bool) :
    held n color (start.variableLines color) (es ++ fs) = seen.variableLines color := by
  rw [held, lastTold_append, h.untold, Option.none_or]
  rcases h.told with htold | ⟨-, rfl, rfl⟩
  · rw [htold]
  · rfl

end Follows

/-- A subscriber follows every course. -/
theorem through_follows {n : Nat} {s : Session} {start : Settings} (course : List Happening)
    (hn : n < s.subscribers.length) (hread : s.onDisk = .ok start)
    (halone : ∀ earlier t later, course = earlier ++ .takes t :: later →
      t.Alone (s.through earlier)) :
    ∃ earlier later es fs seen now, course = earlier ++ later ∧
      Follows n s start earlier later es fs seen now := by
  induction course using List.reverseRecOn with
  | nil => exact ⟨[], [], [], [], start, start, rfl, Follows.refl hread⟩
  | append_singleton course happening ih =>
    have hbefore : ∀ earlier t later, course = earlier ++ .takes t :: later →
        t.Alone (s.through earlier) := fun earlier t later h =>
      halone earlier t (later ++ [happening]) (by rw [h]; simp)
    obtain ⟨earlier, later, es, fs, seen, now, rfl, h⟩ := ih hbefore
    have hsplit : earlier ++ later ++ [happening] = earlier ++ (later ++ [happening]) :=
      List.append_assoc ..
    cases happening with
    | joins subscriber =>
      refine ⟨earlier, _, es, fs ++ [], seen, now, hsplit, ?_⟩
      exact h.next_untold (List.append_nil _).symm h.nowOnDisk rfl fun _ => Unseen.refl _ _
    | takes t =>
      obtain ⟨hstore, hsubscribers, -⟩ := through_state (earlier ++ later) hread hbefore
      have hturn := halone (earlier ++ later) t [] rfl
      have hlistens : n < (s.through (earlier ++ later)).subscribers.length := by
        rw [hsubscribers, List.length_append]
        omega
      obtain ⟨gs, next, hgs, hnext, hshows⟩ := after_shows
        (s := t.opening (s.through (earlier ++ later))) h.nowOnDisk hturn.undisturbed hturn.yaml
        hlistens
      rw [Turn.opening_events] at hgs
      rcases hshows with htold | ⟨huntold, hunseen⟩
      · exact ⟨_, [], _, [], next, next, (List.append_nil _).symm, h.next_told hgs hnext htold⟩
      · refine ⟨earlier, _, es, fs ++ gs, seen, next, hsplit, ?_⟩
        have hmem : Happening.takes t ∈ [Happening.takes t] := List.mem_singleton.mpr rfl
        exact h.next_untold hgs hnext huntold fun hspares =>
          (hunseen (hstore ▸ hspares t hmem)).weaken fun hchanges => ⟨t, hmem, hchanges⟩

/-- A course of one turn in which nobody else comes between. -/
theorem Turn.Alone.course {t : Turn} {s : Session} (h : t.Alone s) (earlier : List Happening)
    (u : Turn) (later : List Happening) (hsplit : [.takes t] = earlier ++ .takes u :: later) :
    u.Alone (s.through earlier) := by
  cases earlier with
  | nil =>
    obtain rfl := Happening.takes.inj (List.cons.inj hsplit).1
    exact h
  | cons x earlier => simp at hsplit

/-- **A view of the variables lags behind in the uses, and in nothing else.**  Take any course of
    turns and subscriptions in which nobody else writes, and a subscriber who holds the lines of
    the settings from the start.  Let `seen` be the settings that it was told of last for the
    variables, or those from the start: it holds their lines.  Unless a group was opened or closed
    since in a state file that is the settings file itself, these are the variables that are on
    disk now, in the order of now, each with the number of its uses in `seen`.  They are the lines
    of the settings on disk exactly if no variable has another number of uses now, and none has if
    nobody was about to add, edit or remove a command since. -/
theorem variableView_follows (n : Nat) (s : Session) (course : List Happening) (start : Settings)
    (color : Bool) (hn : n < s.subscribers.length) (hread : s.onDisk = .ok start)
    (halone : ∀ earlier t later, course = earlier ++ .takes t :: later →
      t.Alone (s.through earlier)) :
    ∃ earlier later es fs seen now, course = earlier ++ later ∧
      Follows n s start earlier later es fs seen now ∧
      let lines := held n color (start.variableLines color) (es ++ fs)
      lines = seen.variableLines color ∧
      (SparesSettings s.store later →
        lines = ((arrange Variable.name now.vars now.sortOrder).map fun v =>
          writeLine color (v.spans (seen.uses v.name))) ∧
        (lines = now.variableLines color ↔ ∀ v ∈ now.vars, seen.uses v.name = now.uses v.name) ∧
        (¬ ChangesCommands later → lines = now.variableLines color)) := by
  obtain ⟨earlier, later, es, fs, seen, now, hcourse, h⟩ := through_follows course hn hread halone
  refine ⟨earlier, later, es, fs, seen, now, hcourse, h, ?_⟩
  intro lines
  have hlines : lines = seen.variableLines color := h.held_eq color
  refine ⟨hlines, fun hspares => ?_⟩
  have hunseen := h.unseen hspares
  rw [hlines]
  refine ⟨?_, Settings.variableLines_eq_iff hunseen.vars hunseen.order color, fun hcommands => ?_⟩
  · rw [Settings.variableLines, hunseen.vars, hunseen.order]
  · rw [hunseen.commands.resolve_right hcommands]

/-- A variable is removed, and what is held of the other one is current. -/
theorem variableView_follows_removal :
    let start : Settings :=
      { vars := [{ name := "a", value := "1" }, { name := "b" }],
        commands := [{ title := "t", command := "echo $\x7ba\x7d" }] }
    let s : Session := { alone start [] with subscribers := [.variableView] }
    let removal : Turn := { action := .remove .vars "b", answers := [{ reply := .flag true }] }
    let course := [Happening.takes removal]
    (0 < s.subscribers.length ∧ s.onDisk = .ok start ∧
      ∀ earlier t later, course = earlier ++ .takes t :: later → t.Alone (s.through earlier)) ∧
    ∃ es, (s.through course).events = s.events ++ es ∧
      held 0 false (start.variableLines false) es = ["a = 1  (used by 1 command)"] := by
  intro start s removal course
  have hread : s.onDisk = .ok start := onDisk_alone [] (by decide +kernel)
  have hformat : Format.ofPath s.store.path = .json := format_meanwhile
  have hn : 0 < s.subscribers.length := Nat.one_pos
  have hwritable : s.files.Writable s.store.path := writable_alone start []
  clear_value s
  have hquiet : ∀ answer ∈ removal.answers, answer.outside = none := by decide
  have halone : removal.Alone s :=
    ⟨⟨hquiet, nofun⟩, FileSystem.yamlReadsBack_of_json hformat _⟩
  obtain ⟨earlier, later, es, fs, seen, now, hsplit, hfollows, -, hspared⟩ :=
    variableView_follows 0 s course start false hn hread halone.course
  -- the only turn is about the variables
  have hturns : ∀ t, Happening.takes t ∈ later → t = removal := fun t ht =>
    Happening.takes.inj (List.mem_singleton.mp (show Happening.takes t ∈ course from
      hsplit ▸ List.mem_append_right _ ht))
  have hspares : SparesSettings s.store later := by
    intro t ht hgroups
    rw [hturns t ht] at hgroups
    exact hgroups.elim
  have hcommands : ¬ ChangesCommands later := by
    rintro ⟨t, ht, hchanges⟩
    rw [hturns t ht] at hchanges
    exact hchanges
  have hb : ∃ v ∈ start.vars, v.name = "b" := ⟨{ name := "b" }, by decide, rfl⟩
  have htells := removed_tells (s := removal.opening s) (p := .vars) hread hquiet hb ⟨rfl, rfl⟩
    hwritable halone.yaml
  have hnow : now = { start with vars := [{ name := "a", value := "1" }] } := by
    have honDisk := hfollows.nowOnDisk
    rw [← hsplit, s.through_turn] at honDisk
    exact Except.ok.inj (honDisk.symm.trans htells.onDisk)
  refine ⟨⟨hn, hread, halone.course⟩, es ++ fs, ?_, ?_⟩
  · rw [hsplit, hfollows.since]
  · rw [(hspared hspares).2.2 hcommands, hnow]
    decide +kernel

/-! ## What is not current -/

/-- The first command that is added tells of itself. -/
theorem Tells.first_command {s s₁ : Session} {before : Settings} {entry : Command}
    (hread : s.onDisk = .ok before) (hquiet : ∀ answer ∈ s.answers, answer.outside = none)
    (hnone : before.commands = [])
    (hform : tryOn (Form.commandForm none) (readSettings.run s).2 = (.ok entry, s₁))
    (hwritable : s.files.Writable s.store.path)
    (hyaml : (s.after (.add .commands)).files.YamlReadsBack s.store.path) :
    Tells .commands [informed ("Saved command " ++ Attempt.shownKey entry.title)]
      { before with commands := [entry] } s (s.after (.add .commands)) := by
  obtain ⟨entries, hplaced, htells⟩ :=
    saved_tells (u := ⟨.commands, none⟩) hread hquiet rfl hform hwritable hyaml
  have hentries : entries = [entry] := by
    replace hplaced : Placed Command.title entry.title entry before.commands entries := hplaced
    rw [hnone] at hplaced
    cases hplaced with
    | inPlace earlier later old hitems =>
      exact absurd (List.append_eq_nil_iff.mp hitems.symm).2 (List.cons_ne_nil _ _)
    | atEnd => rfl
  rw [hentries] at htells
  exact htells

/-- A toggle that is written over the settings themselves tells of empty ones. -/
theorem Tells.toggled_over {s : Session} {t : Toggle} {before : Settings}
    (hread : s.onDisk = .ok before) (hsame : Expansion.pathFor s.store = s.store.path)
    (hwritable : s.files.Writable s.store.path)
    (hpaths : t.apply s.expandedPaths ≠ s.expandedPaths) :
    Tells .commands [] {} s (s.after t.action) := by
  let e : Expansion := { paths := t.apply s.expandedPaths }
  obtain ⟨c, hc⟩ := read_of_onDisk hread
  obtain ⟨at', x, hat, hget⟩ := FileSystem.read_eq_ok_iff.mp hc
  have hformat : Format.ofPath s.store.path = .json :=
    Expansion.format_of_same hat (by rw [hget]; nofun) (by rw [hsame]; exact hat)
  obtain ⟨files, hwrite⟩ := hwritable (.text e.print)
  have hsave : e.save s.files (Expansion.pathFor s.store) = .ok files := by
    rw [Expansion.save, hsame, hwrite]
    rfl
  exact toggled_tells hpaths hsave
    (onDisk_of_expansion hformat (FileSystem.read_of_write hwrite))

/-- A subscriber that is not told of the variables holds what it held. -/
theorem Tells.held_eq {notes : List Event} {now : Settings} {s s' : Session} {n : Nat}
    (h : Tells .commands notes now s s') (hnotes : lastTold n notes = none) (color : Bool)
    (lines : List String) : ∃ es, s'.events = s.events ++ es ∧ held n color lines es = lines := by
  obtain ⟨-, es, hes, hsignals⟩ := h.sends
  refine ⟨es, hes, ?_⟩
  rw [held, ← lastTold_signals, hsignals, lastTold_append, lastTold_commands, hnotes]
  rfl

/-- A session in which the settings are in the state file. -/
def Session.inStateFile (settings : Settings) : Session where
  store := { path := "/.termdeck-state.json" }
  files := ({} : FileSystem).place "/.termdeck-state.json"
    (.file (.text (settings.print .json)) false)

theorem Session.format_inStateFile (settings : Settings) :
    Format.ofPath (inStateFile settings).store.path = .json := by
  show Format.ofPath "/.termdeck-state.json" = .json
  decide +kernel

theorem Session.onDisk_inStateFile {settings : Settings} (h : settings.problem? = none) :
    (inStateFile settings).onDisk = .ok settings := by
  have hread : (inStateFile settings).files.read "/.termdeck-state.json" =
      .ok (.text (settings.print .json)) := rfl
  exact onDisk_of_json (format_inStateFile settings) hread h

theorem Session.writable_inStateFile (settings : Settings) :
    (inStateFile settings).files.Writable "/.termdeck-state.json" := by
  have hread : (inStateFile settings).files.read "/.termdeck-state.json" =
      .ok (.text (settings.print .json)) := rfl
  exact FileSystem.writable_of_read hread fun _ _ => rfl

/-- What is held need not be current: when a command is added that refers to a variable, and when
    a group is opened while the settings are in the state file. -/
theorem variableView_stale :
    let start : Settings := { vars := [{ name := "a", value := "1" }] }
    let s : Session := { alone start [] with subscribers := [.variableView] }
    let s' : Session := { inStateFile start with subscribers := [.variableView] }
    let replies : List Reply :=
      [.text "t", .text "echo $\x7ba\x7d", .text "", .text "", .flag true]
    let addition : Turn :=
      { action := .add .commands, answers := replies.map fun reply => { reply } }
    let opening : Turn := { action := .expand "g" }
    (s.onDisk = .ok start ∧ addition.Alone s ∧
      ∃ es now, (addition.run s).events = s.events ++ es ∧ (addition.run s).onDisk = .ok now ∧
        held 0 false (start.variableLines false) es = ["a = 1"] ∧
        now.variableLines false = ["a = 1  (used by 1 command)"]) ∧
    s'.onDisk = .ok start ∧ opening.Alone s' ∧
      ∃ es now, (opening.run s').events = s'.events ++ es ∧ (opening.run s').onDisk = .ok now ∧
        held 0 false (start.variableLines false) es = ["a = 1"] ∧
        now.variableLines false = [] := by
  intro start s s' replies addition opening
  have hlines : start.variableLines false = ["a = 1"] := by decide +kernel
  rw [hlines]
  constructor
  · have hread : s.onDisk = .ok start := onDisk_alone [] rfl
    have hwritable : s.files.Writable s.store.path := writable_alone start []
    have hformat : Format.ofPath s.store.path = .json := format_meanwhile
    clear_value s
    have hquiet : ∀ answer ∈ addition.answers, answer.outside = none := by decide
    have halone : addition.Alone s :=
      ⟨⟨hquiet, nofun⟩, FileSystem.yamlReadsBack_of_json hformat _⟩
    obtain ⟨s₁, hform, -⟩ := completed_after_reading (x := Form.commandForm none)
      (a := { title := "t", command := "echo $\x7ba\x7d" }) (addition.opening s)
      (addition.opening s) fun es => ⟨rfl, rfl, rfl⟩
    have htells := Tells.first_command (s := addition.opening s) hread hquiet rfl hform hwritable
      halone.yaml
    obtain ⟨es, hes, hheld⟩ := htells.held_eq (n := 0) rfl false ["a = 1"]
    exact ⟨hread, halone, es, _, hes, htells.onDisk, hheld, by decide +kernel⟩
  · have hread : s'.onDisk = .ok start := onDisk_inStateFile rfl
    have hwritable : s'.files.Writable s'.store.path := writable_inStateFile start
    have hclosed : s'.expandedPaths = [] := by decide +kernel
    have hsame : Expansion.pathFor s'.store = s'.store.path := by decide +kernel
    have hformat : Format.ofPath s'.store.path = .json := format_inStateFile start
    clear_value s'
    have halone : opening.Alone s' := ⟨⟨nofun, nofun⟩, FileSystem.yamlReadsBack_of_json hformat _⟩
    have hopens : (Toggle.mk "g" true).apply s'.expandedPaths ≠ s'.expandedPaths := by
      rw [hclosed]
      decide
    have htells := Tells.toggled_over (s := opening.opening s') hread hsame hwritable hopens
    obtain ⟨es, hes, hheld⟩ := htells.held_eq (n := 0) rfl false ["a = 1"]
    exact ⟨hread, halone, es, {}, hes, htells.onDisk, hheld, rfl⟩

end CommandLauncher
