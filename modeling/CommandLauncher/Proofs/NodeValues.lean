/-
  NODE VALUES — the value that a node holds, and dialects that read it as it stands.

  1. **Values** — a format says what its leaves hold.  A sequence that is whole holds the list of
     what its items hold, and a mapping that is whole a record if its keys hold texts.  Nothing
     else holds a value (`Node.value?`).

  2. **Faithful dialects** — a dialect is faithful to its leaves when it reads a leaf as what it
     holds, takes nothing but null for left out, and takes whole containers as they are.  What a
     node is read as is then a matter of the value that it holds alone (`Faithful.readText`, …).

  3. **Formats** — JSON and YAML are read by faithful dialects.  In YAML the style and the word of
     a scalar decide what it holds.
-/
import CommandLauncher.Document.Yaml.Reading
import CommandLauncher.Proofs.PrintedJson

namespace CommandLauncher.Document

/-! ## Values -/

/-- Whether a value is no container. -/
def Value.isScalar : Value → Bool
  | list _ => false
  | record _ => false
  | _ => true

/-- Whether a value is null. -/
def Value.isNull : Value → Bool
  | null => true
  | _ => false

namespace Node

variable {α : Type}

mutual
/-- The value that a node holds, if it holds one. -/
def value? (leaf? : α → Option Value) : Node α → Option Value
  | .leaf a => leaf? a
  | .sequence items true => (values? leaf? items).map .list
  | .mapping entries true => (fields? leaf? entries).map .record
  | _ => none

/-- The values that nodes hold. -/
def values? (leaf? : α → Option Value) : List (Node α) → Option (List Value)
  | [] => some []
  | n :: ns =>
    match n.value? leaf?, values? leaf? ns with
    | some v, some vs => some (v :: vs)
    | _, _ => none

/-- The fields that entries hold. -/
def fields? (leaf? : α → Option Value) : List (Node α × Node α) → Option (List (String × Value))
  | [] => some []
  | (k, n) :: entries =>
    match k.value? leaf?, n.value? leaf?, fields? leaf? entries with
    | some (.text name), some v, some fs => some ((name, v) :: fs)
    | _, _, _ => none
end

variable {leaf? : α → Option Value}

theorem values?_eq_nil {ns : List (Node α)} (h : values? leaf? ns = some []) : ns = [] := by
  cases ns with
  | nil => rfl
  | cons n ns =>
    rw [values?] at h
    split at h <;> cases h

theorem values?_eq_cons {ns : List (Node α)} {v : Value} {vs : List Value}
    (h : values? leaf? ns = some (v :: vs)) :
    ∃ n ns', ns = n :: ns' ∧ n.value? leaf? = some v ∧ values? leaf? ns' = some vs := by
  cases ns with
  | nil => cases h
  | cons n ns =>
    rw [values?] at h
    split at h
    · rename_i v' vs' hv hvs
      obtain ⟨rfl, rfl⟩ := List.cons.inj (Option.some.inj h)
      exact ⟨n, ns, rfl, hv, hvs⟩
    · cases h

theorem fields?_eq_nil {entries : List (Node α × Node α)} (h : fields? leaf? entries = some []) :
    entries = [] := by
  cases entries with
  | nil => rfl
  | cons entry entries =>
    rw [fields?] at h
    split at h <;> cases h

theorem fields?_eq_cons {entries : List (Node α × Node α)} {name : String} {v : Value}
    {fs : List (String × Value)} (h : fields? leaf? entries = some ((name, v) :: fs)) :
    ∃ k n entries', entries = (k, n) :: entries' ∧ k.value? leaf? = some (.text name) ∧
      n.value? leaf? = some v ∧ fields? leaf? entries' = some fs := by
  cases entries with
  | nil => cases h
  | cons entry entries =>
    obtain ⟨k, n⟩ := entry
    rw [fields?] at h
    split at h
    · rename_i name' v' fs' hk hn hentries
      obtain ⟨hfield, rfl⟩ := List.cons.inj (Option.some.inj h)
      obtain ⟨rfl, rfl⟩ := Prod.mk.inj hfield
      exact ⟨k, n, entries, rfl, hk, hn, hentries⟩
    · cases h

/-- Fields in a row are held by entries in a row. -/
theorem fields?_eq_append {fs gs : List (String × Value)} : ∀ {entries : List (Node α × Node α)},
    fields? leaf? entries = some (fs ++ gs) →
    ∃ es es', entries = es ++ es' ∧ fields? leaf? es = some fs ∧ fields? leaf? es' = some gs := by
  induction fs with
  | nil => exact fun {entries} h => ⟨[], entries, rfl, rfl, h⟩
  | cons f fs ih =>
    intro entries h
    obtain ⟨name, v⟩ := f
    obtain ⟨k, n, rest, rfl, hk, hn, hrest⟩ := fields?_eq_cons h
    obtain ⟨es, es', rfl, hes, hes'⟩ := ih hrest
    refine ⟨(k, n) :: es, es', rfl, ?_, hes'⟩
    rw [fields?, hk, hn, hes]

end Node

/-! ## Faithful dialects -/

namespace Dialect

variable {α : Type}

/-- A dialect that reads its leaves as what they hold, and whole containers as they are. -/
structure Faithful (d : Dialect α) (leaf? : α → Option Value) : Prop where
  text {a : α} {s : String} : leaf? a = some (.text s) → d.text (.leaf a) = .ok s
  flag {a : α} {b : Bool} : leaf? a = some (.flag b) → d.flag (.leaf a) = .ok b
  key {a : α} {s : String} : leaf? a = some (.text s) → d.key (.leaf a) = .ok (s, .field s)
  word {a : α} {s : String} : leaf? a = some (.text s) →
    ∃ unknown, d.word (.leaf a) = .ok { word := s, content := .ok (), unknown }
  present {a : α} {v : Value} : leaf? a = some v → v.isNull = false → d.isAbsent (.leaf a) = .ok false
  sequencePresent (items : List (Node α)) : d.isAbsent (.sequence items true) = .ok false
  items (items : List (Node α)) : d.items (.sequence items true) = .ok (items, true)
  parts (title : String) (entries : List (Node α × Node α)) :
    d.parts title (.mapping entries true) = .ok (.named entries true)
  scalar {a : α} {v : Value} : leaf? a = some v → v.isScalar = true

end Dialect

/-- What is no complaint needs no place. -/
theorem located_of_ok {α : Type} {x : Except Complaint α} {a : α} (h : x = .ok a)
    (record place : Place) : located record place x = .ok a := by
  rw [h]
  rfl

theorem bind_of_ok {ε α γ : Type} {x : Except ε α} {a : α} (h : x = .ok a) (f : α → Except ε γ) :
    (x >>= f) = f a := by
  rw [h]
  rfl

/-- No required field is missing where all of them were seen. -/
theorem none_missing {α β : Type} {shape : RecordShape α β} {seen : List String}
    (h : ∀ f ∈ shape.fields, f.required = true → f.name ∈ seen) :
    shape.fields.find? (fun f => f.required && !seen.contains f.name) = none := by
  refine List.find?_eq_none.mpr fun f hf hmissing => ?_
  obtain ⟨hneeded, hunseen⟩ := Bool.and_eq_true_iff.mp hmissing
  simp [h f hf hneeded] at hunseen

/-- An optional value that is there is read as its value. -/
theorem readOptional_some {α γ : Type} {d : Dialect α}
    {read : Place → Place → Node α → Except Fault γ} {record place : Place} {n : Node α} {x : γ}
    (hpresent : d.isAbsent n = .ok false) (h : read record place n = .ok x) :
    d.readOptional read record place n = .ok (some x) := by
  rw [Dialect.readOptional, bind_of_ok (located_of_ok hpresent record place)]
  exact bind_of_ok h _

namespace Dialect.Faithful

variable {α : Type} {d : Dialect α} {leaf? : α → Option Value} {n : Node α}

/-- A scalar is held by a leaf. -/
theorem leaf_of_value {v : Value} (h : n.value? leaf? = some v) (hv : v.isScalar = true) :
    ∃ a, n = .leaf a ∧ leaf? a = some v := by
  cases n with
  | leaf a => exact ⟨a, rfl, h⟩
  | sequence items whole =>
    cases whole with
    | false => cases h
    | true =>
      obtain ⟨vs, -, rfl⟩ := Option.map_eq_some_iff.mp h
      cases hv
  | mapping entries whole =>
    cases whole with
    | false => cases h
    | true =>
      obtain ⟨fs, -, rfl⟩ := Option.map_eq_some_iff.mp h
      cases hv
  | marked mark n => cases h
  | broken => cases h

variable (hd : d.Faithful leaf?)

include hd

/-- A list is held by a sequence. -/
theorem sequence_of_value {vs : List Value} (h : n.value? leaf? = some (.list vs)) :
    ∃ items, n = .sequence items true ∧ Node.values? leaf? items = some vs := by
  cases n with
  | leaf a => cases hd.scalar h
  | sequence items whole =>
    cases whole with
    | false => cases h
    | true =>
      obtain ⟨vs', hitems, hvs⟩ := Option.map_eq_some_iff.mp h
      obtain rfl := Value.list.inj hvs
      exact ⟨items, rfl, hitems⟩
  | mapping entries whole =>
    cases whole with
    | false => cases h
    | true =>
      obtain ⟨fs, -, hfs⟩ := Option.map_eq_some_iff.mp h
      cases hfs
  | marked mark n => cases h
  | broken => cases h

/-- A record is held by a mapping. -/
theorem mapping_of_value {fs : List (String × Value)} (h : n.value? leaf? = some (.record fs)) :
    ∃ entries, n = .mapping entries true ∧ Node.fields? leaf? entries = some fs := by
  cases n with
  | leaf a => cases hd.scalar h
  | sequence items whole =>
    cases whole with
    | false => cases h
    | true =>
      obtain ⟨vs, -, hvs⟩ := Option.map_eq_some_iff.mp h
      cases hvs
  | mapping entries whole =>
    cases whole with
    | false => cases h
    | true =>
      obtain ⟨fs', hentries, hfs⟩ := Option.map_eq_some_iff.mp h
      obtain rfl := Value.record.inj hfs
      exact ⟨entries, rfl, hentries⟩
  | marked mark n => cases h
  | broken => cases h

/-! ### Scalars -/

variable {s : String} {b : Bool} (record place : Place)

theorem readText (h : n.value? leaf? = some (.text s)) : d.readText record place n = .ok s := by
  obtain ⟨a, rfl, ha⟩ := leaf_of_value h rfl
  exact located_of_ok (hd.text ha) record place

theorem readFlag (h : n.value? leaf? = some (.flag b)) : d.readFlag record place n = .ok b := by
  obtain ⟨a, rfl, ha⟩ := leaf_of_value h rfl
  exact located_of_ok (hd.flag ha) record place

theorem readOptionalText (h : n.value? leaf? = some (.text s)) :
    d.readOptional d.readText record place n = .ok (some s) := by
  refine readOptional_some ?_ (hd.readText record place h)
  obtain ⟨a, rfl, ha⟩ := leaf_of_value h rfl
  exact hd.present ha rfl

theorem readOptionalFlag (h : n.value? leaf? = some (.flag b)) :
    d.readOptional d.readFlag record place n = .ok (some b) := by
  refine readOptional_some ?_ (hd.readFlag record place h)
  obtain ⟨a, rfl, ha⟩ := leaf_of_value h rfl
  exact hd.present ha rfl

theorem readWord {β : Type} {allowed : List String} {ofWord? : String → Option β} {x : β}
    (h : n.value? leaf? = some (.text s)) (hx : ofWord? s = some x) :
    d.readWord allowed ofWord? record place n = .ok x := by
  obtain ⟨a, rfl, ha⟩ := leaf_of_value h rfl
  obtain ⟨unknown, hword⟩ := hd.word ha
  rw [Dialect.readWord, bind_of_ok (located_of_ok hword record place)]
  dsimp only
  rw [hx]
  rfl

theorem readKey (h : n.value? leaf? = some (.text s)) :
    located record place (d.key n) = .ok (s, .field s) := by
  obtain ⟨a, rfl, ha⟩ := leaf_of_value h rfl
  exact located_of_ok (hd.key ha) record place

/-! ### Lists -/

section Lists

variable {γ : Type} {read : Place → Place → Node α → Except Fault γ} {f : γ → Value}
  (hread : ∀ record place x (n : Node α), n.value? leaf? = some (f x) → read record place n = .ok x)

include hread

omit hd in
theorem readItems (xs : List γ) : ∀ (ns : List (Node α)) (index : Nat),
    Node.values? leaf? ns = some (xs.map f) →
      Dialect.readItems read record place true ns index = .ok xs := by
  induction xs with
  | nil =>
    intro ns index h
    obtain rfl := Node.values?_eq_nil h
    rfl
  | cons x xs ih =>
    intro ns index h
    obtain ⟨n, ns', rfl, hn, hns⟩ := Node.values?_eq_cons h
    rw [Dialect.readItems, hread _ _ x n hn, ih ns' _ hns]
    rfl

/-- A list is read if its items are. -/
theorem readList {xs : List γ} (h : n.value? leaf? = some (.list (xs.map f))) :
    d.readList read record place n = .ok xs := by
  obtain ⟨items, rfl, hitems⟩ := hd.sequence_of_value h
  rw [Dialect.readList, bind_of_ok (located_of_ok (hd.items items) record place)]
  exact readItems record place hread xs items 0 hitems

theorem readOptionalList {xs : List γ} (h : n.value? leaf? = some (.list (xs.map f))) :
    d.readOptional (d.readList read) record place n = .ok (some xs) := by
  refine readOptional_some ?_ (hd.readList record place hread h)
  obtain ⟨items, rfl, -⟩ := hd.sequence_of_value h
  exact hd.sequencePresent items

end Lists

end Dialect.Faithful

/-! ## Formats -/

namespace Json

/-- What a JSON leaf holds; numbers are left out, as they are for what is printed. -/
def Leaf.value? : Leaf → Option Value
  | null => some .null
  | flag b => some (.flag b)
  | text s => some (.text s)
  | _ => none

/-- JSON is read as what it holds. -/
theorem dialect_faithful : dialect.Faithful Leaf.value? where
  text {a s} h := by
    cases a with
    | text s' =>
      obtain rfl := Value.text.inj (Option.some.inj h)
      rfl
    | _ => cases h
  flag {a b} h := by
    cases a with
    | flag b' =>
      obtain rfl := Value.flag.inj (Option.some.inj h)
      rfl
    | _ => cases h
  key {a s} h := by
    cases a with
    | text s' =>
      obtain rfl := Value.text.inj (Option.some.inj h)
      rfl
    | _ => cases h
  word {a s} h := by
    cases a with
    | text s' =>
      obtain rfl := Value.text.inj (Option.some.inj h)
      exact ⟨_, rfl⟩
    | _ => cases h
  present {a v} h hv := by
    cases a with
    | null =>
      obtain rfl := Option.some.inj h
      cases hv
    | _ => rfl
  sequencePresent _ := rfl
  items _ := rfl
  parts _ _ := rfl
  scalar {a v} h := by
    cases a with
    | number n => cases h
    | noText => cases h
    | _ =>
      obtain rfl := Option.some.inj h
      rfl

end Json

namespace Value

open Json

mutual
/-- The node of a printed value holds the value. -/
theorem value?_node : ∀ v : Value, v.isPlain = true → v.node.value? Leaf.value? = some v
  | null, _ => by rw [node, Node.value?]; rfl
  | flag b, _ => by rw [node, Node.value?]; rfl
  | text s, _ => by rw [node, Node.value?]; rfl
  | number n, h => by
    rw [isPlain] at h
    cases h
  | list vs, h => by
    rw [isPlain] at h
    rw [node, Node.value?, values?_nodes vs h]
    rfl
  | record fs, h => by
    rw [isPlain] at h
    rw [node, Node.value?, fields?_fieldNodes fs h]
    rfl

theorem values?_nodes : ∀ vs : List Value, arePlain vs = true →
    Node.values? Leaf.value? (nodes vs) = some vs
  | [], _ => by rw [nodes, Node.values?]
  | v :: vs, h => by
    rw [arePlain, Bool.and_eq_true] at h
    rw [nodes, Node.values?, value?_node v h.1, values?_nodes vs h.2]

theorem fields?_fieldNodes : ∀ fs : List (String × Value), arePlainFields fs = true →
    Node.fields? Leaf.value? (fieldNodes fs) = some fs
  | [], _ => by rw [fieldNodes, Node.fields?]
  | (name, v) :: fs, h => by
    rw [arePlainFields, Bool.and_eq_true] at h
    have hname : (Document.Node.leaf (Leaf.text name)).value? Leaf.value? = some (.text name) := rfl
    rw [fieldNodes, Node.fields?, hname, value?_node v h.1, fields?_fieldNodes fs h.2]
end

end Value

namespace Yaml

/-- The value that a plain scalar stands for. -/
def wordValue (s : String) : Value :=
  match meaning s with
  | .null => .null
  | .flag b => .flag b
  | .text => .text s
  | _ => .number s

/-- What a YAML leaf holds: a scalar that is not plain holds a text. -/
def Leaf.value? : Leaf → Option Value
  | scalar s style => some (if style = .plain then wordValue s else .text s)
  | _ => none

theorem isScalar_wordValue (s : String) : (wordValue s).isScalar = true := by
  rw [wordValue]
  cases meaning s <;> rfl

/-- A plain scalar that holds a text holds its own characters. -/
theorem eq_of_wordValue_text {s t : String} (h : wordValue s = .text t) : t = s := by
  rw [wordValue] at h
  cases hmeaning : meaning s with
  | text =>
    rw [hmeaning] at h
    exact (Value.text.inj h).symm
  | _ =>
    rw [hmeaning] at h
    cases h

/-- A plain scalar that holds a flag is a word for it. -/
theorem flagWord?_of_wordValue {s : String} {b : Bool} (h : wordValue s = .flag b) :
    flagWord? s = some b := by
  rw [wordValue, meaning] at h
  by_cases hnull : (s.isEmpty || isNullWord s) = true
  · rw [if_pos hnull] at h
    cases h
  · rw [if_neg hnull] at h
    cases hflag : flagWord? s with
    | some b' =>
      rw [hflag] at h
      obtain rfl := Value.flag.inj h
      rfl
    | none =>
      -- no other reading of the word is a flag
      rw [hflag] at h
      dsimp only at h
      cases hinteger : integer? s with
      | some n =>
        rw [hinteger] at h
        cases h
      | none =>
        rw [hinteger] at h
        dsimp only at h
        by_cases hzero : hasExtraZero s.toList = true
        · rw [if_pos hzero] at h
          cases h
        · rw [if_neg hzero] at h
          cases hdecimal : decimalText? s <;> rw [hdecimal] at h <;> cases h

/-- A plain scalar that is taken for left out holds null. -/
theorem isNull_wordValue {s : String} (h : (s.isEmpty || isNullWord s) = true) :
    (wordValue s).isNull = true := by
  rw [wordValue, meaning, if_pos h]
  rfl

namespace Leaf

variable {a : Leaf} {v : Value}

/-- What holds a value is a scalar. -/
theorem scalar_of_value (h : a.value? = some v) :
    ∃ s style, a = .scalar s style ∧ v = if style = .plain then wordValue s else .text s := by
  cases a with
  | scalar s style => exact ⟨s, style, rfl, (Option.some.inj h).symm⟩
  | _ => cases h

/-- What holds a text is a scalar with its characters. -/
theorem scalar_of_text {s : String} (h : a.value? = some (.text s)) :
    ∃ style, a = .scalar s style := by
  obtain ⟨s', style, rfl, hv⟩ := scalar_of_value h
  by_cases hplain : style = .plain
  · rw [if_pos hplain] at hv
    obtain rfl := eq_of_wordValue_text hv.symm
    exact ⟨style, rfl⟩
  · rw [if_neg hplain] at hv
    obtain rfl := Value.text.inj hv
    exact ⟨style, rfl⟩

/-- What holds a flag is a plain scalar. -/
theorem plain_of_flag {b : Bool} (h : a.value? = some (.flag b)) :
    ∃ s, a = .scalar s .plain ∧ flagWord? s = some b := by
  obtain ⟨s, style, rfl, hv⟩ := scalar_of_value h
  by_cases hplain : style = .plain
  · rw [if_pos hplain] at hv
    subst hplain
    exact ⟨s, rfl, flagWord?_of_wordValue hv.symm⟩
  · rw [if_neg hplain] at hv
    cases hv

end Leaf

/-- YAML is read as what it holds, whatever its aliases stand for. -/
theorem dialect_faithful (table : List Anchored) : (dialect table).Faithful Leaf.value? where
  text {a s} h := by
    obtain ⟨style, rfl⟩ := Leaf.scalar_of_text h
    rfl
  flag {a b} h := by
    obtain ⟨s, rfl, hs⟩ := Leaf.plain_of_flag h
    show flagOf table (.leaf (.scalar s .plain)) = .ok b
    rw [flagOf]
    dsimp only [untagged, target]
    rw [if_pos (by simp), hs]
  key {a s} h := by
    obtain ⟨style, rfl⟩ := Leaf.scalar_of_text h
    rfl
  word {a s} h := by
    obtain ⟨style, rfl⟩ := Leaf.scalar_of_text h
    exact ⟨_, rfl⟩
  present {a v} h hv := by
    obtain ⟨s, style, rfl, rfl⟩ := Leaf.scalar_of_value h
    cases style with
    | plain =>
      rw [if_pos rfl] at hv
      have hword : (s.isEmpty || isNullWord s) = false := by
        refine Bool.eq_false_iff.mpr fun hnull => ?_
        rw [isNull_wordValue hnull] at hv
        cases hv
      exact congrArg Except.ok hword
    | _ => rfl
  sequencePresent _ := rfl
  items _ := rfl
  parts _ _ := rfl
  scalar {a v} h := by
    obtain ⟨s, style, rfl, rfl⟩ := Leaf.scalar_of_value h
    split
    · exact isScalar_wordValue s
    · rfl

end Yaml

end CommandLauncher.Document
