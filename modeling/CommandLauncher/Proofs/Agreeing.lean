/-
  AGREEING — readers and writers that keep to a schema.

  1. **Names** — in a proper object no name comes twice, and neither does one in its parts
     (`Value.namesOnce`).

  2. **Reading** — a reader agrees with a schema if it takes every node whose value the schema
     accepts; only of a value with a repeated name it may say so instead (`Agrees`).  There is one
     lemma for each way of reading: texts, flags, words, lists, optional values, and records, where
     every field has to agree with the property of its name (`Agrees.record`).

  3. **Writing** — a value is written as a schema says if the schema accepts it and no name comes
     twice in it (`Written`).  A record is written field by field: each one conforms to the
     property of its name, and the optional ones are left out or conform too (`Conform`).
-/
import CommandLauncher.Proofs.NodeValues
import CommandLauncher.Settings.Encoding
import CommandLauncher.Settings.Schema
import Mathlib.Data.List.Nodup

namespace CommandLauncher.Document

/-! ## Names -/

namespace Value

mutual
/-- Whether no name comes twice in a record, at any depth. -/
def namesOnce : Value → Bool
  | list items => allOnce items
  | record fields => fieldsOnce fields
  | _ => true

/-- Whether this is so of all items. -/
def allOnce : List Value → Bool
  | [] => true
  | v :: vs => v.namesOnce && allOnce vs

/-- Whether this is so of all fields and their names. -/
def fieldsOnce : List (String × Value) → Bool
  | [] => true
  | (name, v) :: rest => (!rest.any fun f => f.1 == name) && v.namesOnce && fieldsOnce rest
end

/-- A name is among those of the fields. -/
theorem any_name_iff {fields : List (String × Value)} {name : String} :
    (fields.any fun f => f.1 == name) = true ↔ name ∈ fields.map Prod.fst := by
  rw [List.any_eq_true, List.mem_map]
  simp only [beq_iff_eq]

theorem allOnce_of_forall {vs : List Value} (h : ∀ v ∈ vs, v.namesOnce = true) :
    allOnce vs = true := by
  induction vs with
  | nil => rfl
  | cons v vs ih =>
    obtain ⟨hv, hvs⟩ := List.forall_mem_cons.mp h
    rw [allOnce, hv, ih hvs, Bool.and_self]

/-- Distinct names of fields in which no name comes twice. -/
theorem fieldsOnce_of_nodup {fields : List (String × Value)} (hnames : (fields.map Prod.fst).Nodup)
    (h : ∀ f ∈ fields, f.2.namesOnce = true) : fieldsOnce fields = true := by
  induction fields with
  | nil => rfl
  | cons f fields ih =>
    obtain ⟨hnew, hnames⟩ := List.nodup_cons.mp hnames
    obtain ⟨hv, hrest⟩ := List.forall_mem_cons.mp h
    have hnone : (fields.any fun g => g.1 == f.1) = false :=
      Bool.eq_false_iff.mpr fun hany => hnew (any_name_iff.mp hany)
    rw [fieldsOnce, hnone, hv, ih hnames hrest]
    rfl

end Value

/-! ## Reading -/

/-- What holds a value is whole. -/
theorem Node.isWhole_of_value {α : Type} {leaf? : α → Option Value} {n : Node α} {v : Value}
    (h : n.value? leaf? = some v) : n.isWhole = true := by
  cases n with
  | leaf a => rfl
  | sequence items whole =>
    cases whole with
    | true => rfl
    | false => cases h
  | mapping entries whole =>
    cases whole with
    | true => rfl
    | false => cases h
  | marked mark n => cases h
  | broken => cases h

/-- What comes of reading a value: a result, or the complaint about a name that comes twice. -/
inductive Fits {β : Type} (v : Value) : Except Fault β → Prop where
  | read (x : β) : Fits v (.ok x)
  | repeated (h : v.namesOnce = false) (place : Place) (name : String) :
    Fits v (.error (.shape place (.repeatedField name)))

namespace Fits

variable {β γ : Type} {v : Value} {result : Except Fault β}

theorem of_ok {x : β} (h : result = .ok x) : Fits v result := h ▸ .read x

/-- A complaint about a part is one about the whole. -/
theorem within {whole : Value} (h : Fits v result) (hwhole : v.namesOnce = false →
    whole.namesOnce = false) : Fits whole result := by
  cases h with
  | read x => exact .read x
  | repeated hv place name => exact .repeated (hwhole hv) place name

/-- A part is read first, and then the rest of the whole. -/
theorem bind {whole : Value} {f : β → Except Fault γ} (h : Fits v result)
    (hwhole : v.namesOnce = false → whole.namesOnce = false)
    (hf : ∀ x, result = .ok x → Fits whole (f x)) : Fits whole (result >>= f) := by
  cases h with
  | read x => exact hf x rfl
  | repeated hv place name => exact .repeated (hwhole hv) place name

/-- What is made of a result afterwards is a result. -/
theorem map (h : Fits v result) (f : β → γ) : Fits v (do return f (← result)) :=
  h.bind id fun x _ => .read (f x)

end Fits

section Agreeing

variable {α β γ : Type} {d : Dialect α} {leaf? : α → Option Value}
  {named : String → Value → Bool} {read : Place → Place → Node α → Except Fault β}

/-- A reader takes what a schema accepts. -/
def Agrees (leaf? : α → Option Value) (named : String → Value → Bool) (schema : Schema)
    (read : Place → Place → Node α → Except Fault β) : Prop :=
  ∀ record place n v, n.value? leaf? = some v → schema.accepts named v = true →
    Fits v (read record place n)

namespace Agrees

variable {schema : Schema}

theorem map (h : Agrees leaf? named schema read) (f : β → γ) :
    Agrees leaf? named schema fun r p n => do return f (← read r p n) :=
  fun r p n v hn hv => (h r p n v hn hv).map f

theorem described (h : Agrees leaf? named schema read) (description : String) :
    Agrees leaf? named (.described description schema) read :=
  fun r p n v hn hv => h r p n v hn (by rwa [Schema.accepts] at hv)

theorem withDefault (h : Agrees leaf? named schema read) (default : Value) :
    Agrees leaf? named (.withDefault default schema) read :=
  fun r p n v hn hv => h r p n v hn (by rwa [Schema.accepts] at hv)

/-- A reference is read as what it stands for. -/
theorem reference {named' : String → Value → Bool} {name : String}
    (h : Agrees leaf? named' schema read) (hname : ∀ v, named name v = schema.accepts named' v) :
    Agrees leaf? named (.reference name) read := by
  intro r p n v hn hv
  rw [Schema.accepts, hname] at hv
  exact h r p n v hn hv

/-! ### Scalars -/

variable (hd : d.Faithful leaf?)
  (hnull : ∀ a, leaf? a = some .null → d.isAbsent (.leaf a) = .ok true)

include hd

theorem text : Agrees leaf? named (.ofKind [.string]) d.readText := by
  intro r p n v hn hv
  cases v with
  | text s => exact .of_ok (hd.readText r p hn)
  | _ => cases hv

theorem flag : Agrees leaf? named (.ofKind [.boolean]) d.readFlag := by
  intro r p n v hn hv
  cases v with
  | flag b => exact .of_ok (hd.readFlag r p hn)
  | _ => cases hv

/-- A word is read if the schema accepts nothing but words that stand for something. -/
theorem word {allowed : List String} {ofWord? : String → Option β}
    (hwords : ∀ v, schema.accepts named v = true → ∃ s x, v = .text s ∧ ofWord? s = some x) :
    Agrees leaf? named schema (d.readWord allowed ofWord?) := by
  intro r p n v hn hv
  obtain ⟨s, x, rfl, hx⟩ := hwords v hv
  exact .of_ok (hd.readWord r p hn hx)

/-! ### Optional values -/

/-- A scalar or a list that is not null is there. -/
theorem isAbsent_of_value {n : Node α} {v : Value} (hn : n.value? leaf? = some v)
    (hv : v.isNull = false) (hrecord : ∀ fields, v ≠ .record fields) :
    d.isAbsent n = .ok false := by
  have hscalar : v.isScalar = true → d.isAbsent n = .ok false := by
    intro h
    obtain ⟨a, rfl, ha⟩ := Dialect.Faithful.leaf_of_value hn h
    exact hd.present ha hv
  cases v with
  | list vs =>
    obtain ⟨items, rfl, -⟩ := hd.sequence_of_value hn
    exact hd.sequencePresent items
  | record fields => exact absurd rfl (hrecord fields)
  | _ => exact hscalar rfl

include hnull

/-- An optional value is read if its schema accepts null beside what the reader takes. -/
theorem optional {whole : Schema} (h : Agrees leaf? named schema read)
    (hwhole : ∀ v, whole.accepts named v = true → v ≠ .null →
      schema.accepts named v = true ∧ ∀ fields, v ≠ .record fields) :
    Agrees leaf? named whole (d.readOptional read) := by
  intro r p n v hn hv
  rw [Dialect.readOptional]
  by_cases hv' : v = .null
  · subst hv'
    obtain ⟨a, rfl, ha⟩ := Dialect.Faithful.leaf_of_value hn rfl
    rw [bind_of_ok (located_of_ok (hnull a ha) r p)]
    exact .read none
  · have hnot : v.isNull = false := by
      cases v with
      | null => exact absurd rfl hv'
      | _ => rfl
    obtain ⟨haccepts, hrecord⟩ := hwhole v hv hv'
    rw [bind_of_ok (located_of_ok (isAbsent_of_value hd hn hnot hrecord) r p)]
    exact (h r p n v hn haccepts).map some

theorem optionalText :
    Agrees leaf? named CommandLauncher.optionalText (d.readOptional d.readText) := by
  refine optional hd hnull (text hd) fun v hv hne => ?_
  cases v with
  | text s => exact ⟨rfl, nofun⟩
  | null => exact absurd rfl hne
  | _ => cases hv

theorem optionalFlag :
    Agrees leaf? named CommandLauncher.optionalFlag (d.readOptional d.readFlag) := by
  refine optional hd hnull (flag hd) fun v hv hne => ?_
  cases v with
  | flag b => exact ⟨rfl, nofun⟩
  | null => exact absurd rfl hne
  | _ => cases hv

omit hnull

/-! ### Lists -/

omit hd in
/-- Items are read one after another, unless one of them has a repeated name. -/
theorem items (h : Agrees leaf? named schema read) (r p : Place) (vs : List Value) :
    ∀ (ns : List (Node α)) (index : Nat), Node.values? leaf? ns = some vs →
      (vs.all fun v => schema.accepts named v) = true →
        Fits (.list vs) (Dialect.readItems read r p true ns index) := by
  induction vs with
  | nil =>
    intro ns index hns _
    obtain rfl := Node.values?_eq_nil hns
    exact .read []
  | cons v vs ih =>
    intro ns index hns hvs
    obtain ⟨n, ns', rfl, hn, hns'⟩ := Node.values?_eq_cons hns
    obtain ⟨hv, hvs⟩ := Bool.and_eq_true_iff.mp ((List.all_cons ..).symm.trans hvs)
    have hfirst := h r (p ++ [.item index]) n v hn hv
    have hrest := ih ns' (index + 1) hns' hvs
    rw [Dialect.readItems]
    refine hfirst.bind (fun hrepeated => ?_) fun x _ => (hrest.map fun xs => x :: xs).within
      fun hrepeated => ?_
    · rw [Value.namesOnce, Value.allOnce, hrepeated, Bool.false_and]
    · rw [Value.namesOnce] at hrepeated ⊢
      rw [Value.allOnce, hrepeated, Bool.and_false]

theorem list (h : Agrees leaf? named schema read) :
    Agrees leaf? named (.listOf schema []) (d.readList read) := by
  intro r p n v hn hv
  cases v with
  | list vs =>
    obtain ⟨ns, rfl, hns⟩ := hd.sequence_of_value hn
    rw [Dialect.readList, bind_of_ok (located_of_ok (hd.items ns) r p)]
    exact items h r p vs ns 0 hns (by rwa [Schema.accepts] at hv)
  | _ => cases hv

include hnull in
theorem optionalList (h : Agrees leaf? named schema read) :
    Agrees leaf? named (.listOf schema [.null]) (d.readOptional (d.readList read)) := by
  refine optional hd hnull (list hd h) fun v hv hne => ?_
  cases v with
  | list vs => exact ⟨hv, nofun⟩
  | null => exact absurd rfl hne
  | _ => cases hv

end Agrees

/-! ### Records -/

/-- The fields of a record have to satisfy the properties of their names. -/
theorem Schema.acceptsFields_iff {properties : List (String × Schema)}
    {fields : List (String × Value)} :
    Schema.acceptsFields named properties fields = true ↔
      ∀ p ∈ properties, ∀ f ∈ fields, f.1 = p.1 → p.2.accepts named f.2 = true := by
  induction properties with
  | nil => simp [acceptsFields]
  | cons p properties ih =>
    obtain ⟨name, schema⟩ := p
    rw [acceptsFields, Bool.and_eq_true, ih, List.forall_mem_cons, List.all_eq_true]
    refine and_congr (forall₂_congr fun f _ => ?_) Iff.rfl
    by_cases hname : f.1 = name <;> simp [hname]

/-- Entries are read one after another: to the end, with all fields of the shape seen that are
    there; or up to a name that comes twice. -/
inductive FitsNamed (shape : RecordShape α β) (fields : List (String × Value))
    (seen : List String) : Except Fault (List String × β) → Prop where
  | read (seen' : List String) (x : β)
      (h : ∀ f ∈ shape.fields, f.name ∈ seen ∨ f.name ∈ fields.map Prod.fst → f.name ∈ seen') :
      FitsNamed shape fields seen (.ok (seen', x))
  | repeated (h : Value.fieldsOnce fields = false ∨ ∃ name ∈ seen, name ∈ fields.map Prod.fst)
      (place : Place) (name : String) :
      FitsNamed shape fields seen (.error (.shape place (.repeatedField name)))

/-- One entry more in front, which is seen if it is for a field of the shape. -/
theorem FitsNamed.cons {shape : RecordShape α β} {fields : List (String × Value)}
    {seen before : List String} {result : Except Fault (List String × β)} {name : String}
    {v : Value} (h : FitsNamed shape fields seen result) (hbefore : ∀ m ∈ before, m ∈ seen)
    (hseen : ∀ m ∈ seen, m = name ∨ m ∈ before)
    (hname : ∀ f ∈ shape.fields, f.name = name → name ∈ seen) :
    FitsNamed shape ((name, v) :: fields) before result := by
  cases h with
  | read seen' x hall =>
    refine .read seen' x fun f hf hwhere => hall f hf ?_
    rcases hwhere with hold | hthere
    · exact .inl (hbefore _ hold)
    · rcases List.mem_cons.mp hthere with hfirst | hlater
      · exact .inl ((show f.name = name from hfirst) ▸ hname f hf hfirst)
      · exact .inr hlater
  | repeated hrepeated place twice =>
    refine .repeated ?_ place twice
    rcases hrepeated with hfields | ⟨m, hm, hlater⟩
    · exact .inl (by rw [Value.fieldsOnce, hfields, Bool.and_false])
    · rcases hseen m hm with rfl | hold
      · -- the name of this entry comes again
        exact .inl (by rw [Value.fieldsOnce, Value.any_name_iff.mpr hlater]; rfl)
      · exact .inr ⟨m, hold, List.mem_cons_of_mem _ hlater⟩

section Records

variable {shape : RecordShape α β} (hd : d.Faithful leaf?)

include hd

theorem readNamed_fits (place : Place) (fields : List (String × Value)) :
    ∀ (entries : List (Node α × Node α)) (seen : List String) (x : β),
      Node.fields? leaf? entries = some fields →
      (∀ f ∈ shape.fields, ∀ v, (f.name, v) ∈ fields → ∀ r p n y, n.value? leaf? = some v →
        Fits v (f.read r p n y)) →
      FitsNamed shape fields seen (shape.readNamed d place true entries seen x) := by
  induction fields with
  | nil =>
    intro entries seen x hentries _
    obtain rfl := Node.fields?_eq_nil hentries
    exact .read seen x fun f _ h => h.resolve_right List.not_mem_nil
  | cons field fields ih =>
    intro entries seen x hentries hread
    obtain ⟨name, v⟩ := field
    obtain ⟨k, n, rest, rfl, hk, hn, hrest⟩ := Node.fields?_eq_cons hentries
    have hlater := fun f hf v hv => hread f hf v (List.mem_cons_of_mem _ hv)
    rw [RecordShape.readNamed, bind_of_ok (hd.readKey place place hk)]
    dsimp only
    cases hfind : shape.fields.find? fun f => f.name = name with
    | none =>
      dsimp only
      rw [if_pos (Node.isWhole_of_value hn)]
      refine (ih rest seen x hrest hlater).cons (fun _ => id) (fun _ => .inr) fun f hf hname => ?_
      have hnot := List.find?_eq_none.mp hfind f hf
      simp [hname] at hnot
    | some f =>
      dsimp only
      obtain rfl : f.name = name := by simpa using List.find?_some hfind
      have hf := List.mem_of_find?_eq_some hfind
      split
      · rename_i hseen
        exact .repeated (.inr ⟨f.name, hseen, List.mem_cons_self⟩) place f.name
      · have hfits := hread f hf v List.mem_cons_self place (place ++ [.field f.name]) n x hn
        cases hresult : f.read place (place ++ [.field f.name]) n x with
        | ok y =>
          exact (ih rest (f.name :: seen) y hrest hlater).cons (fun _ => List.mem_cons_of_mem _)
            (fun _ => List.mem_cons.mp) fun _ _ _ => List.mem_cons_self
        | error fault =>
          rw [hresult] at hfits
          cases hfits with
          | repeated hv at' twice =>
            refine .repeated (.inl ?_) at' twice
            rw [Value.fieldsOnce, hv, Bool.and_false, Bool.false_and]

/-- **A record agrees** with its schema if its fields agree with the properties of their names, and
    those that it has to have are required. -/
theorem Agrees.record {properties : List (String × Schema)} {required : List String}
    (hfields : ∀ f ∈ shape.fields, ∃ schema, (f.name, schema) ∈ properties ∧
      ∀ x, Agrees leaf? named schema fun r p n => f.read r p n x)
    (hrequired : ∀ f ∈ shape.fields, f.required = true → f.name ∈ required) :
    Agrees leaf? named (.record properties required) (shape.read d) := by
  intro r p n v hn hv
  cases v with
  | record fields =>
    rw [Schema.accepts, Bool.and_eq_true, Schema.acceptsFields_iff, List.all_eq_true] at hv
    obtain ⟨hpresent, haccepts⟩ := hv
    obtain ⟨entries, rfl, hentries⟩ := hd.mapping_of_value hn
    have hread := readNamed_fits hd p fields entries [] shape.blank hentries
      fun f hf v hv r p n y hn => by
        obtain ⟨schema, hschema, hagrees⟩ := hfields f hf
        exact hagrees y r p n v hn (haccepts _ hschema _ hv rfl)
    rw [RecordShape.read, bind_of_ok (located_of_ok (hd.parts shape.title entries) r p)]
    dsimp only
    cases hresult : shape.readNamed d p true entries [] shape.blank with
    | error fault =>
      rw [hresult] at hread
      cases hread with
      | repeated h place name =>
        refine .repeated ?_ place name
        rw [Value.namesOnce]
        refine h.resolve_right ?_
        rintro ⟨_, hnil, -⟩
        cases hnil
    | ok result =>
      rw [hresult] at hread
      cases hread with
      | read seen x hseen =>
        have hnone : shape.fields.find? (fun f => f.required && !seen.contains f.name) = none := by
          refine none_missing fun f hf hneeded => hseen f hf (.inr ?_)
          exact Value.any_name_iff.mp (hpresent f.name (hrequired f hf hneeded))
        rw [bind_of_ok rfl]
        dsimp only
        rw [hnone]
        exact .read x
  | _ => cases hv

end Records

end Agreeing

/-! ## Writing -/

/-- A value that a schema accepts, in which no name comes twice. -/
def Written (named : String → Value → Bool) (schema : Schema) (v : Value) : Prop :=
  schema.accepts named v = true ∧ v.namesOnce = true

/-- The properties of a record schema. -/
def Schema.properties : Schema → List (String × Schema)
  | record properties _ => properties
  | described _ schema => schema.properties
  | _ => []

/-- Fields that are written as the properties of a record say; all their names are among `may`, in
    that order. -/
structure Conform (named : String → Value → Bool) (properties : List (String × Schema))
    (may : List String) (fields : List (String × Value)) : Prop where
  names : (fields.map Prod.fst).Sublist may
  accepted : ∀ p ∈ properties, ∀ f ∈ fields, f.1 = p.1 → p.2.accepts named f.2 = true
  once : ∀ f ∈ fields, f.2.namesOnce = true

section Writing

variable {named : String → Value → Bool} {schema : Schema} {γ : Type} {write : γ → Value}

/-! ### Fields -/

namespace Conform

variable {properties : List (String × Schema)} {may may' : List String}
  {fields fields' : List (String × Value)} {name : String}

theorem nil (may : List String) : Conform named properties may [] :=
  ⟨List.nil_sublist may, nofun, nofun⟩

/-- A field whose value is written as its property says. -/
theorem field {v : Value} (hproperties : (properties.map Prod.fst).Nodup)
    (hschema : (name, schema) ∈ properties) (hv : Written named schema v) :
    Conform named properties [name] [(name, v)] where
  names := .refl _
  accepted p hp f hf hname := by
    obtain rfl := List.mem_singleton.mp hf
    -- there is only one property of this name
    obtain rfl : p = (name, schema) :=
      List.inj_on_of_nodup_map hproperties hp hschema hname.symm
    exact hv.1
  once f hf := by
    obtain rfl := List.mem_singleton.mp hf
    exact hv.2

/-- A field that is written only if it is present. -/
theorem optional (hproperties : (properties.map Prod.fst).Nodup)
    (hschema : (name, schema) ∈ properties) (hv : ∀ y, Written named schema (write y))
    (x : Option γ) : Conform named properties [name] (optionalField name (x.map write)) := by
  cases x with
  | none => exact nil _
  | some y => exact field hproperties hschema (hv y)

/-- Fields in a row. -/
theorem append (h : Conform named properties may fields)
    (h' : Conform named properties may' fields') :
    Conform named properties (may ++ may') (fields ++ fields') where
  names := by
    rw [List.map_append]
    exact h.names.append h'.names
  accepted p hp f hf := (List.mem_append.mp hf).elim (h.accepted p hp f) (h'.accepted p hp f)
  once f hf := (List.mem_append.mp hf).elim (h.once f) (h'.once f)

/-- The record of these fields, if the required ones are among them. -/
theorem record (h : Conform named properties may fields) (hmay : may.Nodup)
    {required : List String} (hrequired : ∀ n ∈ required, n ∈ fields.map Prod.fst) :
    Written named (.record properties required) (.record fields) := by
  refine ⟨?_, ?_⟩
  · rw [Schema.accepts, Bool.and_eq_true, Schema.acceptsFields_iff, List.all_eq_true]
    exact ⟨fun n hn => Value.any_name_iff.mpr (hrequired n hn), h.accepted⟩
  · rw [Value.namesOnce]
    exact Value.fieldsOnce_of_nodup (hmay.sublist h.names) h.once

end Conform

/-! ### Values -/

namespace Written

theorem described {v : Value} (h : Written named schema v) (description : String) :
    Written named (.described description schema) v :=
  ⟨by rw [Schema.accepts]; exact h.1, h.2⟩

theorem withDefault {v : Value} (h : Written named schema v) (default : Value) :
    Written named (.withDefault default schema) v :=
  ⟨by rw [Schema.accepts]; exact h.1, h.2⟩

/-- What is written as a reference is what its name stands for. -/
theorem reference {named' : String → Value → Bool} {name : String} {v : Value}
    (h : Written named' schema v) (hname : ∀ v, named name v = schema.accepts named' v) :
    Written named (.reference name) v :=
  ⟨by rw [Schema.accepts, hname]; exact h.1, h.2⟩

theorem optionalText (s : String) : Written named CommandLauncher.optionalText (.text s) :=
  ⟨rfl, rfl⟩

theorem optionalFlag (b : Bool) : Written named CommandLauncher.optionalFlag (.flag b) :=
  ⟨rfl, rfl⟩

theorem list {others : List Kind} (h : ∀ x, Written named schema (write x)) (xs : List γ) :
    Written named (.listOf schema others) (.list (xs.map write)) := by
  refine ⟨?_, ?_⟩
  · rw [Schema.accepts, List.all_map, List.all_eq_true]
    exact fun x _ => (h x).1
  · rw [Value.namesOnce]
    exact Value.allOnce_of_forall (List.forall_mem_map.mpr fun x _ => (h x).2)

theorem texts {others : List Kind} (xs : List String) :
    Written named (.listOf (.ofKind [.string]) others) (.texts xs) :=
  list (fun _ => ⟨rfl, rfl⟩) xs

end Written

end Writing

end CommandLauncher.Document
