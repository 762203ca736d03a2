/-
  PUBLISHED SCHEMAS — what a schema says of a value, read off the document that publishes it.

  1. **Keywords** — a published schema is a record of keywords, and a value has to satisfy each of
     them.  `type`, `const`, `required` and `$ref` look at the value itself; `items`, `properties`
     and `oneOf` have schemas in their arguments.  A keyword asks something only of values that it
     is about, and all others ask nothing.

  2. **Documents** — a published document says what its references stand for in its definitions.
     These may have references of their own, so validity is said up to a depth.

  3. **The proof** — by induction on a schema, with one case for each form: its keywords ask of a
     value what the schema accepts (`permitsAll_keywords`).  So a published document is as valid as
     its schema says, and no depth makes a difference (`valid_publish`).
-/
import CommandLauncher.Proofs.RoundTrip
import CommandLauncher.Settings.Schema

namespace CommandLauncher.Document

/-! ## Keywords -/

namespace Value

/-- The name that a schema has for the kind of a value. -/
def kindName : Value → String
  | null => Kind.null.name
  | flag _ => Kind.boolean.name
  | number _ => "number"
  | text _ => Kind.string.name
  | list _ => Kind.array.name
  | record _ => Kind.object.name

/-- The items of a list. -/
def listed : Value → List Value
  | list items => items
  | _ => []

/-- The fields of a record. -/
def fields : Value → List (String × Value)
  | record fields => fields
  | _ => []

end Value

namespace Published

/-- What a keyword asks of a value that has no schema in its argument. -/
def asks (named : String → Value → Bool) : String → Value → Value → Bool
  | "type", .text name, v => decide (name = v.kindName)
  | "type", .list names, v => names.any fun name => decide (name = .text v.kindName)
  | "const", constant, v => decide (v = constant)
  | "required", .list names, .record fields =>
    names.all fun name => fields.any fun f => decide (name = .text f.1)
  | "$ref", .text path, v => named path v
  | _, _, _ => true

mutual
/-- Whether a value satisfies a published schema; `named` decides for references. -/
def permits (named : String → Value → Bool) : Value → Value → Bool
  | .record keywords, v => permitsAll named keywords v
  | _, _ => true
termination_by structural schema => schema

/-- Whether a value satisfies all keywords. -/
def permitsAll (named : String → Value → Bool) : List (String × Value) → Value → Bool
  | [], _ => true
  | keyword :: rest, v => permitsOne named keyword v && permitsAll named rest v
termination_by structural keywords => keywords

/-- Whether a value satisfies a keyword. -/
def permitsOne (named : String → Value → Bool) : String × Value → Value → Bool
  | ("items", item), v => v.listed.all fun i => permits named item i
  | ("properties", .record properties), v => permitsFields named properties v.fields
  | ("oneOf", .list cases), v => countPermitting named cases v == 1
  | (keyword, argument), v => asks named keyword argument v
termination_by structural keyword => keyword

/-- Whether every field satisfies the schema that is given for its name. -/
def permitsFields (named : String → Value → Bool) :
    List (String × Value) → List (String × Value) → Bool
  | [], _ => true
  | (name, schema) :: rest, fields =>
    (fields.all fun f => f.1 != name || permits named schema f.2) &&
      permitsFields named rest fields
termination_by structural properties => properties

/-- How many of the schemas a value satisfies. -/
def countPermitting (named : String → Value → Bool) : List Value → Value → Nat
  | [], _ => 0
  | schema :: rest, v => (if permits named schema v then 1 else 0) + countPermitting named rest v
termination_by structural cases => cases
end

/-! ## The proof -/

/-- A value is of a kind exactly if its kind has that name. -/
theorem holds_eq (k : Kind) (v : Value) : k.holds v = decide (k.name = v.kindName) := by
  cases k <;> cases v <;> rfl

section Keywords

variable (named : String → Value → Bool) (rest : List (String × Value)) (v : Value)

theorem permitsAll_kind (k : Kind) :
    permitsAll named (("type", .text k.name) :: rest) v =
      (k.holds v && permitsAll named rest v) := by
  rw [holds_eq]
  rfl

/-- The keyword for kinds asks for one of them. -/
theorem permitsAll_type (kinds : List Kind) :
    permitsAll named (Schema.typeKeyword kinds :: rest) v =
      (kinds.any (fun k => k.holds v) && permitsAll named rest v) := by
  have hany : kinds.any (fun k => k.holds v) =
      ((kinds.map Kind.name).map Value.text).any fun name => decide (name = .text v.kindName) := by
    rw [List.any_map, List.any_map]
    congr 1
    funext k
    show k.holds v = decide (Value.text k.name = .text v.kindName)
    rw [holds_eq, decide_eq_decide, Value.text.injEq]
  match kinds with
  | [] => rfl
  | [k] =>
    rw [List.any_cons, List.any_nil, Bool.or_false]
    exact permitsAll_kind named rest v k
  | k :: l :: ks =>
    rw [hany]
    rfl

/-- The keyword for required fields asks for these, of records only. -/
theorem permitsOne_required (names : List String) :
    permitsOne named ("required", .texts names) v =
      match v with
      | .record fields => names.all fun name => fields.any fun f => f.1 == name
      | _ => true := by
  cases v with
  | record fields =>
    dsimp only
    have hall : (names.all fun name => fields.any fun f => f.1 == name) =
        (names.map Value.text).all fun name => fields.any fun f => decide (name = .text f.1) := by
      rw [List.all_map]
      congr 1
      funext name
      congr 1
      funext f
      show decide (f.1 = name) = decide (Value.text name = .text f.1)
      rw [decide_eq_decide, Value.text.injEq]
      exact eq_comm
    rw [hall]
    rfl
  | _ => rfl

end Keywords

mutual
/-- **The keywords of a schema** ask of a value what the schema accepts, if the references stand for
    what the names do. -/
theorem permitsAll_keywords {byPath named : String → Value → Bool}
    (hnamed : ∀ name v, byPath (Schema.definitionPath name) v = named name v) :
    ∀ (schema : Schema) (v : Value), permitsAll byPath schema.keywords v = schema.accepts named v
  | .ofKind kinds, v => by
    rw [Schema.keywords, permitsAll_type, Schema.accepts]
    exact Bool.and_true _
  | .listOf item others, v => by
    have hitem : (fun i => permits byPath (.record item.keywords) i) =
        fun i => item.accepts named i := funext (permitsAll_keywords hnamed item)
    rw [Schema.keywords, permitsAll_type]
    show (_ && ((v.listed.all fun i => permits byPath (.record item.keywords) i) && true)) = _
    rw [hitem, Bool.and_true, Schema.accepts.eq_def]
    cases v with
    | list items => rfl
    | _ => exact Bool.and_true _
  | .word w, v => by
    rw [Schema.keywords, Schema.accepts.eq_def]
    show (decide (Kind.string.name = v.kindName) && (decide (v = .text w) && true)) = _
    cases v with
    | text s =>
      show (decide (Value.text s = .text w) && true) = decide (s = w)
      rw [Bool.and_true, decide_eq_decide, Value.text.injEq]
    | _ => rfl
  | .oneOf cases, v => by
    rw [Schema.keywords, Schema.accepts, ← countPermitting_keywords hnamed cases v]
    exact Bool.and_true _
  | .record properties required, v => by
    have hrequired : permitsAll byPath
        (if required = [] then [] else [("required", .texts required)]) v =
          permitsOne byPath ("required", .texts required) v := by
      split
      · rename_i hnone
        rw [hnone, permitsOne_required]
        cases v <;> rfl
      · exact Bool.and_true _
    rw [Schema.keywords, List.cons_append, permitsAll_kind, List.singleton_append, permitsAll,
      hrequired, permitsOne_required]
    show (_ && (permitsFields byPath _ v.fields && _)) = _
    rw [permitsFields_keywords hnamed properties v.fields, Schema.accepts.eq_def]
    cases v with
    | record fields => exact (Bool.true_and _).trans (Bool.and_comm _ _)
    | _ => rfl
  | .reference name, v => by
    rw [Schema.keywords, Schema.accepts, ← hnamed]
    exact Bool.and_true _
  | .described description schema, v => by
    rw [Schema.keywords, Schema.accepts]
    exact permitsAll_keywords hnamed schema v
  | .withDefault default schema, v => by
    rw [Schema.keywords, Schema.accepts, ← permitsAll_keywords hnamed schema v]
    cases schema.keywords with
    | nil => rfl
    | cons keyword rest => rfl

theorem countPermitting_keywords {byPath named : String → Value → Bool}
    (hnamed : ∀ name v, byPath (Schema.definitionPath name) v = named name v) :
    ∀ (cases : List Schema) (v : Value),
      countPermitting byPath (Schema.keywordsOfAll cases) v = Schema.countAccepting named cases v
  | [], v => rfl
  | schema :: cases, v => by
    rw [Schema.keywordsOfAll, Schema.countAccepting, ← permitsAll_keywords hnamed schema v,
      ← countPermitting_keywords hnamed cases v]
    rfl

theorem permitsFields_keywords {byPath named : String → Value → Bool}
    (hnamed : ∀ name v, byPath (Schema.definitionPath name) v = named name v) :
    ∀ (properties : List (String × Schema)) (fields : List (String × Value)),
    permitsFields byPath (Schema.keywordsOfFields properties) fields =
      Schema.acceptsFields named properties fields
  | [], fields => rfl
  | (name, schema) :: properties, fields => by
    have hschema : (fun f : String × Value => f.1 != name || schema.accepts named f.2) =
        fun f => f.1 != name || permits byPath (.record schema.keywords) f.2 := by
      funext f
      rw [← permitsAll_keywords hnamed schema f.2]
      rfl
    rw [Schema.keywordsOfFields, Schema.acceptsFields, hschema,
      ← permitsFields_keywords hnamed properties fields]
    rfl
end

/-! ## Documents -/

/-- The definitions of a published document. -/
def definitions (document : Value) : List (String × Value) :=
  ((Value.field? document.fields "$defs").map Value.fields).getD []

/-- What references stand for, up to a depth of references in definitions. -/
def refers (definitions : List (String × Value)) : Nat → String → Value → Bool
  | 0, _, _ => false
  | depth + 1, path, v =>
    match definitions.find? (fun d => Schema.definitionPath d.1 = path) with
    | some d => permits (refers definitions depth) d.2 v
    | none => false

/-- Whether a value is valid against a published document. -/
def valid (depth : Nat) (document v : Value) : Bool :=
  permits (refers (definitions document) depth) document v

theorem permitsAll_append (named : String → Value → Bool) (keywords rest : List (String × Value))
    (v : Value) : permitsAll named (keywords ++ rest) v =
      (permitsAll named keywords v && permitsAll named rest v) := by
  induction keywords with
  | nil => rfl
  | cons keyword keywords ih => rw [List.cons_append, permitsAll, permitsAll, ih, Bool.and_assoc]

section Definitions

variable {s : DocumentSchema}
  (hclosed : ∀ d ∈ s.definitions, ∀ named named' v, d.2.accepts named v = d.2.accepts named' v)

/-- A definition is found by its path as it is by its name. -/
theorem find?_definitionPath (definitions : List (String × Schema)) (name : String) :
    (Schema.keywordsOfFields definitions).find?
        (fun d => Schema.definitionPath d.1 = Schema.definitionPath name) =
      (definitions.find? fun d => d.1 = name).map fun d => (d.1, .record d.2.keywords) := by
  induction definitions with
  | nil => rfl
  | cons d definitions ih =>
    obtain ⟨key, schema⟩ := d
    have hsame : Schema.definitionPath key = Schema.definitionPath name ↔ key = name :=
      String.append_right_inj _
    rw [Schema.keywordsOfFields, List.find?_cons, List.find?_cons]
    by_cases hkey : key = name
    · rw [decide_eq_true hkey, decide_eq_true (hsame.mpr hkey)]
      rfl
    · rw [decide_eq_false hkey, decide_eq_false (mt hsame.mp hkey)]
      exact ih

include hclosed

/-- What a reference stands for is what its name does, at any depth. -/
theorem refers_definitionPath (depth : Nat) (name : String) (v : Value) :
    refers (Schema.keywordsOfFields s.definitions) (depth + 1) (Schema.definitionPath name) v =
      s.named name v := by
  rw [refers, find?_definitionPath, DocumentSchema.named]
  cases hfind : s.definitions.find? fun d => d.1 = name with
  | none => rfl
  | some d =>
    have hclosed := hclosed d (List.mem_of_find?_eq_some hfind)
    -- the names of this definition, if it had any, would stand for what its references do
    exact (permitsAll_keywords (fun _ _ => rfl) d.2 v).trans (hclosed _ _ v)

/-- **A published document** is as valid as its schema says, where the schemas of its definitions
    refer to nothing. -/
theorem valid_publish
    (hdefinitions : definitions s.publish = Schema.keywordsOfFields s.definitions) (depth : Nat)
    (v : Value) : valid (depth + 1) s.publish v = s.accepts v := by
  rw [valid, hdefinitions, DocumentSchema.accepts,
    ← permitsAll_keywords (refers_definitionPath hclosed depth) s.body v, DocumentSchema.publish]
  show permitsAll _ (_ ++ s.body.keywords ++ _) v = _
  rw [permitsAll_append, permitsAll_append]
  -- the keywords around those of the body ask nothing
  exact (Bool.and_true _).trans (Bool.true_and _)

end Definitions

end Published

end Document

open Document

/-- The definitions of the settings schema refer to nothing. -/
theorem Settings.schema_closed : ∀ d ∈ schema.definitions, ∀ named named' v,
    d.2.accepts named v = d.2.accepts named' v := by
  rw [schema]
  simp only [List.forall_mem_cons, List.not_mem_nil, false_implies, implies_true, and_true]
  exact ⟨fun _ _ _ => rfl, fun _ _ _ => rfl, fun _ _ _ => rfl⟩

/-- The published document of the settings is as valid as their schema says. -/
theorem Settings.valid_publish (depth : Nat) (v : Value) :
    Published.valid (depth + 1) schema.publish v = schema.accepts v :=
  Published.valid_publish schema_closed rfl depth v

end CommandLauncher
