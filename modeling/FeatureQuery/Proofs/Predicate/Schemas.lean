import FeatureQuery.Proofs.Predicate.Compiling
import Mathlib.Data.List.Forall2

/-!
# Queries that a schema knows

A schema has a say in one thing only, whether a query is compiled: what it is compiled to does not
depend on the schema. `Compiled e p` says without any schema that the predicate `p` has the shape of
the query `e`, with every field and literal unquoted and every pattern read. There is one such
predicate that every schema gives, unless it lacks one of the fields of the query, and then the
first one that it lacks is reported (`exists_compiled`). The induction is on the query, and follows
the reading of fields from left to right through the operands of a connective.

The schema of some records has the names of their attributes, and so a query is compiled for them
exactly when each of its fields is an attribute of some record, and is compiled in the same way when
there are more records (`compile_known_fields`).
-/

namespace FeatureQuery

/-! ### Fields of a query -/

/-- The text of an operand as it was meant, without quotes around it. -/
def unquoted (raw : String) : String := String.ofList (Text.unquote raw.toList)

namespace Expr

mutual

/-- The fields of the conditions, unquoted, from left to right. -/
def fields : Expr → List String
  | .compare _ field _ => [unquoted field]
  | .like field _ => [unquoted field]
  | .not operand => fields operand
  | .join _ operands => fieldsOfAll operands

/-- The fields of the conditions of all trees of a list. -/
def fieldsOfAll : List Expr → List String
  | [] => []
  | e :: es => fields e ++ fieldsOfAll es

end

end Expr

/-- The predicate has the shape of the query, with the same operators, its fields and literals
unquoted, and its patterns read. -/
inductive Compiled : Expr → Predicate → Prop where
  /-- A comparison of the field with the literal. -/
  | compare (op : Comparison) (field value : String) :
      Compiled (.compare op field value) (.compare (unquoted field) op (Literal.ofOperand value))
  /-- A match of the field against the pattern. -/
  | like (field pattern : String) :
      Compiled (.like field pattern)
        (.like (unquoted field) (LikePattern.ofString (unquoted pattern)))
  /-- The opposite of a condition. -/
  | not {operand : Expr} {p : Predicate} (compiled : Compiled operand p) :
      Compiled (.not operand) (.not p)
  /-- As many conditions, in the same order. -/
  | join (connective : Connective) {operands : List Expr} {ps : List Predicate}
      (compiled : List.Forall₂ Compiled operands ps) :
      Compiled (.join connective operands) (.join connective ps)

/-! ### Fields that a schema lacks -/

namespace Schema

variable {α β : Type}

/-- The result, if the schema has all the fields; otherwise the first one that it lacks is the
error. -/
def require (schema : Schema) (fields : List String) (result : α) : Except FilterError α :=
  match fields.find? fun field => !schema.contains field with
  | none => .ok result
  | some field => .error (.unknownField field)

theorem field_eq (schema : Schema) (raw : String) :
    schema.field raw = schema.require [unquoted raw] (unquoted raw) := by
  simp only [field, require, unquoted, List.find?_singleton]
  split_ifs with h <;> simp_all

/-- What is made of a required result requires the same fields. -/
theorem require_bind (schema : Schema) (fields : List String) (result : α) (f : α → β) :
    (schema.require fields result >>= fun a => .ok (f a)) = schema.require fields (f result) := by
  unfold require
  split <;> rfl

/-- Fields that are required one after the other. -/
theorem require_append (schema : Schema) (fields more : List String) (result : α) (f : α → β) :
    (schema.require fields result >>= fun a => schema.require more (f a)) =
      schema.require (fields ++ more) (f result) := by
  simp only [require, List.find?_append]
  cases fields.find? fun field => !schema.contains field <;> rfl

/-- **All fields are known**, and there is a result. -/
theorem require_eq_ok_iff {schema : Schema} {fields : List String} {result a : α} :
    schema.require fields result = .ok a ↔
      (∀ field ∈ fields, schema.contains field) ∧ result = a := by
  cases h : fields.find? fun field => !schema.contains field with
  | none =>
    have hall : ∀ field ∈ fields, schema.contains field = true := by
      simpa using List.find?_eq_none.mp h
    simp only [require, h, Except.ok.injEq]
    exact ⟨fun heq => ⟨hall, heq⟩, fun hboth => hboth.2⟩
  | some field =>
    have hmem := List.mem_of_find?_eq_some h
    have hlacks := List.find?_some h
    simp only [require, h, reduceCtorEq, false_iff]
    rintro ⟨hall, -⟩
    simp [hall field hmem] at hlacks

/-- **The first field that is not known** is the error. -/
theorem require_eq_error_iff {schema : Schema} {fields : List String} {result : α}
    {error : FilterError} :
    schema.require fields result = .error error ↔
      ∃ before field after, fields = before ++ field :: after ∧
        (∀ known ∈ before, schema.contains known) ∧ schema.contains field = false ∧
          error = .unknownField field := by
  cases h : fields.find? fun field => !schema.contains field with
  | none =>
    have hall := List.find?_eq_none.mp h
    simp only [require, h, reduceCtorEq, false_iff]
    rintro ⟨before, field, after, rfl, -, hlacks, -⟩
    exact absurd (hall field (by simp)) (by simp [hlacks])
  | some first =>
    simp only [require, h, Except.error.injEq]
    obtain ⟨hlacks, before, after, rfl, hbefore⟩ := List.find?_eq_some_iff_append.mp h
    constructor
    · rintro rfl
      exact ⟨before, first, after, rfl, by simpa using hbefore, by simpa using hlacks, rfl⟩
    · rintro ⟨before', field, after', heq, hbefore', hlacks', rfl⟩
      have hfirst : (before' ++ field :: after').find? (fun field => !schema.contains field) =
          some field :=
        List.find?_eq_some_iff_append.mpr
          ⟨by simpa using hlacks', before', after', rfl, by simpa using hbefore'⟩
      rw [heq, hfirst] at h
      rw [Option.some.inj h]

end Schema

/-! ### Compiling with any schema -/

mutual

/-- **Every query has one predicate**, which a schema gives if it has the fields of the query. -/
theorem exists_compiled : ∀ e : Expr, ∃ p, Compiled e p ∧ p.fields = e.fields ∧
    ∀ schema : Schema, compile schema e = schema.require e.fields p
  | .compare op field value => by
    refine ⟨_, .compare op field value, rfl, fun schema => ?_⟩
    rw [compile, schema.field_eq, schema.require_bind]
    rfl
  | .like field pattern => by
    refine ⟨_, .like field pattern, rfl, fun schema => ?_⟩
    rw [compile, schema.field_eq, schema.require_bind]
    rfl
  | .not operand => by
    obtain ⟨p, hcompiled, hfields, hcompile⟩ := exists_compiled operand
    refine ⟨.not p, .not hcompiled, hfields, fun schema => ?_⟩
    rw [compile, hcompile, schema.require_bind]
    rfl
  | .join connective operands => by
    obtain ⟨ps, hcompiled, hfields, hcompile⟩ := exists_compiled_all operands
    refine ⟨.join connective ps, .join connective hcompiled, hfields, fun schema => ?_⟩
    rw [compile, hcompile, schema.require_bind]
    rfl

theorem exists_compiled_all : ∀ es : List Expr, ∃ ps, List.Forall₂ Compiled es ps ∧
    Predicate.fieldsOfAll ps = Expr.fieldsOfAll es ∧
      ∀ schema : Schema, compileAll schema es = schema.require (Expr.fieldsOfAll es) ps
  | [] => ⟨[], .nil, rfl, fun _ => rfl⟩
  | e :: es => by
    obtain ⟨p, hp, hfield, hcompile⟩ := exists_compiled e
    obtain ⟨ps, hps, hfields, hcompileAll⟩ := exists_compiled_all es
    refine ⟨p :: ps, .cons hp hps, ?_, fun schema => ?_⟩
    · rw [Predicate.fieldsOfAll, Expr.fieldsOfAll, hfield, hfields]
    · rw [compileAll, hcompile, hcompileAll, Expr.fieldsOfAll]
      simp only [schema.require_bind]
      exact schema.require_append e.fields _ p fun p => p :: ps

end

/-- **Exactly the unknown fields are rejected.** A query is compiled for some records if and only if
each of its fields is an attribute of one of them; otherwise the error is the first field, from left
to right, that none of them has. The predicate has the shape of the query, mentions its fields in
their order, all of which the schema has, and is the same when more records come to those. -/
theorem compile_known_fields (records : List Record) (e : Expr) :
    ((∃ p, compile (.ofRecords records) e = .ok p) ↔
      ∀ field ∈ e.fields, ∃ r ∈ records, field ∈ r.attributes.keys) ∧
    (∀ error, compile (.ofRecords records) e = .error error ↔
      ∃ before field after, e.fields = before ++ field :: after ∧
        (∀ known ∈ before, ∃ r ∈ records, known ∈ r.attributes.keys) ∧
        (∀ r ∈ records, field ∉ r.attributes.keys) ∧ error = .unknownField field) ∧
    ∀ p, compile (.ofRecords records) e = .ok p →
      Compiled e p ∧ p.fields = e.fields ∧
      (∀ field ∈ p.fields, (Schema.ofRecords records).contains field) ∧
      ∀ more, records ⊆ more → compile (.ofRecords more) e = .ok p := by
  obtain ⟨p, hcompiled, hfields, hcompile⟩ := exists_compiled e
  have hknows : ∀ {records : List Record} {field : String},
      (Schema.ofRecords records).contains field ↔ ∃ r ∈ records, field ∈ r.attributes.keys := by
    intro records field
    rw [Schema.contains, List.contains_iff_mem, Schema.mem_ofRecords]
  refine ⟨?_, fun error => ?_, fun q hq => ?_⟩
  · simp only [hcompile, Schema.require_eq_ok_iff, exists_and_left, exists_eq', and_true, hknows]
  · have hlacks : ∀ {field : String}, (Schema.ofRecords records).contains field = false ↔
        ∀ r ∈ records, field ∉ r.attributes.keys := by
      intro field
      rw [← Bool.not_eq_true, hknows]
      push Not
      rfl
    simp only [hcompile, Schema.require_eq_error_iff, hknows, hlacks]
  · rw [hcompile] at hq
    obtain ⟨hall, rfl⟩ := Schema.require_eq_ok_iff.mp hq
    refine ⟨hcompiled, hfields, hfields ▸ hall, fun more hmore => ?_⟩
    rw [hcompile]
    refine Schema.require_eq_ok_iff.mpr ⟨fun field hf => ?_, rfl⟩
    obtain ⟨r, hr, hkey⟩ := hknows.mp (hall field hf)
    exact hknows.mpr ⟨r, hmore hr, hkey⟩

/-- Each of two records has one of the fields, one of which is written in quotes with a quote in it.
With one record only, that field is missing, and a field that comes after it is not reported. -/
theorem compile_known_fields_quoted :
    let cadiz := Record.ofAttributes [("nombre", .text "Cadiz")]
    let manga := Record.ofAttributes [("Mar d'Oc", .number (Double.ofInt 2))]
    let e := Expr.join .and [.like "nombre" "'C.*'", .not (.compare .le "'Mar d''Oc'" "'3'")]
    let p := Predicate.join .and [.like "nombre" (.ofString "C.*"),
      .not (.compare "Mar d'Oc" .le ⟨"3", some (Double.ofInt 3)⟩)]
    let other := Expr.join .or [e, .compare .eq "zona" "sur"]
    (compile (.ofRecords [cadiz, manga]) e = .ok p ∧ Compiled e p ∧
      p.fields = ["nombre", "Mar d'Oc"] ∧ compile (.ofRecords [manga, cadiz, cadiz]) e = .ok p) ∧
    compile (.ofRecords [cadiz]) other = .error (.unknownField "Mar d'Oc") := by
  intro cadiz manga e p other
  have hcompile : compile (.ofRecords [cadiz, manga]) e = .ok p := by decide +kernel
  obtain ⟨hcompiled, hfields, -, hmore⟩ :=
    (compile_known_fields [cadiz, manga] e).2.2 p hcompile
  have hother : other.fields = ["nombre"] ++ "Mar d'Oc" :: ["zona"] := by decide +kernel
  refine ⟨⟨hcompile, hcompiled, hfields, hmore _ (by simp)⟩,
    ((compile_known_fields [cadiz] other).2.1 _).mpr ⟨_, _, _, hother, ?_, ?_, rfl⟩⟩
  · simp only [List.mem_singleton, forall_eq, exists_eq_left]
    decide +kernel
  · simp only [List.mem_singleton, forall_eq]
    decide +kernel

end FeatureQuery
