import FeatureQuery.Proofs.Entries
import FeatureQuery.Proofs.Predicate.Compiling
import FeatureQuery.Proofs.Predicate.Selection
import Mathlib.Data.List.Forall2

/-!
# What evaluation sees of a record

A predicate looks at the fields that it mentions and at nothing else. Two records **agree** on some
names if they have the same value under each of them, where a missing attribute counts as null
(`Record.AgreeOn`); then a predicate that mentions no other field has the same answer on both, or
fails on both with the same error (`Predicate.evaluate_congr`). How a leaf reads its field does not
matter: each of them starts from `Record.value`.

Records may be replaced one by one by others that agree. `hitPositions` tells where the hits and the
failures of a search are, and `positions` where the records are that `select` finds (`select_eq`);
both stay the same (`Predicate.evaluate_fields`). In particular they do so when attributes that are
not mentioned are added, changed, removed or moved, and when missing attributes become null
(`Record.Edited.agreeOn`).
-/

namespace FeatureQuery

/-! ### Records that agree -/

namespace Record

/-- The records have the same value under each of the names; a missing attribute counts as null. -/
def AgreeOn (names : List String) (r r' : Record) : Prop :=
  ∀ name ∈ names, r.value name = r'.value name

/-- The second record comes from the first one by changes that have nothing to do with the names. -/
inductive Edited (names : List String) : Record → Record → Prop where
  /-- An attribute that is not mentioned is added, or gets another value. -/
  | put (r : Record) {name : String} (unmentioned : name ∉ names) (value : Value) :
      Edited names r { r with attributes := r.attributes.put name value }
  /-- An attribute that is not mentioned is removed. -/
  | remove {r r' : Record} {name : String} (unmentioned : name ∉ names)
      (rest : r'.attributes.entries = r.attributes.entries.filter fun a => a.1 ≠ name) :
      Edited names r r'
  /-- A missing attribute becomes null. -/
  | null (r : Record) {name : String} (missing : r.attributes.get? name = none) :
      Edited names r { r with attributes := r.attributes.put name .null }
  /-- The attributes stand in another order, and the id and the geometry are any. -/
  | move {r r' : Record} (perm : r.attributes.entries.Perm r'.attributes.entries) :
      Edited names r r'
  /-- One change after the other. -/
  | trans {r r' r'' : Record} (first : Edited names r r') (second : Edited names r' r'') :
      Edited names r r''

variable {names : List String} {r r' : Record}

/-- Records that hold the same attributes under the names, wherever they stand, agree on them. -/
theorem agreeOn_of_mem (h : ∀ name ∈ names, ∀ value,
    (name, value) ∈ r.attributes.entries ↔ (name, value) ∈ r'.attributes.entries) :
    r.AgreeOn names r' := by
  intro name hname
  have hget : r.attributes.get? name = r'.attributes.get? name := by
    refine Option.ext fun value => ?_
    rw [OrderedMap.get?, OrderedMap.get?, Entries.get?_eq_some_iff r.attributes.nodup_keys,
      Entries.get?_eq_some_iff r'.attributes.nodup_keys]
    exact h name hname value
  rw [value, value, hget]

/-- **Changes that have nothing to do with the names** leave records that agree on them. -/
theorem Edited.agreeOn (h : Edited names r r') : r.AgreeOn names r' := by
  induction h with
  | @put r name unmentioned v =>
    intro other hother
    have hne : other ≠ name := fun heq => unmentioned (heq ▸ hother)
    rw [value, value, OrderedMap.get?_put_of_ne _ hne]
  | @remove r r' name unmentioned rest =>
    refine agreeOn_of_mem fun other hother value => ?_
    have hne : other ≠ name := fun heq => unmentioned (heq ▸ hother)
    simp [rest, hne]
  | @null r name missing =>
    intro other _
    by_cases heq : other = name
    · subst heq
      simp [value, missing]
    · rw [value, value, OrderedMap.get?_put_of_ne _ heq]
  | move perm => exact agreeOn_of_mem fun _ _ _ => perm.mem_iff
  | trans _ _ ihFirst ihSecond =>
    exact fun name hname => (ihFirst name hname).trans (ihSecond name hname)

end Record

/-! ### One record -/

namespace Predicate

mutual

/-- **Only the fields that a predicate mentions count**, for its answer and for its error. -/
theorem evaluate_congr {r r' : Record} : ∀ p : Predicate, r.AgreeOn p.fields r' →
    evaluate r p = evaluate r' p
  | .compare field op literal, h => by
    rw [evaluate, evaluate, h field (List.mem_singleton.mpr rfl)]
  | .like field pattern, h => by
    rw [evaluate, evaluate, h field (List.mem_singleton.mpr rfl)]
  | .not operand, h => by rw [evaluate, evaluate, evaluate_congr operand h]
  | .join connective operands, h => evaluateAll_congr connective operands h

theorem evaluateAll_congr {r r' : Record} (connective : Connective) : ∀ ps : List Predicate,
    r.AgreeOn (fieldsOfAll ps) r' → evaluateAll r connective ps = evaluateAll r' connective ps
  | [], _ => rfl
  | p :: ps, h => by
    have hfirst : r.AgreeOn p.fields r' := fun name hname => h name (List.mem_append_left _ hname)
    have hrest : r.AgreeOn (fieldsOfAll ps) r' :=
      fun name hname => h name (List.mem_append_right _ hname)
    rw [evaluateAll, evaluateAll, evaluate_congr p hfirst, evaluateAll_congr connective ps hrest]

end

end Predicate

/-! ### Where records are found -/

section Positions

variable {α β ε : Type} {test : α → Except ε Bool} {test' : β → Except ε Bool}

/-- The positions of the hits, and the failures in their places. -/
def hitPositions (test : α → Except ε Bool) (items : List α) : List (Except ε Nat) :=
  (hits (fun a => test a.1) items.zipIdx).map (Except.map Prod.snd)

/-- The positions of all hits, or the first failure. -/
def positions (test : α → Except ε Bool) (items : List α) : Except ε (List Nat) :=
  collect (hitPositions test items)

/-- **Items with the same answers** are found in the same places. -/
theorem hitPositions_congr {items : List α} {others : List β}
    (h : List.Forall₂ (fun a b => test a = test' b) items others) :
    hitPositions test items = hitPositions test' others := by
  suffices hfrom : ∀ n, (hits (fun a => test a.1) (items.zipIdx n)).map (Except.map Prod.snd) =
      (hits (fun b => test' b.1) (others.zipIdx n)).map (Except.map Prod.snd) from hfrom 0
  induction h with
  | nil => exact fun _ => rfl
  | @cons a b items others hab _ ih =>
    intro n
    rw [List.zipIdx_cons, List.zipIdx_cons]
    have ih := ih (n + 1)
    simp only [hits, List.filterMap_cons, hab] at ih ⊢
    rcases test' b with e | _ | _
    · simpa [Except.map] using ih
    · exact ih
    · simpa [Except.map] using ih

theorem collect_map (f : α → β) (results : List (Except ε α)) :
    collect (results.map (Except.map f)) = (collect results).map (List.map f) := by
  induction results with
  | nil => rfl
  | cons result rest ih =>
    cases result with
    | error e => rfl
    | ok a =>
      simp only [List.map_cons, Except.map, collect, ih]
      cases collect rest <;> rfl

/-- **What is found** is what stands at the positions. -/
theorem select_eq (test : α → Except ε Bool) (items : List α) :
    select test items = (positions test items).map fun found => found.filterMap (items[·]?) := by
  have hnumbered : select test items =
      (select (fun a => test a.1) items.zipIdx).map (List.map Prod.fst) := by
    rw [← select_map, List.zipIdx_map_fst]
  have hpositions : positions test items =
      (select (fun a => test a.1) items.zipIdx).map (List.map Prod.snd) := collect_map _ _
  rw [hnumbered, hpositions]
  cases hselect : select (fun a => test a.1) items.zipIdx with
  | error e => rfl
  | ok found =>
    obtain ⟨-, rfl⟩ := select_eq_ok_iff.mp hselect
    simp only [Except.map, List.filterMap_map, Except.ok.injEq]
    rw [← List.filterMap_eq_map]
    refine List.filterMap_congr fun a ha => ?_
    exact (List.mk_mem_zipIdx_iff_getElem?.mp (List.mem_of_mem_filter ha)).symm

end Positions

/-- **Evaluation sees only the named fields.** A predicate has the same answer, or the same error,
on two records that agree on the fields that it mentions, whatever else they hold. So, when records
are replaced by records that agree with them, one by one, the hits and the failures stay where they
were, for one who takes them all and for one who asks for one after the other; and records agree
when attributes that are not mentioned are added, changed, removed or moved and when missing ones
become null. -/
theorem Predicate.evaluate_fields (p : Predicate) :
    (∀ r r', r.AgreeOn p.fields r' → p.evaluate r = p.evaluate r') ∧
    (∀ records others, List.Forall₂ (Record.AgreeOn p.fields) records others →
      hitPositions p.evaluate records = hitPositions p.evaluate others ∧
        positions p.evaluate records = positions p.evaluate others) ∧
    (∀ records, select p.evaluate records =
      (positions p.evaluate records).map fun found => found.filterMap (records[·]?)) ∧
    ∀ r r', Record.Edited p.fields r r' → r.AgreeOn p.fields r' := by
  refine ⟨fun r r' h => p.evaluate_congr h, fun records others h => ?_,
    select_eq p.evaluate, fun r r' h => h.agreeOn⟩
  have hhits : hitPositions p.evaluate records = hitPositions p.evaluate others :=
    hitPositions_congr (h.imp fun r r' hagree => p.evaluate_congr hagree)
  exact ⟨hhits, congrArg collect hhits⟩

/-- The second records lack what is not mentioned, give a missing attribute as null, and have their
attributes in another order. The failure stays at its place, which is behind a hit and before a
record that does not pass. -/
theorem Predicate.evaluate_fields_edited :
    let p := Predicate.join .or [.like "nombre" (.ofString "C.*"),
      .compare "habitantes" .lt (Literal.ofOperand "muchos")]
    let records := [Record.ofAttributes [("zona", .text "sur"), ("nombre", .text "Cadiz")],
      Record.ofAttributes [("nombre", .null), ("habitantes", .number (Double.ofInt 7))],
      Record.ofAttributes [("zona", .text "norte")]]
    let others := [Record.ofAttributes [("nombre", .text "Cadiz")],
      Record.ofAttributes [("habitantes", .number (Double.ofInt 7)), ("id", .text "x")],
      Record.ofAttributes [("zona", .text "norte"), ("nombre", .null)]]
    let e := FilterError.typeMismatch "habitantes" (.numberAgainstText (Double.ofInt 7) "muchos")
    (List.Forall₂ (Record.AgreeOn p.fields) records others ∧
      hitPositions p.evaluate records = [.ok 0, .error e] ∧
      hitPositions p.evaluate others = [.ok 0, .error e]) ∧
    (let r := Record.ofAttributes [("nombre", .text "Jerez")]
     let r' := { r with attributes := r.attributes.put "habitantes" .null }
     Record.Edited p.fields r r' ∧ r.AgreeOn p.fields r' ∧ p.evaluate r = p.evaluate r') := by
  intro p records others e
  have hagree : List.Forall₂ (Record.AgreeOn p.fields) records others := by
    refine .cons ?_ (.cons ?_ (.cons ?_ .nil)) <;>
      · unfold Record.AgreeOn
        decide +kernel
  have hrecords : hitPositions p.evaluate records = [.ok 0, .error e] := by rfl
  obtain ⟨heval, hpositions, -, hedited⟩ := p.evaluate_fields
  refine ⟨⟨hagree, hrecords, (hpositions _ _ hagree).1.symm.trans hrecords⟩, ?_⟩
  intro r r'
  have hnull : Record.Edited p.fields r r' := .null r rfl
  exact ⟨hnull, hedited r r' hnull, heval r r' (hedited r r' hnull)⟩

end FeatureQuery
