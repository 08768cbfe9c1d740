import CallGraph.Proofs.Number.Safe
import CallGraph.Schema.Checked
import Mathlib.Data.List.Forall2

/-!
# What a check accepts

A document is accepted when its check leaves a value and tells no issue. Everything the proofs know
of checks is which values they accept: each way of putting checks together has one equivalence here,
which takes the acceptance of the whole apart into that of its parts. No proof elsewhere looks at
how issues are collected unless it speaks of the issues themselves.
-/

namespace CallGraph.Schema

namespace Checked

variable {α β : Type}

/-- The check leaves the value and has no issue with it. -/
def Accepts (c : Checked α) (value : α) : Prop :=
  c.value? = some value ∧ c.issues = []

theorem Accepts.eq {c : Checked α} {value : α} (h : c.Accepts value) : c = ⟨some value, []⟩ := by
  obtain ⟨value?, issues⟩ := c
  obtain ⟨rfl, rfl⟩ := h
  rfl

theorem toExcept_eq_ok_iff {c : Checked α} {value : α} :
    c.toExcept = .ok value ↔ c.Accepts value := by
  obtain ⟨value?, issues⟩ := c
  cases value? <;> cases issues <;> simp [toExcept, Accepts]

@[simp] theorem accepts_ok_iff {value other : α} : (ok value).Accepts other ↔ value = other := by
  simp [Accepts, ok]

@[simp] theorem not_accepts_refuse {problem : Problem} {value : α} :
    ¬ (refuse problem).Accepts value := by
  simp [Accepts, refuse]

@[simp] theorem accepts_flawed_iff {value other : α} {problems : List Problem} :
    (flawed value problems).Accepts other ↔ value = other ∧ problems = [] := by
  simp [Accepts, flawed]

@[simp] theorem accepts_map_iff {f : α → β} {c : Checked α} {value : β} :
    (f <$> c).Accepts value ↔ ∃ given, c.Accepts given ∧ f given = value := by
  change (c.value?.map f = some value ∧ c.issues = []) ↔ _
  simp only [Option.map_eq_some_iff, Accepts]
  constructor
  · rintro ⟨⟨given, hgiven, hvalue⟩, hissues⟩
    exact ⟨given, ⟨hgiven, hissues⟩, hvalue⟩
  · rintro ⟨given, ⟨hgiven, hissues⟩, hvalue⟩
    exact ⟨⟨given, hgiven, hvalue⟩, hissues⟩

@[simp] theorem accepts_seq_iff {f : Checked (α → β)} {c : Checked α} {value : β} :
    (f <*> c).Accepts value ↔ ∃ g given, f.Accepts g ∧ c.Accepts given ∧ g given = value := by
  change ((f.value?.bind fun g => c.value?.map g) = some value ∧ f.issues ++ c.issues = []) ↔ _
  simp only [Option.bind_eq_some_iff, Option.map_eq_some_iff, List.append_eq_nil_iff, Accepts]
  constructor
  · rintro ⟨⟨g, hg, given, hgiven, hvalue⟩, hleft, hright⟩
    exact ⟨g, given, ⟨hg, hleft⟩, ⟨hgiven, hright⟩, hvalue⟩
  · rintro ⟨g, given, ⟨hg, hleft⟩, ⟨hgiven, hright⟩, hvalue⟩
    exact ⟨⟨g, hg, given, hgiven, hvalue⟩, hleft, hright⟩

@[simp] theorem accepts_under_iff {step : String} {c : Checked α} {value : α} :
    (c.under step).Accepts value ↔ c.Accepts value := by
  simp [Accepts, under]

@[simp] theorem accepts_refine_iff {test : α → List Issue} {c : Checked α} {value : α} :
    (c.refine test).Accepts value ↔ c.Accepts value ∧ test value = [] := by
  obtain ⟨value?, issues⟩ := c
  cases value? with
  | none => simp [Accepts, refine]
  | some given =>
    simp only [Accepts, refine, Option.some.injEq, List.append_eq_nil_iff]
    constructor
    · rintro ⟨rfl, hissues, htest⟩
      exact ⟨⟨rfl, hissues⟩, htest⟩
    · rintro ⟨⟨rfl, hissues⟩, htest⟩
      exact ⟨rfl, hissues, htest⟩

theorem accepts_all_iff {checks : List (Checked α)} {values : List α} :
    (all checks).Accepts values ↔ List.Forall₂ Accepts checks values := by
  induction checks generalizing values with
  | nil =>
    rw [all, accepts_ok_iff, List.forall₂_nil_left_iff]
    exact eq_comm
  | cons check rest ih =>
    rw [all, accepts_seq_iff]
    constructor
    · rintro ⟨g, tail, hcons, htail, rfl⟩
      obtain ⟨head, hhead, rfl⟩ := accepts_map_iff.1 hcons
      exact .cons hhead (ih.1 htail)
    · rintro (_ | ⟨hhead, htail⟩)
      exact ⟨_, _, accepts_map_iff.2 ⟨_, hhead, rfl⟩, ih.2 htail, rfl⟩

end Checked

namespace Check

open Checked

variable {α : Type}

@[simp] theorem not_accepts_mismatch {expected : String} {value : Option Json} {result : α} :
    ¬ (mismatch expected value).Accepts result := by
  cases value <;> exact not_accepts_refuse

@[simp] theorem accepts_string_iff {value : Option Json} {text : String} :
    (string value).Accepts text ↔ value = some (.string text) := by
  unfold string
  split
  · simp
  · next hother =>
    simp only [not_accepts_mismatch, false_iff]
    exact fun h => hother text h

@[simp] theorem accepts_bool_iff {value : Option Json} {flag : Bool} :
    (bool value).Accepts flag ↔ value = some (.bool flag) := by
  unfold bool
  split
  · simp
  · next hother =>
    simp only [not_accepts_mismatch, false_iff]
    exact fun h => hother flag h

@[simp] theorem accepts_number_iff {value : Option Json} {n : Number} :
    (number value).Accepts n ↔ value = some (.number n) := by
  unfold number
  split
  · simp
  · next hother =>
    simp only [not_accepts_mismatch, false_iff]
    exact fun h => hother n h

@[simp] theorem accepts_nonEmptyString_iff {words : String} {value : Option Json} {text : String} :
    (nonEmptyString words value).Accepts text ↔ value = some (.string text) ∧ text ≠ "" := by
  simp [nonEmptyString]

theorem countProblems_eq_nil_iff {value : Number} :
    countProblems value = [] ↔ ∃ n : Nat, value = .ofNat n := by
  constructor
  · intro h
    simp only [countProblems, List.append_eq_nil_iff, ite_eq_left_iff, imp_false,
      Bool.not_eq_true, Bool.not_eq_false, ite_eq_right_iff, List.cons_ne_self] at h
    obtain ⟨hinteger, hsign⟩ := h
    obtain ⟨i, hi⟩ := Option.isSome_iff_exists.1 hinteger
    obtain rfl := Number.toInt?_eq_some hi
    have hnonneg : 0 ≤ i := by
      simpa [Number.ofInt, Number.ofNat, Number.less] using hsign
    obtain ⟨n, rfl⟩ := Int.eq_ofNat_of_zero_le hnonneg
    exact ⟨n, by simp [Number.ofInt, Number.ofNat]⟩
  · rintro ⟨n, rfl⟩
    simp [countProblems, Number.isInteger]

@[simp] theorem accepts_optional_none_iff {check : Check α} {result : Option α} :
    (optional check none).Accepts result ↔ result = none := by
  simp [optional, eq_comm]

@[simp] theorem accepts_optional_some_iff {check : Check α} {value : Json} {result : Option α} :
    (optional check (some value)).Accepts result ↔
      ∃ given, (check (some value)).Accepts given ∧ some given = result := by
  simp [optional]

@[simp] theorem accepts_withDefault_none_iff {default : α} {check : Check α} {result : α} :
    (withDefault default check none).Accepts result ↔ default = result := by
  simp [withDefault]

@[simp] theorem accepts_withDefault_some_iff {default : α} {check : Check α} {value : Json}
    {result : α} :
    (withDefault default check (some value)).Accepts result ↔
      (check (some value)).Accepts result :=
  Iff.rfl

@[simp] theorem accepts_object_iff {check : Json.Members → Checked α} {value : Option Json}
    {result : α} :
    (object check value).Accepts result ↔
      ∃ members, value = some (.object members) ∧ (check members).Accepts result := by
  unfold object
  split
  · simp
  · next hother =>
    simp only [not_accepts_mismatch, false_iff, not_exists, not_and]
    exact fun members h => absurd h (hother members)

@[simp] theorem accepts_field_iff {key : String} {check : Check α} {members : Json.Members}
    {result : α} :
    (field key check members).Accepts result ↔
      (check (Json.Members.get? key members)).Accepts result :=
  accepts_under_iff

private theorem accepts_items_iff {check : Check α} {items : List Json} {results : List α}
    {index : Nat} :
    List.Forall₂ Accepts
        ((items.zipIdx index).map fun (item, index) => (check (some item)).under (toString index))
        results ↔
      List.Forall₂ (fun item result => (check (some item)).Accepts result) items results := by
  induction items generalizing index results with
  | nil => simp
  | cons item rest ih =>
    rw [List.zipIdx_cons, List.map_cons, List.forall₂_cons_left_iff, List.forall₂_cons_left_iff]
    simp only [accepts_under_iff, ih]

theorem accepts_array_iff {check : Check α} {value : Option Json} {results : List α} :
    (array check value).Accepts results ↔
      ∃ items, value = some (.array items) ∧
        List.Forall₂ (fun item result => (check (some item)).Accepts result) items results := by
  unfold array
  split
  · next items =>
    rw [accepts_all_iff, accepts_items_iff]
    simp
  · next hother =>
    simp only [not_accepts_mismatch, false_iff, not_exists, not_and]
    exact fun items h => absurd h (hother items)

theorem forall_mem_of_accepts_array {check : Check α} {property : α → Prop}
    (hitem : ∀ {value result}, (check value).Accepts result → property result)
    {value : Option Json} {results : List α} (h : (array check value).Accepts results) :
    ∀ result ∈ results, property result := by
  obtain ⟨items, -, hitems⟩ := accepts_array_iff.1 h
  clear h
  induction hitems with
  | nil => simp
  | cons haccepts _ ih => exact List.forall_mem_cons.2 ⟨hitem haccepts, ih⟩

/-- An object whose keys are data is accepted entry by entry; what stands under `__proto__` is
accepted, too, but not kept. -/
theorem accepts_entries_iff {check : Check α} {value : Option Json}
    {results : List (String × α)} :
    (entries check value).Accepts results ↔
      ∃ members pairs, value = some (.object members) ∧
        List.Forall₂ (fun member pair => member.1 = pair.1 ∧
          (check (some member.2)).Accepts pair.2) members pairs ∧
        (pairs.filter fun pair => pair.1 != "__proto__") = results := by
  unfold entries
  split
  · next members =>
    simp only [accepts_map_iff, accepts_all_iff, List.forall₂_map_left_iff, accepts_under_iff]
    constructor
    · rintro ⟨pairs, hpairs, rfl⟩
      refine ⟨members, pairs, rfl, hpairs.imp ?_, rfl⟩
      rintro member pair ⟨entry, hentry, rfl⟩
      exact ⟨rfl, hentry⟩
    · rintro ⟨members, pairs, hvalue, hpairs, rfl⟩
      cases hvalue
      refine ⟨pairs, hpairs.imp ?_, rfl⟩
      rintro ⟨key, json⟩ ⟨_, entry⟩ ⟨rfl, hentry⟩
      exact ⟨entry, hentry, rfl⟩
  · next hother =>
    simp only [not_accepts_mismatch, false_iff, not_exists, not_and]
    exact fun members _ h => absurd h (hother members)

end Check

end CallGraph.Schema
