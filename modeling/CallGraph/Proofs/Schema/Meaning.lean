import CallGraph.Proofs.Schema.Acceptance

/-!
# What documents stand for

The values that stand for something are said by relations that follow the form of a document: an object with its
members, an array item by item, a table entry by entry. Each has one equivalence with the check of the same form, so
that whole documents are told apart without looking at a check.
-/

namespace CallGraph.Schema

open Checked

variable {α : Type}

/-- An object whose members stand for something. -/
def IsObject (stands : Json.Members → α → Prop) (value : Json) (result : α) : Prop :=
  ∃ members, value = .object members ∧ stands members result

/-- A member that has to be there. -/
def Has (key : String) (stands : Json → α → Prop) (members : Json.Members) (result : α) : Prop :=
  ∃ value, Json.Members.get? key members = some value ∧ stands value result

/-- A member that need not be there, with what it stands for when it is not. -/
def MayHave (key : String) (default : α) (stands : Json → α → Prop) (members : Json.Members)
    (result : α) : Prop :=
  (Json.Members.get? key members = none ∧ result = default) ∨ Has key stands members result

def IsArray (stands : Json → α → Prop) (value : Json) (results : List α) : Prop :=
  ∃ items, value = .array items ∧ List.Forall₂ stands items results

/-- An object whose keys are data; what stands under `__proto__` has to be right and is left out. -/
def IsTable (stands : Json → α → Prop) (value : Json) (results : List (String × α)) : Prop :=
  ∃ members pairs, value = .object members ∧
    List.Forall₂ (fun member pair => member.1 = pair.1 ∧ stands member.2 pair.2) members pairs ∧
    (pairs.filter fun pair => pair.1 != "__proto__") = results

/-- A text, or `null` for none. -/
def IsText? (value : Json) (text? : Option String) : Prop :=
  value = .string? text?

theorem exists_of_forall₂ {β : Type} {stands : α → β → Prop} {items : List α} {results : List β}
    (h : List.Forall₂ stands items results) : ∀ result ∈ results, ∃ item, stands item result := by
  induction h with
  | nil => simp
  | cons hitem _ ih => exact List.forall_mem_cons.2 ⟨⟨_, hitem⟩, ih⟩

theorem IsArray.forall_mem {stands : Json → α → Prop} {value : Json} {results : List α}
    (h : IsArray stands value results) : ∀ result ∈ results, ∃ item, stands item result := by
  obtain ⟨items, -, hitems⟩ := h
  exact exists_of_forall₂ hitems

theorem isArray_map {stands : Json → α → Prop} {write : α → Json} {results : List α}
    (h : ∀ result ∈ results, stands (write result) result) :
    IsArray stands (.array (results.map write)) results := by
  refine ⟨_, rfl, ?_⟩
  rw [List.forall₂_map_left_iff, List.forall₂_same]
  exact h

/-- What the items stand for may be read off in two steps. -/
theorem isArray_map_iff {β : Type} {f : α → β} {stands : Json → α → Prop} {value : Json}
    {results : List β} :
    IsArray (fun value result => ∃ given, stands value given ∧ f given = result) value results ↔
      ∃ givens, IsArray stands value givens ∧ givens.map f = results := by
  constructor
  · rintro ⟨items, hvalue, hitems⟩
    suffices ∃ givens, List.Forall₂ stands items givens ∧ givens.map f = results by
      obtain ⟨givens, hgivens, hresults⟩ := this
      exact ⟨givens, ⟨items, hvalue, hgivens⟩, hresults⟩
    clear hvalue
    induction hitems with
    | nil => exact ⟨[], .nil, rfl⟩
    | cons hitem _ ih =>
      obtain ⟨given, hgiven, rfl⟩ := hitem
      obtain ⟨givens, hgivens, rfl⟩ := ih
      exact ⟨given :: givens, .cons hgiven hgivens, rfl⟩
  · rintro ⟨givens, ⟨items, hvalue, hitems⟩, rfl⟩
    refine ⟨items, hvalue, List.forall₂_map_right_iff.2 (hitems.imp ?_)⟩
    exact fun value given hgiven => ⟨given, hgiven, rfl⟩

theorem IsTable.forall_mem {stands : Json → α → Prop} {value : Json} {results : List (String × α)}
    (h : IsTable stands value results) :
    ∀ pair ∈ results, pair.1 ≠ "__proto__" ∧ ∃ value, stands value pair.2 := by
  obtain ⟨members, pairs, -, hpairs, rfl⟩ := h
  intro pair hpair
  obtain ⟨hmem, hkey⟩ := List.mem_filter.1 hpair
  obtain ⟨member, -, hmember⟩ := exists_of_forall₂ hpairs pair hmem
  exact ⟨bne_iff_ne.1 hkey, member.2, hmember⟩

theorem isTable_map {stands : Json → α → Prop} {write : α → Json} {results : List (String × α)}
    (h : ∀ pair ∈ results, pair.1 ≠ "__proto__" ∧ stands (write pair.2) pair.2) :
    IsTable stands (.object (results.map fun pair => (pair.1, write pair.2))) results := by
  refine ⟨_, results, rfl, ?_, ?_⟩
  · rw [List.forall₂_map_left_iff, List.forall₂_same]
    exact fun pair hpair => ⟨rfl, (h pair hpair).2⟩
  · rw [List.filter_eq_self]
    exact fun pair hpair => bne_iff_ne.2 (h pair hpair).1

namespace Check

variable {check : Check α} {stands : Json → α → Prop} {key : String} {members : Json.Members}

theorem accepts_field_has_iff (hnone : ∀ result, ¬ (check none).Accepts result)
    (hcheck : ∀ value result, (check (some value)).Accepts result ↔ stands value result) {result : α} :
    (field key check members).Accepts result ↔ Has key stands members result := by
  rw [accepts_field_iff, Has]
  cases Json.Members.get? key members with
  | none => simp [hnone]
  | some value => simp [hcheck]

theorem accepts_field_optional_iff
    (hcheck : ∀ value result, (check (some value)).Accepts result ↔ stands value result)
    {result : Option α} :
    (field key (optional check) members).Accepts result ↔
      MayHave key none (fun value result => ∃ given, stands value given ∧ result = some given)
        members result := by
  rw [accepts_field_iff, MayHave, Has]
  cases Json.Members.get? key members with
  | none => simp
  | some value => simp [hcheck, eq_comm]

theorem accepts_field_withDefault_iff {default : α}
    (hcheck : ∀ value result, (check (some value)).Accepts result ↔ stands value result) {result : α} :
    (field key (withDefault default check) members).Accepts result ↔
      MayHave key default stands members result := by
  rw [accepts_field_iff, MayHave, Has]
  cases Json.Members.get? key members with
  | none => simp [eq_comm]
  | some value => simp [hcheck]

theorem accepts_nullable_string_iff {value : Json} {text? : Option String} :
    (nullable string (some value)).Accepts text? ↔ IsText? value text? := by
  cases value <;> cases text? <;> simp [nullable, IsText?, Json.string?]

theorem accepts_object_some_iff {check : Json.Members → Checked α}
    {stands : Json.Members → α → Prop}
    (hcheck : ∀ members result, (check members).Accepts result ↔ stands members result)
    {value : Json} {result : α} :
    (object check (some value)).Accepts result ↔ IsObject stands value result := by
  simp [IsObject, hcheck]

theorem accepts_array_some_iff
    (hcheck : ∀ value result, (check (some value)).Accepts result ↔ stands value result)
    {value : Json} {results : List α} :
    (array check (some value)).Accepts results ↔ IsArray stands value results := by
  simp [accepts_array_iff, IsArray, hcheck]

theorem accepts_entries_some_iff
    (hcheck : ∀ value result, (check (some value)).Accepts result ↔ stands value result)
    {value : Json} {results : List (String × α)} :
    (entries check (some value)).Accepts results ↔ IsTable stands value results := by
  simp [accepts_entries_iff, IsTable, hcheck]

end Check

end CallGraph.Schema
