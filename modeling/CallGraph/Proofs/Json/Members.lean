import CallGraph.Json.Basic
import Mathlib.Data.List.Basic
import Mathlib.Data.List.Nodup

/-!
# Members of objects

Setting a member decides what its key stands for and leaves all other keys alone, wherever the order
of members puts it. An object that is read from members with distinct keys has just these members,
in an order of its own.
-/

namespace CallGraph.Json.Members

open scoped List

theorem get?_eq_none_iff {key : String} {members : Members} :
    get? key members = none ↔ key ∉ members.map Prod.fst := by
  induction members with
  | nil => simp [get?]
  | cons member rest ih =>
    rw [get?]
    split
    · next hsame => simp [hsame]
    · next hdiffer => simp [ih, Ne.symm hdiffer]

theorem mem_of_get?_eq_some {key : String} {members : Members} {value : Json}
    (h : get? key members = some value) : (key, value) ∈ members := by
  induction members with
  | nil => cases h
  | cons member rest ih =>
    rw [get?] at h
    split at h
    · next hsame =>
      obtain ⟨present, given⟩ := member
      cases h
      exact hsame ▸ List.mem_cons_self ..
    · exact List.mem_cons_of_mem _ (ih h)

theorem get?_eq_some_of_mem {members : Members} (hnodup : (members.map Prod.fst).Nodup) {key : String}
    {value : Json} (h : (key, value) ∈ members) : get? key members = some value := by
  induction members with
  | nil => cases h
  | cons member rest ih =>
    rw [List.map_cons, List.nodup_cons] at hnodup
    rw [get?]
    rcases List.mem_cons.1 h with rfl | hmem
    · exact if_pos rfl
    · have hother : member.1 ≠ key := by
        rintro rfl
        exact hnodup.1 (List.mem_map.2 ⟨_, hmem, rfl⟩)
      rw [if_neg hother, ih hnodup.2 hmem]

theorem get?_replace {key : String} {members : Members} (hpresent : key ∈ members.map Prod.fst)
    (other : String) (value : Json) :
    get? other (replace key value members) =
      if other = key then some value else get? other members := by
  induction members with
  | nil => simp at hpresent
  | cons member rest ih =>
    rw [replace]
    split
    · next hsame =>
      simp only [get?, hsame, eq_comm]
      split <;> rfl
    · next hdiffers =>
      rw [List.map_cons, List.mem_cons] at hpresent
      simp only [get?, ih (hpresent.resolve_left (Ne.symm hdiffers))]
      by_cases hother : other = key
      · simp [hother, hdiffers]
      · simp [hother]

theorem get?_place {key : String} {members : Members} (habsent : key ∉ members.map Prod.fst)
    (other : String) (value : Json) :
    get? other (place key value members) =
      if other = key then some value else get? other members := by
  induction members with
  | nil => simp [place, get?, eq_comm]
  | cons member rest ih =>
    rw [List.map_cons, List.mem_cons, not_or] at habsent
    rw [place]
    split
    · simp only [get?, eq_comm]
    · simp only [get?, ih habsent.2]
      by_cases hother : other = key
      · simp [hother, Ne.symm habsent.1]
      · simp [hother]

theorem has_iff {key : String} {members : Members} :
    has key members = true ↔ key ∈ members.map Prod.fst := by
  rw [has, Option.isSome_iff_ne_none, ne_eq, get?_eq_none_iff, not_not]

theorem get?_insert (members : Members) (key other : String) (value : Json) :
    get? other (insert members key value) =
      if other = key then some value else get? other members := by
  rw [insert]
  split
  · next hpresent => exact get?_replace (has_iff.1 hpresent) other value
  · next habsent => exact get?_place (fun h => habsent (has_iff.2 h)) other value

theorem get?_merge_of_not_mem {key : String} {extra : Members} (h : key ∉ extra.map Prod.fst)
    (base : Members) : get? key (merge base extra) = get? key base := by
  induction extra generalizing base with
  | nil => rfl
  | cons member rest ih =>
    rw [List.map_cons, List.mem_cons, not_or] at h
    calc get? key (merge base (member :: rest))
        = get? key (merge (insert base member.1 member.2) rest) := rfl
      _ = get? key (insert base member.1 member.2) := ih h.2 _
      _ = get? key base := by rw [get?_insert, if_neg h.1]

/-- What a key stands for in an object that overrides and extends another. -/
theorem get?_merge {extra : Members} (h : (extra.map Prod.fst).Nodup) (base : Members)
    (key : String) : get? key (merge base extra) = (get? key extra).or (get? key base) := by
  induction extra generalizing base with
  | nil => rfl
  | cons member rest ih =>
    rw [List.map_cons, List.nodup_cons] at h
    have hstep : get? key (merge base (member :: rest)) =
        (get? key rest).or (if key = member.1 then some member.2 else get? key base) := by
      rw [← get?_insert]
      exact ih h.2 (insert base member.1 member.2)
    rw [hstep, get?]
    by_cases hkey : member.1 = key
    · have hnone : get? key rest = none := get?_eq_none_iff.2 (hkey ▸ h.1)
      rw [if_pos hkey, if_pos hkey.symm, hnone]
      rfl
    · rw [if_neg hkey, if_neg (Ne.symm hkey)]

/-! ### Objects as they are read -/

theorem perm_place (key : String) (value : Json) (members : Members) :
    (place key value members).Perm ((key, value) :: members) := by
  induction members with
  | nil => rfl
  | cons member rest ih =>
    rw [place]
    split
    · rfl
    · exact (ih.cons member).trans (.swap _ _ _)

theorem perm_merge {base extra : Members}
    (h : (base.map Prod.fst ++ extra.map Prod.fst).Nodup) :
    (merge base extra).Perm (base ++ extra) := by
  induction extra generalizing base with
  | nil => simp [merge]
  | cons member rest ih =>
    rw [List.map_cons] at h
    have habsent : has member.1 base = false := by
      rw [Bool.eq_false_iff, ne_eq, has_iff]
      exact fun hmem => (List.nodup_append.1 h).2.2 _ hmem _ (List.mem_cons_self ..) rfl
    have hplaced : (insert base member.1 member.2).Perm (member :: base) := by
      rw [insert, habsent]
      exact perm_place member.1 member.2 base
    have hnodup : ((insert base member.1 member.2).map Prod.fst ++ rest.map Prod.fst).Nodup := by
      have hperm := (hplaced.map Prod.fst).append_right (rest.map Prod.fst)
      exact hperm.nodup_iff.2 (List.perm_middle.nodup_iff.1 h)
    calc merge base (member :: rest)
        = merge (insert base member.1 member.2) rest := rfl
      _ ~ insert base member.1 member.2 ++ rest := ih hnodup
      _ ~ member :: base ++ rest := hplaced.append_right rest
      _ ~ base ++ member :: rest := List.perm_middle.symm

theorem map_fst_replace (key : String) (value : Json) (members : Members) :
    (replace key value members).map Prod.fst = members.map Prod.fst := by
  induction members with
  | nil => rfl
  | cons member rest ih =>
    rw [replace]
    split
    · rfl
    · rw [List.map_cons, List.map_cons, ih]

theorem nodup_insert {members : Members} (h : (members.map Prod.fst).Nodup) (key : String)
    (value : Json) : ((insert members key value).map Prod.fst).Nodup := by
  rw [insert]
  split
  · rwa [map_fst_replace]
  · next habsent =>
    rw [has_iff] at habsent
    apply ((perm_place key value members).map Prod.fst).nodup_iff.2
    exact List.nodup_cons.2 ⟨habsent, h⟩

/-- Overriding and extending an object leaves each key in it once. -/
theorem nodup_merge {base : Members} (h : (base.map Prod.fst).Nodup) (extra : Members) :
    ((merge base extra).map Prod.fst).Nodup := by
  induction extra generalizing base with
  | nil => exact h
  | cons member rest ih => exact ih (nodup_insert h member.1 member.2)

theorem perm_ofList {pairs : Members} (h : (pairs.map Prod.fst).Nodup) :
    (ofList pairs).Perm pairs :=
  perm_merge h

end CallGraph.Json.Members
