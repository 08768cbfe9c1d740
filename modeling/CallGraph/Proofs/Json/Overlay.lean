import CallGraph.Proofs.Json.Order

/-!
# Objects laid over one another

When objects are laid over one another, each overrides and extends those before it. A key then has its last
value and stands where it first came, but for array indices, which go in front. This determines the outcome, so
that it makes no difference whether the objects are merged one by one or some of them, next to each other,
before all others.
-/

namespace CallGraph.Json.Members

/-- The members are the same when their keys are, in the same order, and stand for the same. -/
theorem ext_keys {members others : Members} (hnodup : (members.map Prod.fst).Nodup)
    (hkeys : members.map Prod.fst = others.map Prod.fst)
    (hvalues : ∀ key, get? key members = get? key others) : members = others := by
  induction members generalizing others with
  | nil => exact (List.map_eq_nil_iff.1 hkeys.symm).symm
  | cons member rest ih =>
    obtain ⟨other, more, rfl⟩ : ∃ other more, others = other :: more :=
      List.exists_cons_of_ne_nil (by rintro rfl; cases hkeys)
    obtain ⟨key, value⟩ := member
    obtain ⟨key', value'⟩ := other
    obtain ⟨rfl, hrest⟩ : key = key' ∧ rest.map Prod.fst = more.map Prod.fst := by simpa using hkeys
    obtain ⟨habsent, hnodup⟩ := List.nodup_cons.1 hnodup
    have hvalue : value = value' := by simpa [get?] using hvalues key
    rw [hvalue, ih hnodup hrest fun other => ?_]
    by_cases hother : key = other
    · subst hother
      rw [get?_eq_none_iff.2 habsent, get?_eq_none_iff.2 (hrest ▸ habsent)]
    · simpa [get?, hother] using hvalues other

/-- What objects amount to that are laid over one another, the last on top. -/
structure IsOverlay (layers : List Members) (members : Members) : Prop where
  keys : members.map Prod.fst = inReadingOrder (layers.flatMap fun layer => layer.map Prod.fst).eraseDups
  value : ∀ key, get? key members = layers.reverse.findSome? (get? key)

namespace IsOverlay

variable {layers before inner after : List Members} {members others extra : Members}

theorem nodup (h : IsOverlay layers members) : (members.map Prod.fst).Nodup := by
  rw [h.keys]
  exact (inReadingOrder_perm _).nodup_iff.2 (nodup_eraseDups _)

theorem isInReadingOrder (h : IsOverlay layers members) : IsInReadingOrder (members.map Prod.fst) :=
  h.keys ▸ isInReadingOrder_inReadingOrder _

theorem unique (h : IsOverlay layers members) (hothers : IsOverlay layers others) : members = others :=
  ext_keys h.nodup (h.keys.trans hothers.keys.symm) fun key => (h.value key).trans (hothers.value key).symm

theorem singleton (hnodup : (members.map Prod.fst).Nodup) (horder : IsInReadingOrder (members.map Prod.fst)) :
    IsOverlay [members] members where
  keys := by
    rw [List.flatMap_singleton, eraseDups_eq_self hnodup, inReadingOrder_eq_self_iff.2 horder]
  value key := by simp

/-- One more object on top. -/
theorem merge (h : IsOverlay layers members) (hextra : (extra.map Prod.fst).Nodup) :
    IsOverlay (layers ++ [extra]) (members.merge extra) where
  keys := by
    have hkeys := inReadingOrder_eraseDups_append [] (layers.flatMap fun layer => layer.map Prod.fst)
      (extra.map Prod.fst)
    rw [List.nil_append, List.nil_append] at hkeys
    rw [map_fst_merge h.nodup h.isInReadingOrder, h.keys, hkeys, List.flatMap_append, List.flatMap_singleton]
  value key := by
    rw [get?_merge hextra, h.value, List.reverse_append, List.reverse_singleton, List.singleton_append,
      List.findSome?_cons]
    cases get? key extra <;> rfl

theorem foldl_merge (h : IsOverlay layers members) {more : List Members}
    (hmore : ∀ extra ∈ more, (extra.map Prod.fst).Nodup) :
    IsOverlay (layers ++ more) (more.foldl Members.merge members) := by
  induction more generalizing layers members with
  | nil => rwa [List.append_nil]
  | cons extra more ih =>
    obtain ⟨hextra, hmore⟩ := List.forall_mem_cons.1 hmore
    rw [List.append_cons]
    exact ih (h.merge hextra) hmore

/-- Objects next to each other may be laid over one another before all others are. -/
theorem flatten (hinner : IsOverlay inner others) (h : IsOverlay (before ++ others :: after) members) :
    IsOverlay (before ++ inner ++ after) members where
  keys := by
    rw [h.keys, List.flatMap_append, List.flatMap_cons, hinner.keys, ← List.append_assoc,
      inReadingOrder_eraseDups_append, List.flatMap_append, List.flatMap_append]
  value key := by
    rw [h.value]
    simp only [List.reverse_append, List.reverse_cons, List.findSome?_append, List.findSome?_singleton,
      hinner.value, Option.or_assoc]

theorem exists_of_mem (h : IsOverlay layers members) {member : String × Json} (hmember : member ∈ members) :
    ∃ layer ∈ layers, member ∈ layer := by
  have hvalue := get?_eq_some_of_mem h.nodup hmember
  rw [h.value] at hvalue
  obtain ⟨layer, hlayer, hfound⟩ := List.exists_of_findSome?_eq_some hvalue
  exact ⟨layer, List.mem_reverse.1 hlayer, mem_of_get?_eq_some hfound⟩

end IsOverlay

/-- An object in reading order is read from its members as it is. -/
theorem ofList_eq_self {members : Members} (hnodup : (members.map Prod.fst).Nodup)
    (horder : IsInReadingOrder (members.map Prod.fst)) : ofList members = members := by
  refine (ext_keys hnodup ?_ fun key => ?_).symm
  · rw [map_fst_ofList hnodup, inReadingOrder_eq_self_iff.2 horder]
  · rw [ofList, get?_merge hnodup, get?, Option.or_none]

end CallGraph.Json.Members
