import CallGraph.Proofs.Json.Overlay
import CallGraph.Proofs.Json.RoundTrip

/-!
# Values as programs hold them

A program holds numbers of the format only, and objects that have each key once, in reading order. Such a value
reads back from its text as itself, down to the order of all members, and objects laid over one another that are
such values make up one, too.
-/

namespace CallGraph.Json

/-- The value is one that a program can hold: its numbers are of the format, and its objects have each key once,
in reading order. -/
inductive IsValue : Json → Prop
  | null : IsValue .null
  | bool (value : Bool) : IsValue (.bool value)
  | number {value : Rat} (h : Number.IsBinary64 value) : IsValue (.number (.finite value))
  | string (value : String) : IsValue (.string value)
  | array {items : List Json} (hitems : ∀ item ∈ items, IsValue item) : IsValue (.array items)
  | object {members : Members} (hnodup : (members.map Prod.fst).Nodup)
    (horder : IsInReadingOrder (members.map Prod.fst)) (hvalues : ∀ member ∈ members, IsValue member.2) :
    IsValue (.object members)

theorem itemsReadAs_self {items : List Json} (h : ∀ item ∈ items, ReadsAs item item) :
    ItemsReadAs items items := by
  induction items with
  | nil => exact .nil
  | cons item items ih =>
    obtain ⟨hitem, hitems⟩ := List.forall_mem_cons.1 h
    exact .cons hitem (ih hitems)

theorem membersReadAs_self {members : Members} (h : ∀ member ∈ members, ReadsAs member.2 member.2) :
    MembersReadAs members members := by
  induction members with
  | nil => exact .nil
  | cons member members ih =>
    obtain ⟨hmember, hmembers⟩ := List.forall_mem_cons.1 h
    exact .cons hmember (ih hmembers)

namespace IsValue

theorem readsAs {value : Json} (h : IsValue value) : ReadsAs value value := by
  induction h with
  | null => exact .null
  | bool value => exact .bool value
  | number h => exact .number (numberReadsAs_of_isBinary64 h)
  | string value => exact .string value
  | array _ ih => exact .array (itemsReadAs_self ih)
  | object hnodup horder _ ih =>
    have hread := ReadsAs.object (membersReadAs_self ih)
    rwa [ofMembers, Members.ofList_eq_self hnodup horder] at hread

variable {members : Members}

theorem nodup (h : IsValue (.object members)) : (members.map Prod.fst).Nodup := by
  cases h with
  | object hnodup _ _ => exact hnodup

theorem isInReadingOrder (h : IsValue (.object members)) : IsInReadingOrder (members.map Prod.fst) := by
  cases h with
  | object _ horder _ => exact horder

theorem of_mem (h : IsValue (.object members)) {member : String × Json} (hmember : member ∈ members) :
    IsValue member.2 := by
  cases h with
  | object _ _ hvalues => exact hvalues member hmember

theorem isOverlay (h : IsValue (.object members)) : Members.IsOverlay [members] members :=
  .singleton h.nodup h.isInReadingOrder

end IsValue

/-- Values laid over one another are those of the layers. -/
theorem Members.IsOverlay.isValue {layers : List Members} {members : Members} (h : IsOverlay layers members)
    (hlayers : ∀ layer ∈ layers, IsValue (.object layer)) : IsValue (.object members) := by
  refine .object h.nodup h.isInReadingOrder fun member hmember => ?_
  obtain ⟨layer, hlayer, hmem⟩ := h.exists_of_mem hmember
  exact (hlayers layer hlayer).of_mem hmem

end CallGraph.Json
