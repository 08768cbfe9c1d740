import CallGraph.Document.Lookup
import CallGraph.Proofs.Number.Safe
import CallGraph.Proofs.Text.Distinct
import Mathlib.Algebra.BigOperators.Group.List.Basic
import Mathlib.Algebra.Order.BigOperators.Group.List
import Mathlib.Data.List.Flatten
import Mathlib.Data.List.Perm.Basic

/-!
# Generic functions as groups

The collapsed document is built in one pass that changes earlier entries in place. What it holds is
said here without the pass: for each collapsed name, where it first comes up, the entries of all its
instantiations taken together. The groups are a partition of the instantiations, so that no call and
no usage gets lost.
-/

namespace CallGraph

namespace Entry

/-- The calls of an entry whose count is a natural number. -/
def calls (entry : Entry) : Nat :=
  (entry.callCount.toInt?.getD 0).toNat

def totalCalls (entries : List Entry) : Nat :=
  (entries.map calls).sum

/-- Counts that are natural numbers, with a sum that needs no rounding. -/
structure HaveSafeTotal (entries : List Entry) : Prop where
  isNat : ∀ entry ∈ entries, entry.callCount = .ofNat entry.calls
  total_le : totalCalls entries ≤ Number.maxSafe

theorem calls_eq {entry : Entry} {n : Nat} (h : entry.callCount = .ofNat n) : entry.calls = n := by
  simp [calls, h]

theorem totalCalls_perm {entries others : List Entry} (h : entries.Perm others) :
    totalCalls entries = totalCalls others :=
  (h.map calls).sum_eq

theorem HaveSafeTotal.of_sublist {entries others : List Entry} (h : HaveSafeTotal others)
    (hsub : entries.Sublist others) : HaveSafeTotal entries where
  isNat := fun entry hentry => h.isNat entry (hsub.subset hentry)
  total_le :=
    ((hsub.map calls).sum_le_sum fun _ _ => Nat.zero_le _).trans h.total_le

/-! ### One group -/

/-- The entry of a group: the first of its entries, with every usage once, takes in the others. -/
def merged : List Entry → Entry
  | [] => ⟨.ofNat 0, []⟩
  | first :: rest => rest.foldl absorb first.distinct

@[simp] theorem merged_singleton (entry : Entry) : merged [entry] = entry.distinct := rfl

theorem merged_concat {group : List Entry} (h : group ≠ []) (entry : Entry) :
    merged (group ++ [entry]) = (merged group).absorb entry := by
  obtain ⟨first, rest, rfl⟩ := List.exists_cons_of_ne_nil h
  rw [List.cons_append, merged, List.foldl_append]
  rfl

/-- Whether usages come from the first entry or from a later one makes no difference to which of them are kept. -/
theorem usages_merged (group : List Entry) :
    (merged group).usages = (group.flatMap usages).eraseDups := by
  induction group using List.reverseRecOn with
  | nil => rfl
  | append_singleton group entry ih =>
    rcases eq_or_ne group [] with rfl | hgroup
    · simp [distinct]
    · have hnew : (entry.usages.filter fun usage => !(group.flatMap usages).eraseDups.contains usage)
          = entry.usages.removeAll (group.flatMap usages) := by
        apply List.filter_congr
        intro usage _
        simp
      rw [merged_concat hgroup, absorb, ih, List.flatMap_append, List.eraseDups_append, hnew]
      simp

theorem callCount_merged {group : List Entry} (h : HaveSafeTotal group) :
    (merged group).callCount = .ofNat (totalCalls group) := by
  induction group using List.reverseRecOn with
  | nil => rfl
  | append_singleton group entry ih =>
    have hcount := h.isNat entry (List.mem_append_right _ (List.mem_singleton.2 rfl))
    have hbefore := ih (h.of_sublist (List.sublist_append_left group [entry]))
    rcases eq_or_ne group [] with rfl | hgroup
    · simpa [totalCalls, distinct] using hcount
    · have hsum : totalCalls (group ++ [entry]) = totalCalls group + entry.calls := by
        simp [totalCalls]
      have htotal := hsum ▸ h.total_le
      rw [merged_concat hgroup, hsum, absorb, hbefore, hcount, Number.add_ofNat htotal]

/-- Where every entry has as many calls as usages, merging only loses usages. -/
theorem length_usages_merged_le {group : List Entry}
    (h : ∀ entry ∈ group, entry.calls = entry.usages.length) :
    (merged group).usages.length ≤ totalCalls group := by
  calc (merged group).usages.length
      = (group.flatMap usages).eraseDups.length := by rw [usages_merged]
    _ ≤ (group.flatMap usages).length := (eraseDups_sublist _).length_le
    _ = (group.map fun entry => entry.usages.length).sum := List.length_flatMap
    _ = totalCalls group := by rw [totalCalls, List.map_congr_left h]

end Entry

namespace Document

/-! ### Adding to a document -/

section Add

variable {keys : List String} {contents : String → Entry} {key : String} {entry : Entry}

theorem add_map_of_not_mem (h : key ∉ keys) :
    add key entry (keys.map fun name => (name, contents name)) =
      (keys.map fun name => (name, contents name)) ++ [(key, entry.distinct)] := by
  induction keys with
  | nil => rfl
  | cons first rest ih =>
    rw [List.mem_cons, not_or] at h
    rw [List.map_cons, add, if_neg (Ne.symm h.1), ih h.2, List.cons_append]

theorem add_map_of_mem (hkeys : keys.Nodup) (h : key ∈ keys) :
    add key entry (keys.map fun name => (name, contents name)) =
      keys.map fun name =>
        (name, if name = key then (contents name).absorb entry else contents name) := by
  induction keys with
  | nil => exact absurd h List.not_mem_nil
  | cons first rest ih =>
    obtain ⟨hfirst, hrest⟩ := List.nodup_cons.1 hkeys
    rw [List.map_cons, add]
    split
    · next hsame =>
      have hothers : ∀ name ∈ rest, name ≠ key := fun name hname heq =>
        hfirst (hsame.trans heq.symm ▸ hname)
      rw [List.map_cons, if_pos hsame]
      refine congrArg (_ :: ·) (List.map_congr_left fun name hname => ?_)
      rw [if_neg (hothers name hname)]
    · next hother =>
      rw [List.map_cons, if_neg hother, ih hrest ((List.mem_cons.1 h).resolve_left (Ne.symm hother))]

end Add

/-! ### The groups of a list of named entries -/

/-- The names of a list, in the order in which they first come up. -/
def keysOf (named : List (String × Entry)) : List String :=
  (named.map Prod.fst).eraseDups

/-- The entries that stand under a name. -/
def entriesUnder (named : List (String × Entry)) (key : String) : List Entry :=
  (named.filter fun (name, _) => name = key).map Prod.snd

theorem nodup_keysOf (named : List (String × Entry)) : (keysOf named).Nodup :=
  nodup_eraseDups _

theorem mem_keysOf_iff {named : List (String × Entry)} {key : String} :
    key ∈ keysOf named ↔ entriesUnder named key ≠ [] := by
  simp [keysOf, entriesUnder]

theorem entriesUnder_concat (named : List (String × Entry)) (name : String) (entry : Entry)
    (key : String) :
    entriesUnder (named ++ [(name, entry)]) key =
      if key = name then entriesUnder named key ++ [entry] else entriesUnder named key := by
  by_cases hkey : key = name
  · simp [entriesUnder, hkey]
  · simp [entriesUnder, hkey, Ne.symm hkey]

theorem foldl_add_eq (named : List (String × Entry)) :
    named.foldl (fun (out : Document) (name, entry) => out.add name entry) [] =
      (keysOf named).map fun key => (key, Entry.merged (entriesUnder named key)) := by
  induction named using List.reverseRecOn with
  | nil => rfl
  | append_singleton named last ih =>
    obtain ⟨name, entry⟩ := last
    have hkeys : keysOf (named ++ [(name, entry)]) =
        if name ∈ keysOf named then keysOf named else keysOf named ++ [name] := by
      rw [keysOf, List.map_append, List.map_singleton, eraseDups_concat, ← keysOf]
    rw [List.foldl_append, ih, List.foldl_cons, List.foldl_nil, hkeys]
    simp only [entriesUnder_concat]
    split
    · next hpresent =>
      rw [add_map_of_mem (nodup_keysOf named) hpresent]
      refine List.map_congr_left fun key hkey => ?_
      split
      · rw [Entry.merged_concat (mem_keysOf_iff.1 hkey)]
      · rfl
    · next hnew =>
      have hempty : entriesUnder named name = [] := not_not.1 (mt mem_keysOf_iff.2 hnew)
      rw [add_map_of_not_mem hnew, List.map_append, List.map_singleton, if_pos rfl, hempty,
        List.nil_append, Entry.merged_singleton]
      refine congrArg (· ++ _) (List.map_congr_left fun key hkey => ?_)
      rw [if_neg (ne_of_mem_of_not_mem hkey hnew)]

/-- Every entry of a list is in just one group. -/
theorem flatMap_entriesUnder_perm {keys : List String} (hkeys : keys.Nodup)
    {named : List (String × Entry)} (h : ∀ item ∈ named, item.1 ∈ keys) :
    (keys.flatMap (entriesUnder named)).Perm (named.map Prod.snd) := by
  induction keys generalizing named with
  | nil =>
    obtain rfl := List.eq_nil_iff_forall_not_mem.2 fun item hitem => List.not_mem_nil (h item hitem)
    rfl
  | cons key rest ih =>
    obtain ⟨hkey, hrest⟩ := List.nodup_cons.1 hkeys
    have hothers : ∀ item ∈ named.filter (fun (name, _) => !decide (name = key)), item.1 ∈ rest := by
      intro item hitem
      obtain ⟨hmem, hne⟩ := List.mem_filter.1 hitem
      exact (List.mem_cons.1 (h item hmem)).resolve_left (by simpa using hne)
    have hsame : rest.flatMap (entriesUnder named) =
        rest.flatMap (entriesUnder (named.filter fun (name, _) => !decide (name = key))) := by
      refine List.flatMap_congr fun other hother => ?_
      have hne : other ≠ key := ne_of_mem_of_not_mem hother hkey
      rw [entriesUnder, entriesUnder, List.filter_filter]
      refine congrArg (List.map Prod.snd) (List.filter_congr fun item _ => ?_)
      by_cases hitem : item.1 = other
      · simp [hitem, hne]
      · simp [hitem]
    rw [List.flatMap_cons, hsame]
    refine ((ih hrest hothers).append_left _).trans ?_
    rw [entriesUnder, ← List.map_append]
    exact (List.filter_append_perm (fun (name, _) => decide (name = key)) named).map Prod.snd

/-! ### The collapsed document -/

/-- The entries of the generic functions, each under its collapsed name. -/
def generics (document : Document) : List (String × Entry) :=
  (document.filter fun (name, _) => isGeneric name).map fun (name, entry) =>
    (Name.collapsed name, entry)

theorem map_snd_generics_sublist (document : Document) :
    (document.generics.map Prod.snd).Sublist (document.map Prod.snd) := by
  rw [generics, List.map_map]
  exact List.filter_sublist.map Prod.snd

theorem collapsed_eq (document : Document) :
    document.collapsed = (keysOf document.generics).map fun key =>
      (key, Entry.merged (entriesUnder document.generics key)) := by
  rw [← foldl_add_eq, generics, List.foldl_map]
  rfl

theorem map_fst_collapsed (document : Document) :
    document.collapsed.map Prod.fst = keysOf document.generics := by
  rw [collapsed_eq, List.map_map]
  exact List.map_id _

theorem eq_of_mem_collapsed {document : Document} {group : String × Entry}
    (h : group ∈ document.collapsed) :
    group.2 = Entry.merged (entriesUnder document.generics group.1) := by
  rw [collapsed_eq] at h
  obtain ⟨key, -, rfl⟩ := List.mem_map.1 h
  rfl

theorem entriesUnder_collapsed {document : Document} {key : String}
    (h : key ∈ keysOf document.generics) :
    entriesUnder document.collapsed key = [Entry.merged (entriesUnder document.generics key)] := by
  have hone : (keysOf document.generics).filter (fun name => name = key) = [key] := by
    rw [List.filter_eq, List.count_eq_one_of_mem (nodup_keysOf document.generics) h]
    rfl
  rw [entriesUnder, collapsed_eq, List.filter_map, List.map_map]
  exact (congrArg (List.map _) hone).trans rfl

theorem haveSafeTotal_entriesUnder {document : Document}
    (h : Entry.HaveSafeTotal (document.map Prod.snd)) (key : String) :
    Entry.HaveSafeTotal (entriesUnder document.generics key) :=
  h.of_sublist ((List.filter_sublist.map Prod.snd).trans (map_snd_generics_sublist document))

theorem totalCalls_collapsed {document : Document}
    (h : Entry.HaveSafeTotal (document.map Prod.snd)) :
    Entry.totalCalls (document.collapsed.map Prod.snd) =
      Entry.totalCalls (document.generics.map Prod.snd) := by
  have hgroup (key : String) : (Entry.merged (entriesUnder document.generics key)).calls =
      Entry.totalCalls (entriesUnder document.generics key) :=
    Entry.calls_eq (Entry.callCount_merged (haveSafeTotal_entriesUnder h key))
  have hpartition := flatMap_entriesUnder_perm (nodup_keysOf document.generics)
    fun named hnamed => List.mem_eraseDups.2 (List.mem_map_of_mem hnamed)
  calc Entry.totalCalls (document.collapsed.map Prod.snd)
      = ((keysOf document.generics).map fun key =>
          (Entry.merged (entriesUnder document.generics key)).calls).sum := by
        rw [collapsed_eq, Entry.totalCalls, List.map_map, List.map_map]
        rfl
    _ = ((keysOf document.generics).map fun key =>
          Entry.totalCalls (entriesUnder document.generics key)).sum := by
        rw [List.map_congr_left fun key _ => hgroup key]
    _ = Entry.totalCalls ((keysOf document.generics).flatMap (entriesUnder document.generics)) := by
        rw [Entry.totalCalls, List.map_flatMap, List.flatMap_def, List.sum_flatten, List.map_map]
        rfl
    _ = Entry.totalCalls (document.generics.map Prod.snd) := Entry.totalCalls_perm hpartition

/-- The collapsed document has an entry for each collapsed name, in the order in which they first come up. It counts
the calls and lists the usages of all instantiations. -/
theorem collapsed_groups {document : Document} (h : Entry.HaveSafeTotal (document.map Prod.snd)) :
    document.collapsed.map Prod.fst = keysOf document.generics ∧
    (document.collapsed.map Prod.fst).Nodup ∧
    (∀ group ∈ document.collapsed,
      group.2.callCount =
          .ofNat (Entry.totalCalls (entriesUnder document.generics group.1)) ∧
        group.2.usages =
          ((entriesUnder document.generics group.1).flatMap Entry.usages).eraseDups ∧
        group.2.usages.Nodup) ∧
    Entry.totalCalls (document.collapsed.map Prod.snd) =
      Entry.totalCalls (document.generics.map Prod.snd) ∧
    ((∀ named ∈ document, named.2.callCount = .ofNat named.2.usages.length) →
      ∀ group ∈ document.collapsed, group.2.usages.length ≤ group.2.calls) := by
  refine ⟨map_fst_collapsed document, map_fst_collapsed document ▸ nodup_keysOf _, ?_,
    totalCalls_collapsed h, ?_⟩
  · intro group hgroup
    rw [eq_of_mem_collapsed hgroup, Entry.usages_merged]
    exact ⟨Entry.callCount_merged (haveSafeTotal_entriesUnder h group.1), rfl, nodup_eraseDups _⟩
  · intro hlengths group hgroup
    have hcount := Entry.callCount_merged (haveSafeTotal_entriesUnder h group.1)
    rw [eq_of_mem_collapsed hgroup, Entry.calls_eq hcount]
    refine Entry.length_usages_merged_le fun entry hentry => ?_
    have hmem : entry ∈ document.map Prod.snd :=
      (map_snd_generics_sublist document).subset ((List.filter_sublist.map Prod.snd).subset hentry)
    obtain ⟨named, hnamed, rfl⟩ := List.mem_map.1 hmem
    exact Entry.calls_eq (hlengths named hnamed)

/-- Two groups that alternate, and a function that is not generic between them. -/
def alternating : Document :=
  [("Pool::Get<Cat>(Cat)", ⟨.ofNat 2, ["Run(void)", "Run(void)"]⟩),
    ("List<int>::Add(int)", ⟨.ofNat 1, ["Load(void)"]⟩),
    ("Jump(void)", ⟨.ofNat 1, ["Run(void)"]⟩),
    ("Pool::Get<Dog>(Dog)", ⟨.ofNat 3, ["Load(void)", "Run(void)", "Load(void)"]⟩),
    ("List<char>::Add(int)", ⟨.ofNat 1, ["Run(void)"]⟩)]

theorem collapsed_groups_alternating :
    Entry.HaveSafeTotal (alternating.map Prod.snd) ∧
      alternating.collapsed =
        [("Pool::Get(T)", ⟨.ofNat 5, ["Run(void)", "Load(void)"]⟩),
          ("List::Add(int)", ⟨.ofNat 2, ["Load(void)", "Run(void)"]⟩)] ∧
      ∀ group ∈ alternating.collapsed, group.2.usages.length ≤ group.2.calls := by
  have hsafe : Entry.HaveSafeTotal (alternating.map Prod.snd) := ⟨by decide +kernel, by decide +kernel⟩
  exact ⟨hsafe, by decide +kernel, (collapsed_groups hsafe).2.2.2.2 (by decide +kernel)⟩

end Document

end CallGraph
