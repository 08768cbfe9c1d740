import CallGraph.Proofs.Document.Grouping
import CallGraph.Proofs.Document.RoundTrip

/-!
# What a look-up answers

A function is looked for in three views of a document, and the first view that has it decides. What each of
them holds is said here of the document itself: a name that stands in it, the metadata spelling of such a
name, and the generic functions that share a collapsed name. The cases exclude one another, so that they say
when a function is found, as what, and when it is not.
-/

namespace CallGraph.Document

/-- Some generic function of the document has the collapsed name. -/
def HasGroup (document : Document) (key : String) : Prop :=
  ∃ name ∈ document.map Prod.fst, isGeneric name = true ∧ Name.collapsed name = key

instance (document : Document) (key : String) : Decidable (document.HasGroup key) :=
  inferInstanceAs (Decidable (∃ name ∈ document.map Prod.fst, _ ∧ _))

/-- The entry speaks for all generic functions with the collapsed name: it lists their usages, each once, and counts
their calls, as long as the sum needs no rounding. -/
structure IsGroupEntry (document : Document) (key : String) (entry : Entry) : Prop where
  usages_eq : entry.usages =
    ((entriesUnder document.generics key).flatMap Entry.usages).eraseDups
  callCount_eq : Entry.HaveSafeTotal (entriesUnder document.generics key) →
    entry.callCount = .ofNat (Entry.totalCalls (entriesUnder document.generics key))

/-- What a document answers to a query, which may be for the canonical name only. -/
inductive Answers (document : Document) (query : String) : Bool → Option Hit → Prop
  | exact {entry : Entry} {exact : Bool} (hentry : (Name.canonical query, entry) ∈ document) :
    Answers document query exact (some ⟨Name.canonical query, .exact, entry⟩)
  | notExact (hcanonical : Name.canonical query ∉ document.map Prod.fst) :
    Answers document query true none
  | managed {entry : Entry} (hcanonical : Name.canonical query ∉ document.map Prod.fst)
    (hentry : (managedSpelling (Name.canonical query), entry) ∈ document) :
    Answers document query false (some ⟨managedSpelling (Name.canonical query), .managed, entry⟩)
  | generic {earlier later : List String} {key : String} {entry : Entry}
    (hcanonical : Name.canonical query ∉ document.map Prod.fst)
    (hmanaged : managedSpelling (Name.canonical query) ∉ document.map Prod.fst)
    (hcandidates : genericCandidates (Name.canonical query) (managedSpelling (Name.canonical query))
      = earlier ++ key :: later)
    (hearlier : ∀ other ∈ earlier, ¬ document.HasGroup other) (hkey : document.HasGroup key)
    (hentry : document.IsGroupEntry key entry) :
    Answers document query false (some ⟨key, .generic, entry⟩)
  | notFound (hcanonical : Name.canonical query ∉ document.map Prod.fst)
    (hmanaged : managedSpelling (Name.canonical query) ∉ document.map Prod.fst)
    (hcandidates : ∀ key ∈ genericCandidates (Name.canonical query)
      (managedSpelling (Name.canonical query)), ¬ document.HasGroup key) :
    Answers document query false none

/-! ### The three views -/

variable {document : Document} {key query : String} {entry : Entry}

theorem get?_eq_none_iff : document.get? key = none ↔ key ∉ document.map Prod.fst := by
  rw [get?, List.lookup_eq_none_iff, List.mem_map]
  constructor
  · rintro h ⟨member, hmember, rfl⟩
    simpa using h member hmember
  · intro h member hmember
    rw [bne_iff_ne]
    rintro rfl
    exact h ⟨member, hmember, rfl⟩

theorem hasGroup_iff : document.HasGroup key ↔ key ∈ keysOf document.generics := by
  simp [HasGroup, keysOf, generics, and_assoc]

theorem isGroupEntry_merged (document : Document) (key : String) :
    document.IsGroupEntry key (Entry.merged (entriesUnder document.generics key)) where
  usages_eq := Entry.usages_merged _
  callCount_eq := Entry.callCount_merged

theorem IsGroupEntry.eq_merged (h : document.IsGroupEntry key entry)
    (hsafe : Entry.HaveSafeTotal (entriesUnder document.generics key)) :
    entry = Entry.merged (entriesUnder document.generics key) := by
  have hmerged := isGroupEntry_merged document key
  calc entry = ⟨entry.callCount, entry.usages⟩ := rfl
    _ = ⟨(Entry.merged (entriesUnder document.generics key)).callCount,
          (Entry.merged (entriesUnder document.generics key)).usages⟩ := by
        rw [h.callCount_eq hsafe, h.usages_eq, hmerged.callCount_eq hsafe, hmerged.usages_eq]

theorem get?_collapsed_eq_some_iff : document.collapsed.get? key = some entry ↔
    document.HasGroup key ∧ entry = Entry.merged (entriesUnder document.generics key) := by
  rw [get?_eq_some_iff (map_fst_collapsed document ▸ nodup_keysOf _), collapsed_eq, hasGroup_iff]
  simp only [List.mem_map, Prod.mk.injEq]
  constructor
  · rintro ⟨_, hkey, rfl, rfl⟩
    exact ⟨hkey, rfl⟩
  · rintro ⟨hkey, rfl⟩
    exact ⟨key, hkey, rfl, rfl⟩

theorem get?_collapsed_eq_none_iff : document.collapsed.get? key = none ↔ ¬ document.HasGroup key := by
  rw [get?_eq_none_iff, map_fst_collapsed, hasGroup_iff]

/-! ### The look-up -/

theorem lookup?_eq_some (hentry : document.get? (Name.canonical query) = some entry) (exact : Bool) :
    document.lookup? query exact = some ⟨Name.canonical query, .exact, entry⟩ := by
  rw [lookup?]
  simp only [hit?, hentry, Option.map_some]
  rfl

theorem lookup?_true_of_get?_eq_none (hcanonical : document.get? (Name.canonical query) = none) :
    document.lookup? query true = none := by
  simp [lookup?, hit?, hcanonical]

theorem lookup?_of_managedSpelling (hcanonical : document.get? (Name.canonical query) = none)
    (hentry : document.get? (managedSpelling (Name.canonical query)) = some entry) :
    document.lookup? query false =
      some ⟨managedSpelling (Name.canonical query), .managed, entry⟩ := by
  simp [lookup?, hit?, hcanonical, hentry]

theorem lookup?_of_get?_eq_none (hcanonical : document.get? (Name.canonical query) = none)
    (hmanaged : document.get? (managedSpelling (Name.canonical query)) = none) :
    document.lookup? query false =
      (genericCandidates (Name.canonical query) (managedSpelling (Name.canonical query))).findSome?
        (document.collapsed.hit? .generic) := by
  simp [lookup?, hit?, hcanonical, hmanaged]

theorem hit?_collapsed_eq_none_iff {kind : MatchKind} :
    document.collapsed.hit? kind key = none ↔ ¬ document.HasGroup key := by
  rw [hit?, Option.map_eq_none_iff, get?_collapsed_eq_none_iff]

/-- A look-up answers from the first view that has the function. -/
theorem answers_lookup? (hnodup : (document.map Prod.fst).Nodup) (query : String) (exact : Bool) :
    document.Answers query exact (document.lookup? query exact) := by
  cases hcanonical : document.get? (Name.canonical query) with
  | some entry =>
    rw [lookup?_eq_some hcanonical]
    exact .exact ((get?_eq_some_iff hnodup).1 hcanonical)
  | none =>
    have hcanonical' := get?_eq_none_iff.1 hcanonical
    cases exact with
    | true =>
      rw [lookup?_true_of_get?_eq_none hcanonical]
      exact .notExact hcanonical'
    | false =>
      cases hmanaged : document.get? (managedSpelling (Name.canonical query)) with
      | some entry =>
        rw [lookup?_of_managedSpelling hcanonical hmanaged]
        exact .managed hcanonical' ((get?_eq_some_iff hnodup).1 hmanaged)
      | none =>
        have hmanaged' := get?_eq_none_iff.1 hmanaged
        rw [lookup?_of_get?_eq_none hcanonical hmanaged]
        cases hfound : (genericCandidates (Name.canonical query)
            (managedSpelling (Name.canonical query))).findSome? (document.collapsed.hit? .generic) with
        | none =>
          refine .notFound hcanonical' hmanaged' fun key hkey => ?_
          exact hit?_collapsed_eq_none_iff.1 (List.findSome?_eq_none_iff.1 hfound key hkey)
        | some hit =>
          obtain ⟨earlier, key, later, hcandidates, hhit, hearlier⟩ :=
            List.findSome?_eq_some_iff.1 hfound
          obtain ⟨entry, hentry, rfl⟩ := Option.map_eq_some_iff.1 hhit
          obtain ⟨hkey, rfl⟩ := get?_collapsed_eq_some_iff.1 hentry
          exact .generic hcanonical' hmanaged' hcandidates
            (fun other hother => hit?_collapsed_eq_none_iff.1 (hearlier other hother)) hkey
            (isGroupEntry_merged document key)

/-- There is one answer only, where the calls of the groups that are looked at can be summed up. -/
theorem Answers.lookup?_eq {exact : Bool} {answer : Option Hit}
    (h : document.Answers query exact answer) (hnodup : (document.map Prod.fst).Nodup)
    (hsafe : ∀ key ∈ genericCandidates (Name.canonical query)
      (managedSpelling (Name.canonical query)),
        Entry.HaveSafeTotal (entriesUnder document.generics key)) :
    document.lookup? query exact = answer := by
  cases h with
  | exact hentry => exact lookup?_eq_some ((get?_eq_some_iff hnodup).2 hentry) exact
  | notExact hcanonical => exact lookup?_true_of_get?_eq_none (get?_eq_none_iff.2 hcanonical)
  | managed hcanonical hentry =>
    exact lookup?_of_managedSpelling (get?_eq_none_iff.2 hcanonical)
      ((get?_eq_some_iff hnodup).2 hentry)
  | @generic earlier later key entry hcanonical hmanaged hcandidates hearlier hkey hentry =>
    have hmem : key ∈ genericCandidates (Name.canonical query)
        (managedSpelling (Name.canonical query)) := by
      rw [hcandidates]
      exact List.mem_append_right _ List.mem_cons_self
    have hgroup : document.collapsed.get? key = some entry :=
      get?_collapsed_eq_some_iff.2 ⟨hkey, hentry.eq_merged (hsafe key hmem)⟩
    rw [lookup?_of_get?_eq_none (get?_eq_none_iff.2 hcanonical) (get?_eq_none_iff.2 hmanaged),
      List.findSome?_eq_some_iff]
    refine ⟨earlier, key, later, hcandidates, ?_, ?_⟩
    · rw [hit?, hgroup, Option.map_some]
    · exact fun other hother => hit?_collapsed_eq_none_iff.2 (hearlier other hother)
  | notFound hcanonical hmanaged hcandidates =>
    rw [lookup?_of_get?_eq_none (get?_eq_none_iff.2 hcanonical) (get?_eq_none_iff.2 hmanaged),
      List.findSome?_eq_none_iff]
    exact fun key hkey => hit?_collapsed_eq_none_iff.2 (hcandidates key hkey)

/-- A look-up answers from the first view that has the function, and no other answer fits the document. One for the
canonical name only differs from any other just in finding less, and names that are canonical are found as
themselves. -/
theorem lookup?_answers (hnodup : (document.map Prod.fst).Nodup) (query : String) :
    (∀ exact, document.Answers query exact (document.lookup? query exact)) ∧
      (∀ exact answer, (∀ key ∈ genericCandidates (Name.canonical query)
          (managedSpelling (Name.canonical query)),
          Entry.HaveSafeTotal (entriesUnder document.generics key)) →
        document.Answers query exact answer → document.lookup? query exact = answer) ∧
      (document.lookup? query true = document.lookup? query false ∨
        document.lookup? query true = none) ∧
      ∀ name entry exact, (name, entry) ∈ document → Name.canonical name = name →
        document.lookup? name exact = some ⟨name, .exact, entry⟩ := by
  refine ⟨answers_lookup? hnodup query, fun exact answer hsafe h => h.lookup?_eq hnodup hsafe,
    ?_, ?_⟩
  · cases hcanonical : document.get? (Name.canonical query) with
    | some entry =>
      left
      rw [lookup?_eq_some hcanonical, lookup?_eq_some hcanonical]
    | none => exact .inr (lookup?_true_of_get?_eq_none hcanonical)
  · intro name entry exact hentry hname
    have hfound : document.get? (Name.canonical name) = some entry := by
      rw [hname]
      exact (get?_eq_some_iff hnodup).2 hentry
    rw [lookup?_eq_some hfound, hname]

/-- The name of a further instantiation is found among the generic functions, under the collapsed name that it would
have. -/
theorem lookup?_answers_alternating :
    (alternating.map Prod.fst).Nodup ∧
      alternating.lookup? "Pool::Get<Fish>(Fish)" false =
        some ⟨"Pool::Get(T)", .generic, ⟨.ofNat 5, ["Run(void)", "Load(void)"]⟩⟩ ∧
      alternating.lookup? "Jump(void)" true =
        some ⟨"Jump(void)", .exact, ⟨.ofNat 1, ["Run(void)"]⟩⟩ := by
  have hnodup : (alternating.map Prod.fst).Nodup := by decide +kernel
  have hsafe : Entry.HaveSafeTotal (alternating.map Prod.snd) :=
    ⟨by decide +kernel, by decide +kernel⟩
  obtain ⟨-, hunique, -⟩ := lookup?_answers hnodup "Pool::Get<Fish>(Fish)"
  obtain ⟨-, -, -, hitself⟩ := lookup?_answers hnodup "Jump(void)"
  refine ⟨hnodup, hunique false _ (fun key _ => haveSafeTotal_entriesUnder hsafe key) ?_,
    hitself _ _ true (by decide +kernel) (by decide +kernel)⟩
  have hcandidates : genericCandidates (Name.canonical "Pool::Get<Fish>(Fish)")
      (managedSpelling (Name.canonical "Pool::Get<Fish>(Fish)")) =
        ["Pool::Get<Fish>(Fish)", "Pool::Get<Fish>(Fish)"] ++ "Pool::Get(T)" :: ["Pool::Get(T)"] := by
    decide +kernel
  have hentry : alternating.IsGroupEntry "Pool::Get(T)" ⟨.ofNat 5, ["Run(void)", "Load(void)"]⟩ :=
    ⟨by decide +kernel, fun _ => by decide +kernel⟩
  exact .generic (by decide +kernel) (by decide +kernel) hcandidates (by decide +kernel)
    (by decide +kernel) hentry

end CallGraph.Document
