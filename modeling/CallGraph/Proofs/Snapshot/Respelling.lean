import CallGraph.Proofs.Snapshot.Addresses
import CallGraph.Snapshot.Reading

/-!
# Two spellings of an address

Wherever a document may hold an address, a number and its hexadecimal digits are read alike. This is no property of
what is accepted: the check goes on with the same number in both cases, so that a document which is refused is told
the same issues, those that compare addresses with one another among them. It needs no more of the number than that
the format holds it, and so reaches beyond the integers that are accepted.
-/

namespace CallGraph

open Schema

/-! ### What may be respelled -/

namespace Respelling

/-- The text is `0x` and the hexadecimal digits of the number, in any case and with any zeros in front. -/
def IsDigitsOf (n : Nat) (text : String) : Prop :=
  ∃ digits zeros, text.toList = '0' :: 'x' :: digits ∧
    digits.map Char.toLower = List.replicate zeros '0' ++ Nat.toDigits 16 n

/-- A number that the format holds may be replaced by its digits. -/
inductive OfAddress : Json → Json → Prop
  | same (value : Json) : OfAddress value value
  | digits {n : Nat} {text : String} (hn : Number.IsRepresentable n) (htext : IsDigitsOf n text) :
      OfAddress (.nat n) (.string text)

/-- The members stand under the same keys, and what stands there may be replaced in a way of each key's own. -/
def Changes (change : String → Json → Json → Prop) : Json.Members → Json.Members → Prop :=
  List.Forall₂ fun member other => member.1 = other.1 ∧ change member.1 member.2 other.2

inductive InMembers (change : String → Json → Json → Prop) : Json → Json → Prop
  | same (value : Json) : InMembers change value value
  | object {members others : Json.Members} (h : Changes change members others) :
      InMembers change (.object members) (.object others)

inductive InItems (change : Json → Json → Prop) : Json → Json → Prop
  | same (value : Json) : InItems change value value
  | array {items others : List Json} (h : List.Forall₂ change items others) :
      InItems change (.array items) (.array others)

def inFunction (key : String) : Json → Json → Prop :=
  if key = "start" ∨ key = "end" then OfAddress else Eq

def inReference (key : String) : Json → Json → Prop :=
  if key = "from" ∨ key = "to" then OfAddress else Eq

def inSnapshot (key : String) : Json → Json → Prop :=
  if key = "functions" then InItems (InMembers inFunction)
  else if key = "references" then InItems (InMembers inReference)
  else Eq

/-- Any of the addresses of the functions and references of a document may be replaced by their digits. -/
def OfSnapshot : Json → Json → Prop :=
  InMembers inSnapshot

theorem inFunction_start : inFunction "start" = OfAddress := if_pos (.inl rfl)

theorem inFunction_end : inFunction "end" = OfAddress := if_pos (.inr rfl)

theorem inReference_from : inReference "from" = OfAddress := if_pos (.inl rfl)

theorem inReference_to : inReference "to" = OfAddress := if_pos (.inr rfl)

theorem inSnapshot_functions : inSnapshot "functions" = InItems (InMembers inFunction) := if_pos rfl

theorem inSnapshot_references : inSnapshot "references" = InItems (InMembers inReference) := by
  rw [inSnapshot, if_neg (by decide), if_pos rfl]

end Respelling

open Respelling

/-! ### Checks that do not see a replacement -/

namespace Schema.Check

variable {α : Type} {check : Check α} {change : Json → Json → Prop}

/-- The check leaves the same of a value and of what it is replaced by. -/
def Overlooks (check : Check α) (change : Json → Json → Prop) : Prop :=
  ∀ value other, change value other → check (some value) = check (some other)

theorem overlooks_eq (check : Check α) : check.Overlooks Eq := by
  rintro value _ rfl
  rfl

theorem Overlooks.optional (h : check.Overlooks change) : (optional check).Overlooks change :=
  fun value other hchange => congrArg (some <$> ·) (h value other hchange)

theorem Overlooks.withDefault {default : α} (h : check.Overlooks change) :
    (withDefault default check).Overlooks change :=
  h

theorem Overlooks.refine {test : α → List Issue} (h : check.Overlooks change) :
    Overlooks (fun value => (check value).refine test) change :=
  fun value other hchange => congrArg (Checked.refine test) (h value other hchange)

theorem Overlooks.map {β : Type} {f : α → β} (h : check.Overlooks change) :
    Overlooks (fun value => f <$> check value) change :=
  fun value other hchange => congrArg (f <$> ·) (h value other hchange)

theorem Overlooks.array (h : check.Overlooks change) : (array check).Overlooks (InItems change) := by
  rintro _ _ (⟨value⟩ | ⟨hitems⟩)
  · rfl
  · next items others =>
    have hmap (index : Nat) :
        (items.zipIdx index).map (fun indexed => (check (some indexed.1)).under (toString indexed.2)) =
          (others.zipIdx index).map fun indexed =>
            (check (some indexed.1)).under (toString indexed.2) := by
      induction hitems generalizing index with
      | nil => rfl
      | cons hitem _ ih =>
        simp only [List.zipIdx_cons, List.map_cons, ih, h _ _ hitem]
    exact congrArg Checked.all (hmap 0)

variable {changes : String → Json → Json → Prop}

theorem Overlooks.field {key : String} (h : check.Overlooks (changes key))
    {members others : Json.Members} (hmembers : Changes changes members others) :
    field key check members = field key check others := by
  have hvalue : check (Json.Members.get? key members) = check (Json.Members.get? key others) := by
    induction hmembers with
    | nil => rfl
    | cons hmember _ ih =>
      obtain ⟨hkey, hchange⟩ := hmember
      rw [Json.Members.get?, Json.Members.get?, ← hkey]
      split
      · next hsame => exact h _ _ (hsame ▸ hchange)
      · exact ih
  rw [Check.field, Check.field, hvalue]

theorem overlooks_object {check : Json.Members → Checked α}
    (h : ∀ members others, Changes changes members others → check members = check others) :
    (object check).Overlooks (InMembers changes) := by
  rintro _ _ (⟨value⟩ | ⟨hmembers⟩)
  · rfl
  · exact h _ _ hmembers

end Schema.Check

/-! ### Reading a respelled document -/

open Check

/-- Digits of a number that the format holds lead to that number, wherever it lies. -/
theorem Location.overlooks_ofAddress : Location.check.Overlooks OfAddress := by
  rintro _ _ (⟨value⟩ | ⟨hn, digits, zeros, htext, hdigits⟩)
  · rfl
  · next n text =>
    have hvalue : hexAddress? text.toList = some (.ofNat n) :=
      hexAddress?_eq_some_iff.2 ⟨digits, n, htext, spellsHex_of_map_toLower hdigits,
        Number.nearestQuotient_of_isRepresentable hn⟩
    rw [Json.nat, Location.check, countProblems_eq_nil_iff.2 ⟨n, rfl⟩, Location.check, hvalue]

theorem FunctionDraft.overlooks_inFunction :
    FunctionDraft.check.Overlooks (InMembers inFunction) := by
  refine Overlooks.refine (overlooks_object fun members others h => ?_)
  have hname : inFunction "name" = Eq := if_neg (by decide)
  have hcode : inFunction "code" = Eq := if_neg (by decide)
  rw [Overlooks.field (inFunction_start ▸ Location.overlooks_ofAddress) h,
    Overlooks.field (inFunction_end ▸ Location.overlooks_ofAddress.optional) h,
    Overlooks.field (hname ▸ overlooks_eq _) h, Overlooks.field (hcode ▸ overlooks_eq _) h]

theorem Reference.overlooks_inReference :
    Reference.check.Overlooks (InMembers inReference) := by
  refine overlooks_object fun members others h => ?_
  rw [Overlooks.field (inReference_from ▸ Location.overlooks_ofAddress) h,
    Overlooks.field (inReference_to ▸ Location.overlooks_ofAddress) h]

namespace Snapshot

theorem overlooks_ofSnapshot : check.Overlooks OfSnapshot := by
  refine overlooks_object fun members others h => ?_
  have hfunctions : checkFunctions.Overlooks (InItems (InMembers inFunction)) :=
    FunctionDraft.overlooks_inFunction.array.refine.map
  have hreferences : (Check.array Reference.check).Overlooks (InItems (InMembers inReference)) :=
    Reference.overlooks_inReference.array
  have htables : inSnapshot "demangled" = Eq := by
    rw [inSnapshot, if_neg (by decide), if_neg (by decide)]
  rw [Overlooks.field (inSnapshot_functions ▸ hfunctions) h,
    Overlooks.field (inSnapshot_references ▸ hreferences.withDefault) h,
    Overlooks.field (htables ▸ overlooks_eq _) h]

theorem isDigitsOf_toText (n : Nat) : IsDigitsOf n (Address.toText n) := by
  have hnumber : Number.ofInt n = .ofNat n := by simp [Number.ofInt, Number.ofNat]
  refine ⟨Nat.toDigits 16 n, 0, ?_, map_toLower_toDigits n⟩
  rw [Address.toText, addressText, hnumber, Number.hexText_ofNat, String.toList_ofList]

/-- A document with other spellings of its addresses is read as before: it gives the same snapshot, or is told the same
issues. The text that addresses are shown in is one of these spellings, and is read as the address. -/
theorem ofJson_respelled :
    (∀ json other, OfSnapshot json other → ofJson (some json) = ofJson (some other)) ∧
    ∀ n ≤ Number.maxSafe,
      (Location.check (some (.string (Address.toText n)))).Accepts (.ofAddress n) := by
  constructor
  · intro json other h
    exact congrArg Checked.toExcept (overlooks_ofSnapshot json other h)
  · intro n hn
    obtain ⟨digits, zeros, htext, hdigits⟩ := isDigitsOf_toText n
    have hspells := spellsHex_of_map_toLower hdigits
    exact Location.accepts_check_iff.2 ⟨_, n, rfl, .text htext hspells hn, rfl⟩

/-- An address beyond the exact integers, one that repeats it, and a reference. -/
def refused : Json :=
  .object [("functions", .array [.object [("start", .nat (2 ^ 53)), ("end", .nat 10)],
      .object [("start", .nat (2 ^ 53))]]),
    ("references", .array [.object [("from", .nat 10), ("to", .nat 16)]])]

def refusedInDigits : Json :=
  .object [("functions", .array [.object [("start", .nat (2 ^ 53)), ("end", .string "0x00A")],
      .object [("start", .string "0x20000000000000")]]),
    ("references", .array [.object [("from", .string "0xa"), ("to", .nat 16)]])]

theorem ofJson_respelled_refused :
    OfSnapshot refused refusedInDigits ∧
      ofJson (some refused) = ofJson (some refusedInDigits) ∧
      (Location.check (some (.string (Address.toText Number.maxSafe)))).Accepts
        (.ofAddress Number.maxSafe) := by
  have hten : Number.IsRepresentable 10 := ⟨10, 0, by decide, by decide, rfl⟩
  have hlarge : Number.IsRepresentable (2 ^ 53) := ⟨2 ^ 52, 1, by decide, by decide, by decide⟩
  have hend : OfAddress (.nat 10) (.string "0x00A") := .digits hten ⟨['0', '0', 'A'], 2, rfl, by decide⟩
  have hstart : OfAddress (.nat (2 ^ 53)) (.string "0x20000000000000") :=
    .digits hlarge ⟨"20000000000000".toList, 0, rfl, by decide⟩
  have hsource : OfAddress (.nat 10) (.string "0xa") := .digits hten ⟨['a'], 0, rfl, by decide⟩
  have hfirst : InMembers inFunction (.object [("start", .nat (2 ^ 53)), ("end", .nat 10)])
      (.object [("start", .nat (2 ^ 53)), ("end", .string "0x00A")]) :=
    .object (.cons ⟨rfl, inFunction_start ▸ .same _⟩ (.cons ⟨rfl, inFunction_end ▸ hend⟩ .nil))
  have hsecond : InMembers inFunction (.object [("start", .nat (2 ^ 53))])
      (.object [("start", .string "0x20000000000000")]) :=
    .object (.cons ⟨rfl, inFunction_start ▸ hstart⟩ .nil)
  have hreference : InMembers inReference (.object [("from", .nat 10), ("to", .nat 16)])
      (.object [("from", .string "0xa"), ("to", .nat 16)]) :=
    .object (.cons ⟨rfl, inReference_from ▸ hsource⟩ (.cons ⟨rfl, inReference_to ▸ .same _⟩ .nil))
  have hrelated : OfSnapshot refused refusedInDigits :=
    .object (.cons ⟨rfl, inSnapshot_functions ▸ .array (.cons hfirst (.cons hsecond .nil))⟩
      (.cons ⟨rfl, inSnapshot_references ▸ .array (.cons hreference .nil)⟩ .nil))
  exact ⟨hrelated, ofJson_respelled.1 _ _ hrelated, ofJson_respelled.2 _ le_rfl⟩

end Snapshot

end CallGraph
