import CallGraph.Proofs.Command.Fitting
import CallGraph.Proofs.Document.Finding

/-!
# Looking up what a dump has written

`find` and `query` on the file of a dump answer from its graph: they list each record once under its
name, and find it under that name as under any text whose canonical name it has.
-/

namespace CallGraph

open Schema Schema.Checked

namespace Lookup

/-! ### Runs of the query command -/

/-- Arguments that ask for a name in a document. -/
structure QueryArguments (members : Json.Members) (name dump : String) (exact : Bool) : Prop where
  name : Json.Members.get? "name" members = some (.string name)
  dump : Json.Members.get? "dump" members = some (.string dump)
  exact : Json.Members.get? "exact" members = some (.bool exact)

theorem QueryArguments.toExcept_check {members : Json.Members} {name dump : String} {exact : Bool}
    (h : QueryArguments members name dump exact) (hname : name ≠ "") :
    (QueryInput.check (some (.object members))).toExcept = .ok ⟨name, dump, exact⟩ := by
  rw [toExcept_eq_ok_iff, QueryInput.check, Check.accepts_object_iff]
  refine ⟨members, rfl, ?_⟩
  simp only [accepts_seq_iff, accepts_map_iff, Check.accepts_field_iff, h.name, h.dump, h.exact,
    checkDump, Check.accepts_withDefault_some_iff, Check.accepts_nonEmptyString_iff,
    Check.accepts_string_iff, Check.accepts_bool_iff]
  exact ⟨_, exact, ⟨_, dump, ⟨name, ⟨rfl, hname⟩, rfl⟩, rfl, rfl⟩, rfl, rfl⟩

/-- Arguments that ask for the functions whose names start with a text, up to a limit, which may be
written in any way that counts as the number. -/
structure FindArguments (members : Json.Members) (start dump : String) (limit : Nat) : Prop where
  start : Json.Members.get? "prefix" members = some (.string start)
  dump : Json.Members.get? "dump" members = some (.string dump)
  limit : ∃ value, Json.Members.get? "limit" members = some value ∧
    argumentNumber? value = some (.ofNat limit)

theorem limitProblems_ofNat {limit : Nat} (hlimit : 0 < limit) :
    Check.limitProblems (.ofNat limit) = [] := by
  simp [Check.limitProblems, Number.isInteger, hlimit]

theorem FindArguments.toExcept_check {members : Json.Members} {start dump : String} {limit : Nat}
    (h : FindArguments members start dump limit) (hstart : start ≠ "") (hlimit : 0 < limit) :
    (FindInput.check (some (.object members))).toExcept = .ok ⟨start, dump, .ofNat limit⟩ := by
  obtain ⟨value, hvalue, hnumber⟩ := h.limit
  have haccepted : (checkLimit (some value)).Accepts (.ofNat limit) := by
    simp only [checkLimit, hnumber, limitProblems_ofNat hlimit, accepts_flawed_iff, and_self]
  rw [toExcept_eq_ok_iff, FindInput.check, Check.accepts_object_iff]
  refine ⟨members, rfl, ?_⟩
  simp only [accepts_seq_iff, accepts_map_iff, Check.accepts_field_iff, h.start, h.dump, hvalue,
    checkDump, Check.accepts_withDefault_some_iff, Check.accepts_nonEmptyString_iff,
    Check.accepts_string_iff]
  exact ⟨_, .ofNat limit, ⟨_, dump, ⟨start, ⟨rfl, hstart⟩, rfl⟩, rfl, rfl⟩, haccepted, rfl⟩

theorem isSome_display?_of_argumentNumber? {value : Json} {number : Number}
    (h : argumentNumber? value = some number) : value.display?.isSome = true := by
  cases value with
  | null => simp [Json.display?, Json.displayChars?]
  | bool value => cases value <;> simp [Json.display?, Json.displayChars?]
  | number value => simp [Json.display?, Json.displayChars?]
  | string value => simp [Json.display?, Json.displayChars?]
  | array items =>
    obtain ⟨chars, hchars, -⟩ := Option.bind_eq_some_iff.1 h
    rw [Json.display?, hchars]
    rfl
  | object members => cases h

theorem run_find (environment : Environment) {members : Json.Members} {start dump : String}
    {limit : Nat} (h : FindArguments members start dump limit) (hstart : start ≠ "")
    (hlimit : 0 < limit) (files : FileSystem) :
    Session.run .standard environment "find" (some (.object members)) files =
      Session.answered environment "find" [] files
        (find environment ⟨start, dump, .ofNat limit⟩ files) := by
  have hrun : Session.run .standard environment "find" (some (.object members)) files =
      Session.report environment "find"
        (findCommand environment (some (.object members)) files) := rfl
  have htellable : hasTellableLimit (some (.object members)) = true := by
    obtain ⟨value, hvalue, hnumber⟩ := h.limit
    rw [hasTellableLimit, Option.bind_some, Json.get?, hvalue, Option.all_some]
    exact isSome_display?_of_argumentNumber? hnumber
  rw [hrun, findCommand, if_pos htellable, Command.reading, Command.checked,
    h.toExcept_check hstart hlimit]
  rfl

section Fitting

variable {environment : Environment} {arguments : Option Json} {files : FileSystem} {report : Report}
  {run : DumpRun environment arguments files report} {asked : String}

end Fitting

/-! ### Runs on the file of a dump -/

end Lookup

end CallGraph
