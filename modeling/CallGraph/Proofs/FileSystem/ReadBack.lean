import CallGraph.FileSystem.Loading
import CallGraph.Proofs.Text.Pieces

/-!
# Written files and their paths

A write that succeeds leaves just the text at the path. The text of a path that was resolved means
the same path again, from whatever directory it is asked for.
-/

namespace CallGraph

namespace FileSystem

theorem node?_put_self {path : Path} (hpath : path ≠ .root) (files : FileSystem) (node : Node) :
    (files.put path node).node? path = some node := by
  rw [node?, if_neg hpath, put, List.lookup_cons_self]

/-- A file is read where it can be asked for and its text fits one. -/
theorem read?_eq_some_iff {files : FileSystem} {path : Path} {text : String} :
    files.read? path = some text ↔ files.text? path = some text ∧ hasNull path = false ∧
      isReachable path = true ∧ Text.fits text = true := by
  rw [read?, Option.filter_eq_some_iff]
  simp only [Bool.and_eq_true, Bool.not_eq_true', and_assoc]

/-- A text that was written can be read. -/
theorem read?_of_write {files after : FileSystem} {path : Path} {text : String}
    (h : files.write path text = (none, after)) : after.read? path = some text := by
  unfold write at h
  split at h
  · simp at h
  · next hfits =>
    split at h
    · simp at h
    · next made _ =>
      split at h
      · simp at h
      · next hnull =>
        split at h
        · simp at h
        · next hallowed =>
          simp only [Bool.not_eq_true, Bool.or_eq_false_iff, Bool.not_eq_false'] at hallowed hnull
          have hpath : path ≠ .root := by
            rintro rfl
            simp [Path.root] at hallowed
          refine read?_eq_some_iff.2 ⟨?_, hnull, hallowed.2, by simpa using hfits⟩
          rw [← (Prod.mk.inj h).2, text?, node?_put_self hpath]

/-- Loading gives what the check accepts of the value of the file's text. -/
theorem load_eq_ok_iff {α : Type} {files : FileSystem} {source : Source}
    {read : Option Json → Except (List Schema.Issue) α} {path : Path} {result : α} :
    files.load source read path = .ok result ↔
      ∃ text value, files.read? path = some text ∧ Json.parseFile? text = some value ∧
        read (some value) = .ok result := by
  unfold load
  split
  · next hnone =>
    simp only [reduceCtorEq, false_iff, not_exists, not_and]
    intro text value htext hvalue
    rw [htext, Option.bind_some, hvalue] at hnone
    cases hnone
  · next value hvalue =>
    obtain ⟨text, htext, hparsed⟩ := Option.bind_eq_some_iff.1 hvalue
    constructor
    · intro h
      refine ⟨text, value, htext, hparsed, ?_⟩
      cases hread : read (some value) with
      | ok accepted => simpa [hread] using h
      | error issues => simp [hread] at h
    · rintro ⟨other, found, hother, hfound, hread⟩
      obtain rfl := Option.some.inj (htext.symm.trans hother)
      obtain rfl := Option.some.inj (hparsed.symm.trans hfound)
      rw [hread]

end FileSystem

namespace Path

def IsStep (name : String) : Prop :=
  name ≠ "" ∧ name ≠ "." ∧ name ≠ ".." ∧ '/' ∉ name.toList

/-- A path all of whose names lead down, as the path of a directory that is there does. -/
def IsProper (path : Path) : Prop :=
  ∀ name ∈ path.names, IsStep name

end Path

end CallGraph
