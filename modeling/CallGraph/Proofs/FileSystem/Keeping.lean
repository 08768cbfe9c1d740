import CallGraph.Proofs.FileSystem.ReadBack

/-!
# What a write leaves alone

Making directories adds to the file system but touches no file, so that a write that fails leaves the
text of every file as it was, and one that succeeds changes the file at its own path alone.
-/

namespace CallGraph

namespace FileSystem

theorem node?_put_of_ne {path other : Path} (h : other ≠ path) (files : FileSystem) (node : Node) :
    (files.put path node).node? other = files.node? other := by
  have hlookup : List.lookup other ((path, node) :: files.nodes.filter fun entry =>
      entry.1 != path) = files.nodes.lookup other := by
    rw [List.lookup_cons, beq_eq_false_iff_ne.2 h]
    dsimp only
    induction files.nodes with
    | nil => rfl
    | cons entry rest ih =>
      obtain ⟨present, standing⟩ := entry
      by_cases hpresent : present = path
      · have hother : (other == present) = false := beq_eq_false_iff_ne.2 (hpresent ▸ h)
        rw [List.filter_cons_of_neg (by simp [hpresent]), ih, List.lookup_cons, hother]
      · rw [List.filter_cons_of_pos (by simp [hpresent]), List.lookup_cons, List.lookup_cons, ih]
  rw [node?, node?, ← hlookup]
  rfl

/-- Each file that was there has its text still, and there is no other. Directories may be new. -/
def HasSameFiles (files after : FileSystem) : Prop :=
  ∀ path, after.text? path = files.text? path

variable {files after : FileSystem} {path other : Path} {text : String}

theorem HasSameFiles.refl (files : FileSystem) : files.HasSameFiles files :=
  fun _ => rfl

theorem HasSameFiles.trans {last : FileSystem} (h : files.HasSameFiles after)
    (hlast : after.HasSameFiles last) : files.HasSameFiles last :=
  fun path => (hlast path).trans (h path)

theorem text?_put_of_ne (h : other ≠ path) (files : FileSystem) (node : Node) :
    (files.put path node).text? other = files.text? other := by
  rw [text?, text?, node?_put_of_ne h]

theorem hasSameFiles_put_directory (h : files.node? path = none) :
    files.HasSameFiles (files.put path .directory) := by
  intro other
  by_cases hother : other = path
  · subst hother
    have hroot : other ≠ .root := by
      rintro rfl
      rw [node?, if_pos rfl] at h
      cases h
    rw [text?, text?, node?_put_self hroot, h]
  · exact text?_put_of_ne hother files .directory

theorem hasSameFiles_makeDirectories (files : FileSystem) (directory : Path)
    (names : List String) : files.HasSameFiles (files.makeDirectories directory names).2 := by
  -- Each directory is made in the file system that those above it have left, and only where nothing is.
  induction names generalizing files directory with
  | nil => exact .refl files
  | cons name rest ih =>
    rw [makeDirectories]
    split
    · exact ih files _
    · exact .refl files
    · next hnone =>
      split
      · exact (hasSameFiles_put_directory hnone).trans (ih _ _)
      · exact .refl files

theorem hasSameFiles_makeDirectory (files : FileSystem) (path : Path) :
    files.HasSameFiles (files.makeDirectory path).2 := by
  have hmade := hasSameFiles_makeDirectories files .root path.names
  unfold makeDirectory
  split
  · exact .refl files
  · split
    · split
      · next hall =>
        rw [hall] at hmade
        exact hmade
      · next hblocked =>
        rw [hblocked] at hmade
        exact hmade
    · exact .refl files

/-- A write either fails, where at most directories have been made, or puts the file on top of that. -/
theorem write_eq (files : FileSystem) (path : Path) (text : String) :
    (∃ failure made, files.write path text = (some failure, made) ∧ files.HasSameFiles made) ∨
      files.write path text = (none, (files.makeDirectory path.parent).2.put path (.file text)) := by
  have hmade := hasSameFiles_makeDirectory files path.parent
  unfold write
  split
  · exact .inl ⟨.tooLong, files, rfl, .refl files⟩
  · split
    · next failure made hfailed =>
      rw [hfailed] at hmade
      exact .inl ⟨failure, made, rfl, hmade⟩
    · next made hdone =>
      rw [hdone] at hmade ⊢
      split
      · exact .inl ⟨.invalidPath, made, rfl, hmade⟩
      · split
        · exact .inl ⟨.refused, made, rfl, hmade⟩
        · exact .inr rfl

theorem hasSameFiles_of_write_eq_some {failure : WriteFailure}
    (h : files.write path text = (some failure, after)) : files.HasSameFiles after := by
  rcases write_eq files path text with ⟨other, made, hfailed, hsame⟩ | hwritten
  · rw [hfailed] at h
    obtain ⟨-, rfl⟩ := Prod.mk.inj h
    exact hsame
  · rw [hwritten] at h
    cases h

theorem text?_of_write_of_ne (h : files.write path text = (none, after)) (hother : other ≠ path) :
    after.text? other = files.text? other := by
  rcases write_eq files path text with ⟨failure, made, hfailed, -⟩ | hwritten
  · rw [hfailed] at h
    cases h
  · rw [hwritten] at h
    obtain ⟨-, rfl⟩ := Prod.mk.inj h
    rw [text?_put_of_ne hother]
    exact hasSameFiles_makeDirectory files path.parent other

end FileSystem

end CallGraph
