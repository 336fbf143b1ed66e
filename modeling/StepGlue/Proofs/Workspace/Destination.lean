import StepGlue.Proofs.Workspace.FileTree

/-!
# Where a path leads

Where a path leads is told by the path alone, as long as everything on the way is there. What is put
there, below the top directory, is put nowhere else.
-/

namespace StepGlue

namespace Listing

variable {name wanted : String} {rest further more : List String}

/-- What has something below it is a directory. -/
theorem lookup?_eq_directory {l : Listing} (hmore : more ≠ [])
    (h : (l.lookup? name (further ++ more)).isSome) : l.lookup? name further = some .directory := by
  induction l generalizing name further with
  | empty => cases h
  | file other content others ih =>
    rw [lookup?] at h ⊢
    by_cases hname : name = other
    · rw [if_pos hname, if_neg (by simp [hmore])] at h
      cases h
    · rw [if_neg hname] at h ⊢
      exact ih h
  | directory other inside others ihInside ihOthers =>
    by_cases hname : name = other
    · subst hname
      cases further with
      | nil => simp only [lookup?, if_true]
      | cons first further =>
        simp only [List.cons_append, lookup?, if_true] at h ⊢
        exact ihInside h
    · rw [lookup?_directory_of_ne hname] at h ⊢
      exact ihOthers h

/-- An entry that is put into a directory, where no directory stands, is put nowhere else. -/
theorem lookup?_put_of_ne {l : Listing} {entry : Entry}
    (hparent : further ≠ [] → l.lookup? wanted further.dropLast = some .directory)
    (hfree : l.lookup? wanted further ≠ some .directory) (hne : name = wanted → rest ≠ further) :
    (l.put wanted further entry).lookup? name rest = l.lookup? name rest := by
  induction l generalizing name rest wanted further with
  | empty =>
    cases further with
    | cons next more => exact absurd (hparent (by simp)) (by simp [lookup?])
    | nil =>
      by_cases hname : name = wanted
      · obtain ⟨first, others, rfl⟩ := List.exists_cons_of_ne_nil (hne hname)
        cases entry <;> simp [put, single, lookup?, hname]
      · cases entry <;> simp [put, single, lookup?, hname]
  | file other content others ih =>
    by_cases hwanted : wanted = other
    · subst hwanted
      cases further with
      | cons next more =>
        -- nothing can be put below a file, since no directory is there
        have hdirectory := hparent (by simp)
        rw [lookup?, if_pos rfl] at hdirectory
        split at hdirectory <;> cases hdirectory
      | nil =>
        rw [put, if_pos rfl]
        by_cases hname : name = wanted
        · subst hname
          obtain ⟨first, others', rfl⟩ := List.exists_cons_of_ne_nil (hne rfl)
          cases entry <;> simp [single, append, lookup?]
        · rw [lookup?_append_single_of_ne hname, lookup?, if_neg hname]
    · rw [lookup?, if_neg hwanted] at hfree
      have hparent' : further ≠ [] → others.lookup? wanted further.dropLast = some .directory :=
        fun hfurther => by simpa [lookup?, hwanted] using hparent hfurther
      rw [put, if_neg hwanted, lookup?, lookup?, ih hparent' hfree hne]
  | directory other inside others ihInside ihOthers =>
    by_cases hwanted : wanted = other
    · subst hwanted
      cases further with
      | nil =>
        rw [lookup?, if_pos rfl] at hfree
        exact absurd rfl hfree
      | cons next more =>
        -- the place is inside this directory, and so are the places that it is compared with
        simp only [lookup?, if_true] at hfree
        have hparent' : more ≠ [] → inside.lookup? next more.dropLast = some .directory := by
          intro hmore
          have hdirectory := hparent (by simp)
          rw [List.dropLast_cons_of_ne_nil hmore] at hdirectory
          simpa only [lookup?, if_true] using hdirectory
        rw [put, if_pos rfl]
        by_cases hname : name = wanted
        · subst hname
          cases rest with
          | nil => simp only [lookup?, if_true]
          | cons first rest =>
            simp only [lookup?, if_true]
            refine ihInside hparent' hfree ?_
            rintro rfl rfl
            exact hne rfl rfl
        · rw [lookup?_directory_of_ne hname, lookup?_directory_of_ne hname]
    · rw [lookup?_directory_of_ne hwanted] at hfree
      have hparent' : further ≠ [] → others.lookup? wanted further.dropLast = some .directory :=
        fun hfurther => lookup?_directory_of_ne hwanted inside others ▸ hparent hfurther
      rw [put_directory_of_ne hwanted]
      by_cases hname : name = other
      · subst hname
        cases rest <;> simp only [lookup?, if_true]
      · rw [lookup?_directory_of_ne hname, lookup?_directory_of_ne hname]
        exact ihOthers hparent' hfree hne

end Listing

namespace FileTree

variable {t t' t'' : FileTree} {place other start stop : Location} {entry : Entry}
  {parts : List String}

theorem lookup?_eq_directory {more : List String} (hmore : more ≠ [])
    (h : (t.lookup? (place ++ more)).isSome) : t.lookup? place = some .directory := by
  cases place with
  | nil => rfl
  | cons name further => exact Listing.lookup?_eq_directory hmore h

theorem lookup?_dropLast (h : t.lookup? place = some .directory) :
    t.lookup? place.dropLast = some .directory := by
  by_cases hplace : place = []
  · rw [hplace]
    rfl
  · rw [← List.dropLast_concat_getLast hplace] at h
    exact lookup?_eq_directory (List.cons_ne_nil _ []) (Option.isSome_of_eq_some h)

theorem lookup?_put_of_ne (hparent : t.lookup? place.dropLast = some .directory)
    (hfree : t.lookup? place ≠ some .directory) (hne : other ≠ place) :
    (t.put place entry).lookup? other = t.lookup? other := by
  cases place with
  | nil => rfl
  | cons wanted further =>
    cases other with
    | nil => rfl
    | cons name rest =>
      refine Listing.lookup?_put_of_ne (fun hfurther => ?_) hfree (fun hname hrest => ?_)
      · rw [List.dropLast_cons_of_ne_nil hfurther] at hparent
        exact hparent
      · exact hne (by rw [hname, hrest])

/-! ### Where a path leads -/

section Follow

variable [Machine]

/-- Where parts of a path lead from a place if everything on the way is there. -/
def destination (start : Location) (parts : List String) : Location :=
  parts.foldl
    (fun place part =>
      if part = ".." then place.dropLast else place ++ [Text.EscapedBytes.canonical part])
    start

/-- Where a path leads if everything on the way is there. -/
def placeOf (t : FileTree) (p : Path) : Location :=
  destination (if p.isAbsolute then [] else t.workingDirectory) p.parts

theorem placeOf_congr (h : t'.workingDirectory = t.workingDirectory) (p : Path) :
    t'.placeOf p = t.placeOf p := by
  rw [placeOf, placeOf, h]

theorem eq_destination_of_follow (h : t.follow start parts = .ok stop) :
    stop = destination start parts := by
  induction parts generalizing start with
  | nil => exact (Except.ok.inj h).symm
  | cons part rest ih =>
    rw [follow] at h
    rw [destination, List.foldl_cons]
    split at h
    · cases h
    · cases h
    · split at h
      · rw [if_pos ‹_›]
        exact ih h
      · rw [if_neg ‹_›]
        split at h
        · cases h
        · exact ih h

/-- A path that leads somewhere from a directory leads into a directory. -/
theorem lookup?_dropLast_of_follow (hstart : t.lookup? start.dropLast = some .directory)
    (h : t.follow start parts = .ok stop) : t.lookup? stop.dropLast = some .directory := by
  induction parts generalizing start with
  | nil => exact Except.ok.inj h ▸ hstart
  | cons part rest ih =>
    rw [follow] at h
    split at h
    · cases h
    · cases h
    · rename_i hdirectory
      split at h
      · exact ih (lookup?_dropLast (lookup?_dropLast hdirectory)) h
      · split at h
        · cases h
        · refine ih ?_ h
          rw [List.dropLast_concat]
          exact hdirectory

theorem eq_placeOf_of_locate {p : Path} (h : t.locate p = .ok stop) : stop = t.placeOf p := by
  rw [locate] at h
  split at h
  · cases h
  · exact eq_destination_of_follow h

theorem lookup?_dropLast_of_locate {p : Path} (hp : p.isAbsolute) (h : t.locate p = .ok stop) :
    t.lookup? stop.dropLast = some .directory := by
  rw [locate] at h
  split at h
  · cases h
  · exact lookup?_dropLast_of_follow rfl h

theorem follow_append (start : Location) (parts more : List String) :
    t.follow start (parts ++ more) =
      t.follow start parts >>= fun stop => t.follow stop more := by
  induction parts generalizing start with
  | nil => rfl
  | cons part rest ih =>
    rw [List.cons_append, follow, follow]
    split
    · rfl
    · rfl
    · split
      · exact ih _
      · split
        · rfl
        · exact ih _

/-- Below a directory that is there every path leads somewhere, unless it is too long. -/
theorem locate_of_isDirectory_parent {p : Path} (hparent : t.isDirectory p.parent = .ok true) :
    t.locate p = .ok (t.placeOf p) ∨ t.locate p = .error .nameTooLong := by
  have hsteps : ∀ start : Location, (∃ found, t.follow start p.parts.dropLast = .ok found ∧
      t.lookup? found = some .directory) →
        (∃ stop, t.follow start p.parts = .ok stop) ∨
          t.follow start p.parts = .error .nameTooLong := by
    rintro start ⟨found, hfound, hdirectory⟩
    by_cases hparts : p.parts = []
    · exact .inl ⟨start, by rw [hparts, follow]⟩
    · rw [← List.dropLast_concat_getLast hparts, follow_append, hfound]
      simp only [bind, Except.bind, follow, hdirectory]
      split
      · exact .inl ⟨_, rfl⟩
      · split
        · exact .inr rfl
        · exact .inl ⟨_, rfl⟩
  obtain ⟨-, found, hlocate, hdirectory⟩ := isDirectory_eq_true_iff.mp hparent
  rw [locate] at hlocate
  split at hlocate
  · cases hlocate
  · by_cases hlong : maxPathBytes < Text.EscapedBytes.size p.toString
    · exact .inr (if_pos hlong)
    · have hlocated :
          t.locate p = t.follow (if p.isAbsolute then [] else t.workingDirectory) p.parts :=
        if_neg hlong
      rcases hsteps _ ⟨found, hlocate, hdirectory⟩ with ⟨stop, hstop⟩ | htoo
      · have hplace := hlocated.trans hstop
        rw [hplace, ← eq_placeOf_of_locate hplace]
        exact .inl rfl
      · exact .inr (hlocated.trans htoo)

end Follow

end FileTree

end StepGlue
