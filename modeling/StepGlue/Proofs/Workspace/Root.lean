import StepGlue.Proofs.Machine
import StepGlue.Proofs.Text.Lines
import StepGlue.Proofs.Workspace.FileTree
import StepGlue.Workspace.Root

/-!
# No path leads out of a workspace

A path is walked along name by name, without a look at what stands there. The place it ends at is
taken exactly if it is the root or lies below it, and if every name on the way has a form in the
encoding of file names (`writablePlace_iff_walkAlong`).
-/

namespace StepGlue

open Text

namespace Location

/-- Where a name leads: an empty one and a dot lead nowhere else, and two dots lead up, but not
beyond the top directory. -/
def enter (place : Location) (name : List Char) : Location :=
  if name = [] ∨ name = ['.'] then place
  else if name = ['.', '.'] then place.dropLast
  else place ++ [String.ofList name]

/-- Where the names between the slashes of a text lead one after the other. -/
def walkAlong (place : Location) (text : List Char) : Location :=
  (splitOn '/' text).foldl enter place

/-- A place that is written without names that lead nowhere else or up. -/
def IsResolved (place : Location) : Prop :=
  ∀ name ∈ place, name ≠ "" ∧ name ≠ "." ∧ name ≠ ".."

theorem ofList_eq_iff {name : List Char} {s : String} :
    String.ofList name = s ↔ name = s.toList := by
  rw [← String.toList_inj, String.toList_ofList]

theorem walk_partsOf (place : Location) (text : List Char) :
    Workspace.walk place (Path.partsOf text) = place.walkAlong text := by
  rw [Workspace.walk, Path.partsOf, List.foldl_map, walkAlong]
  generalize splitOn '/' text = names
  induction names generalizing place with
  | nil => rfl
  | cons name names ih =>
    rw [List.foldl_cons, ← ih, List.filter_cons]
    by_cases hempty : name = []
    · simp [hempty, enter]
    · by_cases hdot : name = ['.']
      · simp [hdot, enter]
      · simp [hempty, hdot, enter, ofList_eq_iff]

theorem IsResolved.enter {place : Location} (h : place.IsResolved) (name : List Char) :
    (place.enter name).IsResolved := by
  rw [Location.enter]
  split
  · exact h
  · split
    · exact fun other hother => h other (List.dropLast_subset place hother)
    · rename_i hstays hdots
      intro other hother
      rcases List.mem_append.mp hother with hother | hother
      · exact h other hother
      · obtain rfl := List.mem_singleton.mp hother
        rw [not_or] at hstays
        exact ⟨fun hname => hstays.1 (ofList_eq_iff.mp hname),
          fun hname => hstays.2 (ofList_eq_iff.mp hname),
          fun hname => hdots (ofList_eq_iff.mp hname)⟩

theorem IsResolved.walkAlong {place : Location} (h : place.IsResolved) (text : List Char) :
    (place.walkAlong text).IsResolved :=
  List.foldlRecOn _ _ h fun _ hplace name _ => hplace.enter name

end Location

namespace Workspace

variable [Machine]

/-- Every character has a form in the encoding of file names. -/
def IsFileName (text : List Char) : Prop :=
  ∀ c ∈ text, Charset.fileName.admits c

variable {w : Workspace} {start : Path} {parts : List String} {part path : String}
  {text : List Char} {lead : Nat}

theorem partObstacle?_eq_none (h : IsFileName part.toList) (hnul : '\x00' ∉ part.toList) :
    partObstacle? lead part = none := by
  have hencodable := (Charset.unencodable?_eq_none_iff .fileName part).mpr (List.all_eq_true.mpr h)
  rw [partObstacle?, hencodable]
  simpa using hnul

theorem exists_partObstacle? (h : ¬IsFileName part.toList) :
    ∃ u, partObstacle? lead part = some (.unencodable u) := by
  rw [partObstacle?]
  cases hencodable : Charset.fileName.unencodable? part with
  | none =>
    have hall := (Charset.unencodable?_eq_none_iff .fileName part).mp hencodable
    exact absurd (List.all_eq_true.mp hall) h
  | some u => exact ⟨_, rfl⟩

theorem obstacle?_eq_none (h : ∀ part ∈ parts, IsFileName part.toList)
    (hnul : ∀ part ∈ parts, '\x00' ∉ part.toList) : obstacle? start parts = none := by
  have hbefore : parts.takeWhile (fun part => (partObstacle? 0 part).isNone) = parts := by
    rw [List.takeWhile_eq_self_iff]
    intro part hpart
    rw [partObstacle?_eq_none (h part hpart) (hnul part hpart)]
    rfl
  simp [obstacle?, hbefore]

/-- The first part that is no file name is the obstacle. -/
theorem exists_obstacle? (h : ¬∀ part ∈ parts, IsFileName part.toList)
    (hnul : ∀ part ∈ parts, '\x00' ∉ part.toList) :
    ∃ u, obstacle? start parts = some (.unencodable u) := by
  have hfirst : ∃ part, (parts.drop (parts.takeWhile fun part =>
      (partObstacle? 0 part).isNone).length).head? = some part ∧ ¬IsFileName part.toList := by
    induction parts with
    | nil => exact absurd (by simp) h
    | cons part parts ih =>
      rw [List.forall_mem_cons] at hnul
      by_cases hpart : IsFileName part.toList
      · obtain ⟨first, hhead, hfirst⟩ := ih (fun hparts => h (by simpa [hpart] using hparts)) hnul.2
        exact ⟨first, by simpa [partObstacle?_eq_none hpart hnul.1] using hhead, hfirst⟩
      · obtain ⟨u, hobstacle⟩ : ∃ u, partObstacle? 0 part = some (.unencodable u) :=
          exists_partObstacle? hpart
        exact ⟨part, by simp [hobstacle], hpart⟩
  obtain ⟨first, hhead, hfirst⟩ := hfirst
  rw [obstacle?, hhead]
  exact exists_partObstacle? hfirst

/-! ### The path as it is written -/

theorem admits_fileName {c : Char} (hc : c.toNat < 0xF0000) : Charset.fileName.admits c := by
  simp [Charset.admits, Charset.isSpecial, surrogate?_eq_none hc]

omit [Machine] in
theorem mem_of_mem_partsOf {c : Char} (hpart : part ∈ Path.partsOf text) (hc : c ∈ part.toList) :
    c ∈ text := by
  obtain ⟨piece, hpiece, rfl⟩ := List.mem_map.mp hpart
  rw [String.toList_ofList] at hc
  have hsplit := List.mem_of_mem_filter hpiece
  have hslash : c ≠ '/' := fun heq => not_mem_of_mem_splitOn hsplit (heq ▸ hc)
  exact (exists_mem_splitOn_iff hslash).mp ⟨piece, hsplit, hc⟩

omit [Machine] in
theorem relativePart_subset (path : String) : relativePart path ⊆ path.toList :=
  fun _ hc => mem_of_mem_trim ((List.dropWhile_sublist _).subset hc)

omit [Machine] in
theorem forall_mem_partsOf_iff {P : Char → Prop} (hslash : P '/') (hdot : P '.') :
    (∀ part ∈ Path.partsOf text, ∀ c ∈ part.toList, P c) ↔ ∀ c ∈ text, P c := by
  constructor
  · intro h c hc
    by_cases hc' : c = '/'
    · exact hc' ▸ hslash
    · obtain ⟨piece, hpiece, hmem⟩ := (exists_mem_splitOn_iff hc').mpr hc
      by_cases hpieceDot : piece = ['.']
      · rw [hpieceDot, List.mem_singleton] at hmem
        exact hmem ▸ hdot
      · have hne : piece ≠ [] := List.ne_nil_of_mem hmem
        have hpart : String.ofList piece ∈ Path.partsOf text :=
          List.mem_map_of_mem (List.mem_filter.mpr ⟨hpiece, by simp [hne, hpieceDot]⟩)
        exact h _ hpart c (by simpa using hmem)
  · intro h part hpart c hc
    exact h c (mem_of_mem_partsOf hpart hc)

omit [Machine] in
/-- Only blanks and slashes are cut off from a path. -/
theorem forall_mem_relativePart_iff {P : Char → Prop} (hblank : ∀ c, isBlank c → P c)
    (hslash : P '/') (hbackslash : P '\\') :
    (∀ c ∈ relativePart path, P c) ↔ ∀ c ∈ path.toList, P c := by
  refine ⟨fun h => ?_, fun h c hc => h c (relativePart_subset path hc)⟩
  obtain ⟨before, after, hbefore, hafter, hpath⟩ := exists_blanks_trim path.toList
  have htrim : ∀ c ∈ trim path.toList, P c := by
    intro c hc
    rw [← List.takeWhile_append_dropWhile (l := trim path.toList)
      (p := fun c => c == '/' || c == '\\')] at hc
    rcases List.mem_append.mp hc with hslashes | hrest
    · have hslashed := List.mem_takeWhile_imp hslashes
      rcases Bool.or_eq_true_iff.mp hslashed with heq | heq
      · exact eq_of_beq heq ▸ hslash
      · exact eq_of_beq heq ▸ hbackslash
    · exact h c hrest
  intro c hc
  rw [hpath, List.mem_append, List.mem_append] at hc
  rcases hc with (hc | hc) | hc
  · exact hblank c (List.all_eq_true.mp hbefore c hc)
  · exact htrim c hc
  · exact hblank c (List.all_eq_true.mp hafter c hc)

theorem isFileName_partsOf_iff :
    (∀ part ∈ Path.partsOf text, IsFileName part.toList) ↔ IsFileName text :=
  forall_mem_partsOf_iff (admits_fileName (by decide)) (admits_fileName (by decide))

theorem isFileName_relativePart_iff : IsFileName (relativePart path) ↔ IsFileName path.toList :=
  forall_mem_relativePart_iff
    (fun c hc => admits_fileName ((toNat_le_of_isBlank hc).trans_lt (by decide)))
    (admits_fileName (by decide)) (admits_fileName (by decide))

omit [Machine] in
theorem nul_mem_relativePart_iff : '\x00' ∈ relativePart path ↔ '\x00' ∈ path.toList := by
  have h : (∀ c ∈ relativePart path, c ≠ '\x00') ↔ ∀ c ∈ path.toList, c ≠ '\x00' :=
    forall_mem_relativePart_iff (by rintro c hc rfl; cases hc) (by decide) (by decide)
  rw [List.forall_mem_ne', List.forall_mem_ne'] at h
  exact not_iff_not.mp h

/-! ### The root -/

theorem isResolved_root {t : FileTree} {rootPath : String}
    (hworking : Location.IsResolved t.workingDirectory) (h : ofPath t rootPath = .ok w) :
    w.root.IsResolved := by
  rw [ofPath] at h
  split at h
  · cases h
  · obtain rfl := Except.ok.inj h
    have hparts : (Path.ofString rootPath).parts = Path.partsOf rootPath.toList := rfl
    rw [hparts, Location.walk_partsOf]
    apply Location.IsResolved.walkAlong
    split
    · exact fun name hname => absurd hname (by simp)
    · exact hworking

omit [Machine] in
theorem resolve_eq_of_nul_notMem (w : Workspace) (hnul : '\x00' ∉ path.toList) :
    w.resolve path =
      if relativePart path = [] then .error .noPath
      else if w.root <+: w.root.walkAlong (relativePart path) then
        .ok (w.root.walkAlong (relativePart path))
      else .error (.outsideRoot path w.rootPath) := by
  have hpart : (relativePart path).contains '\x00' = false := by
    simpa using fun hmem => hnul (relativePart_subset path hmem)
  rw [resolve, hpart]
  simp [Location.walk_partsOf]

theorem writablePlace_eq_resolve (hpath : IsFileName (relativePart path))
    (hnul : '\x00' ∉ path.toList) : w.writablePlace path = w.resolve path := by
  have hobstacle : obstacle? w.root.toPath (Path.partsOf (relativePart path)) = none :=
    obstacle?_eq_none (isFileName_partsOf_iff.mpr hpath)
      fun part hpart hmem => hnul (relativePart_subset path (mem_of_mem_partsOf hpart hmem))
  rw [writablePlace, hobstacle]

theorem exists_writablePlace_error (hpath : ¬IsFileName (relativePart path))
    (hnul : '\x00' ∉ path.toList) : ∃ u, w.writablePlace path = .error (.unencodable u) := by
  obtain ⟨u, hobstacle⟩ : ∃ u,
      obstacle? w.root.toPath (Path.partsOf (relativePart path)) = some (.unencodable u) :=
    exists_obstacle? (fun hparts => hpath (isFileName_partsOf_iff.mp hparts))
      fun part hpart hmem => hnul (relativePart_subset path (mem_of_mem_partsOf hpart hmem))
  exact ⟨u, by rw [writablePlace, hobstacle]⟩

/-- A path without a null character is taken exactly if all of it has a form in the encoding of file
names, something is left of it, and its names lead from the root to the root or below it. It stands
for the place they lead to. -/
theorem writablePlace_iff_walkAlong {t : FileTree} {rootPath path : String}
    (hworking : Location.IsResolved t.workingDirectory) (hroot : ofPath t rootPath = .ok w)
    (hnul : '\x00' ∉ path.toList) :
    (¬IsFileName (relativePart path) → ∃ u, w.writablePlace path = .error (.unencodable u)) ∧
      (IsFileName (relativePart path) →
        (w.writablePlace path = .error .noPath ↔ relativePart path = []) ∧
        (w.writablePlace path = .error (.outsideRoot path w.rootPath) ↔
          relativePart path ≠ [] ∧ ¬w.root <+: w.root.walkAlong (relativePart path)) ∧
        ∀ place, w.writablePlace path = .ok place ↔
          relativePart path ≠ [] ∧ w.root <+: w.root.walkAlong (relativePart path) ∧
            place = w.root.walkAlong (relativePart path)) ∧
      ∀ place, w.writablePlace path = .ok place → w.root <+: place ∧ place.IsResolved := by
  have hclean := isResolved_root hworking hroot
  refine ⟨fun hpath => exists_writablePlace_error hpath hnul, fun hpath => ?_,
    fun place hplace => ?_⟩
  · rw [writablePlace_eq_resolve hpath hnul, resolve_eq_of_nul_notMem w hnul]
    by_cases hempty : relativePart path = []
    · simp [hempty]
    · by_cases hbelow : w.root <+: w.root.walkAlong (relativePart path)
      · simp [hempty, hbelow, eq_comm]
      · simp [hempty, hbelow]
  · by_cases hpath : IsFileName (relativePart path)
    · rw [writablePlace_eq_resolve hpath hnul, resolve_eq_of_nul_notMem w hnul] at hplace
      split at hplace
      · cases hplace
      · split at hplace
        · rename_i hbelow
          obtain rfl := Except.ok.inj hplace
          exact ⟨hbelow, hclean.walkAlong _⟩
        · cases hplace
    · obtain ⟨u, hfails⟩ := exists_writablePlace_error (w := w) hpath hnul
      cases hfails.symm.trans hplace

end Workspace

namespace Workspace

/-- A path with blanks and slashes before it that leaves the root and comes back. -/
theorem writablePlace_of_detour :
    let _ := Machine.plain
    let w : Workspace := { root := ["work", "app"] }
    let path := " \\/../../work/./app/Steps.java"
    Location.IsResolved FileTree.empty.workingDirectory ∧
      ofPath FileTree.empty "/work/app" = .ok w ∧ '\x00' ∉ path.toList ∧
      w.writablePlace path = .ok ["work", "app", "Steps.java"] ∧
      w.root <+: ["work", "app", "Steps.java"] := by
  intro _ w path
  have hworking : Location.IsResolved FileTree.empty.workingDirectory :=
    fun name hname => absurd hname (by simp [FileTree.empty])
  have hroot : ofPath FileTree.empty "/work/app" = .ok w := by rfl
  have hnul : '\x00' ∉ path.toList := by decide
  have hpath : IsFileName (relativePart path) := fun c hc =>
    admits_fileName (toNat_lt_of_all (n := 0xF0000) (by decide +kernel) c hc)
  obtain ⟨-, htaken, hbelow⟩ := writablePlace_iff_walkAlong hworking hroot hnul
  have hplace : w.writablePlace path = .ok ["work", "app", "Steps.java"] :=
    ((htaken hpath).2.2 _).mpr (by decide +kernel)
  exact ⟨hworking, hroot, hnul, hplace, (hbelow _ hplace).1⟩

/-- A name without a form in the encoding of file names is no way to a place, even if the path goes
back at once. -/
theorem not_exists_writablePlace_of_surrogate :
    let _ := Machine.unbounded (.ofBlock? (some 0))
    let w : Workspace := { root := ["work"] }
    let path := String.ofList (Char.ofNat 0xF0000 :: "/../a.java".toList)
    ofPath FileTree.empty "/work" = .ok w ∧ '\x00' ∉ path.toList ∧ relativePart path ≠ [] ∧
      w.root <+: w.root.walkAlong (relativePart path) ∧
      ¬∃ place, w.writablePlace path = .ok place := by
  intro _ w path
  have hnul : '\x00' ∉ path.toList := by decide +kernel
  have hpath : ¬IsFileName (relativePart path) := by
    intro h
    exact absurd (h (Char.ofNat 0xF0000) (by decide +kernel)) (by decide +kernel)
  refine ⟨by rfl, hnul, by decide +kernel, by decide +kernel, ?_⟩
  rintro ⟨place, hplace⟩
  obtain ⟨u, hfails⟩ := exists_writablePlace_error (w := w) hpath hnul
  cases hfails.symm.trans hplace

end Workspace

end StepGlue
