import FeatureQuery.Cli.Run
import Mathlib.Data.List.Find

/-!
# What a run reaches on its host

A run sees of its host only what is found under the paths of its input and its settings: hosts that
agree there give it the same to write (`Options.prepare_congr`), so that it is enough to look at
these paths beforehand. What it reaches on a tree is no directory, and lies in one
(`Directories.isFile_of_fileAt?`).
-/

namespace FeatureQuery

/-- Settings are read alike where the same files are found under their names. -/
theorem Config.Formats.load?_congr {f : Formats} {isFile isFile' : String → Bool}
    {read? read?' : String → Option ByteArray} {name : String}
    (h : ∀ other ∈ name :: f.otherNames name,
      isFile other = isFile' other ∧ read? other = read?' other) :
    f.load? isFile read? name = f.load? isFile' read?' name := by
  have hfind : (name :: f.otherNames name).find? isFile =
      (name :: f.otherNames name).find? isFile' :=
    List.find?_congr fun other hother => (h other hother).1
  simp only [load?, hfind, Option.bind_eq_bind]
  cases hfound : (name :: f.otherNames name).find? isFile' with
  | none => rfl
  | some found =>
    have hread := (h found (List.mem_of_find?_eq_some hfound)).2
    simp only [Option.bind_some, hread]

namespace Cli

/-! ### What a run reads -/

/-- The same is found at a path on two hosts. -/
def Host.AgreeAt (h h' : Host) (path : String) : Prop :=
  h.isFile path = h'.isFile path ∧ h.read? path = h'.read? path

/-- **A run sees nothing else of its host** than the files at its paths. -/
theorem Options.prepare_congr {o : Options} {h h' : Host} (hformats : h.formats = h'.formats)
    (hagree : ∀ path ∈ o.paths h.formats, h.AgreeAt h' path) : o.prepare h = o.prepare h' := by
  have hconfig : o.readConfig h = o.readConfig h' := by
    rw [readConfig, readConfig]
    cases hpath : o.config with
    | none => rfl
    | some path =>
      have hnames : ∀ other ∈ path :: h.formats.otherNames path, h.AgreeAt h' other := by
        intro other hother
        refine hagree other (List.mem_cons_of_mem _ ?_)
        rwa [hpath]
      have hload := Config.Formats.load?_congr hnames
      simp only [Host.config?, hload, ← hformats]
  have hrecords : o.readRecords h = o.readRecords h' := by
    rw [readRecords, readRecords, (hagree o.input List.mem_cons_self).2]
  rw [prepare, prepare, hconfig, hrecords]

/-! ### Where paths lead on a tree -/

namespace Directories

variable {ds : Directories} {place file : List String} {pieces : List (List Char)} {path : String}

/-- From a directory a path leads to a place in a directory, which is no directory itself. -/
theorem isFile_of_follow? (hplace : place ∈ ds.all) (h : ds.follow? place pieces = some file) :
    file ∉ ds.all ∧ file.dropLast ∈ ds.all := by
  fun_induction follow? ds place pieces with
  | case1 => cases h
  | case2 => cases h
  | case3 place name hname =>
    simp only [not_or] at hname
    obtain ⟨hempty, hup, hnot⟩ := hname
    obtain rfl := Option.some.inj h
    refine ⟨hnot, ?_⟩
    rw [step, if_neg hempty, if_neg hup, List.dropLast_concat]
    exact hplace
  | case4 place piece rest _ hmem ih => exact ih hmem h
  | case5 => cases h

/-- A piece without a name stays where it is. -/
theorem follow?_of_empty (h : ds.follow? place ([] :: pieces) = some file) :
    place ∈ ds.all ∧ ds.follow? place pieces = some file := by
  have hstay : step place [] = place := rfl
  cases pieces with
  | nil => cases h
  | cons piece rest =>
    simp only [follow?, hstay] at h
    split at h
    · exact ⟨‹_›, h⟩
    · cases h

/-- **A path leads to a place for a file.** -/
theorem isFile_of_fileAt? (h : ds.fileAt? path = some file) :
    file ∉ ds.all ∧ file.dropLast ∈ ds.all := by
  rw [fileAt?] at h
  split at h
  · cases hpieces : Path.pieces path.toList with
    | nil =>
      rw [hpieces] at h
      cases h
    | cons first rest =>
      rw [hpieces, List.head?_cons] at h
      split at h
      · rename_i hroot
        -- a path from the root begins with a piece without a name
        rw [Option.some.inj hroot] at h
        obtain ⟨hmem, h⟩ := follow?_of_empty h
        exact isFile_of_follow? hmem h
      · exact isFile_of_follow? ds.working_mem h
  · cases h

example : fileAt? { all := [["srv"], ["srv", "jobs"]], working := ["srv", "jobs"] } ".././a.csv" =
    some ["srv", "a.csv"] := by
  decide +kernel

end Directories

end Cli

end FeatureQuery
