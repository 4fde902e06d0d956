import ForgeChores.Proofs.InMemory.Branches

/-!
# ForgeChores.Proofs.InMemory.Files

The files of a repository in memory, and the branches that they are on.

A file is kept under the name of its branch and never taken away, not even with the branch
(`Edit.keeps_file`). So a file is read from a branch that is not there exactly after a branch has
been taken away that had files (`files_on_branches_iff`).
-/

namespace ForgeChores
namespace InMemory

variable {p : Provider} {s : InMemory} {m : Moment} {repo sha path branch : String}
  {r r' : Repository} {call : Forge.Call} {answer : Forge.Answer} {file : RepositoryFile}

/-- Every file that can be read is read from a branch that is there. What is set to fail is left
out of account. -/
def ReadsFromBranches (p : Provider) (s : InMemory) : Prop :=
  ∀ repo path branch file,
    ((forge p).getFile repo path branch s.clearFailure).result = .ok file →
      ((forge p).branchExists repo branch s.clearFailure).result = .ok true

def Repository.FilesOnBranches (r : Repository) : Prop :=
  ∀ branch path file, r.files.get? (branch, path) = some file → r.branches.contains branch = true

/-- The call takes a branch away that has files. -/
def StrandsIn (sha : String) (r : Repository) (call : Forge.Call) : Prop :=
  ∃ branch path file, leaves sha branch r call = some none ∧
    r.files.get? (branch, path) = some file

def Moment.Strands (p : Provider) (repo : String) (m : Moment) : Prop :=
  m.Carries p (key repo) StrandsIn

/-! ## One call -/

theorem getFile_eq_ok_iff :
    ((forge p).getFile repo path branch s).result = .ok file ↔
      s.failureOf (.getFile (key repo) path branch) = none ∧
        ∃ r, s.get? repo = some r ∧ r.files.get? (branch, path) = some file := by
  refine result_eq_ok_iff.trans (and_congr_right fun _ => ?_)
  constructor
  · rintro ⟨r, r', hget, h⟩
    unfold Repository.getFile at h
    split at h
    · rename_i found hfound
      cases h
      exact ⟨r, hget, hfound⟩
    · cases h
  · rintro ⟨r, hget, hfile⟩
    exact ⟨r, r, hget, by simp only [Repository.getFile, hfile]⟩

theorem readsFromBranches_iff :
    ReadsFromBranches p s ↔ Everywhere Repository.FilesOnBranches s := by
  constructor
  · intro h repo r hget branch path file hfile
    have hread := h repo path branch file (getFile_eq_ok_iff.mpr ⟨rfl, r, hget, hfile⟩)
    obtain ⟨-, r', hget', hthere⟩ := branchExists_eq_ok_iff.mp hread
    have hget'' : s.get? repo = some r' := hget'
    rw [hget] at hget''
    cases hget''
    exact hthere
  · intro h repo path branch file hread
    obtain ⟨-, r, hget, hfile⟩ := getFile_eq_ok_iff.mp hread
    exact branchExists_eq_ok_iff.mpr ⟨rfl, r, hget, h repo r hget branch path file hfile⟩

theorem Edit.keeps_file {k : String × String} (h : Edit sha repo r call answer r')
    (hget : r.files.get? k = some file) : r'.files.get? k = some file := by
  cases h with
  | @createFile path content branch _ hnew =>
    have hne : (branch, path) ≠ k := by
      rintro rfl
      rw [Table.contains_eq_false_iff, hget] at hnew
      cases hnew
    simp only [Table.get?_insert, if_neg hne, hget]
  | listCommitStatuses => rw [files_nextReport, hget]
  | _ => exact hget

theorem Edit.file_cases (h : Edit sha repo r call answer r')
    (hget : r'.files.get? (branch, path) = some file) :
    r.files.get? (branch, path) = some file ∨ leaves sha branch r call = some (some sha) := by
  cases h with
  | @createFile path' content branch' _ _ =>
    simp only [Table.get?_insert] at hget
    split at hget
    · rename_i hsame
      cases hsame
      exact .inr (by simp [leaves])
    · exact .inl hget
  | listCommitStatuses =>
    rw [files_nextReport] at hget
    exact .inl hget
  | _ => exact .inl hget

theorem filesOnBranches_keptUnless : KeptUnless Repository.FilesOnBranches StrandsIn where
  fresh := fun _ _ _ _ _ hfile => by cases hfile
  fork := fun _ h => h
  aside := fun _ _ _ h => h
  edit := by
    intro sha repo r call answer r' hedit hr
    constructor
    · rintro hr' ⟨branch, path, file, hgone, hfile⟩
      have hthere := hr' branch path file (hedit.keeps_file hfile)
      rw [Table.contains, hedit.get?_branches, hgone] at hthere
      cases hthere
    · intro hnone branch path file hfile
      rw [Table.contains, hedit.get?_branches]
      rcases hedit.file_cases hfile with hold | hmoved
      · have hthere : (r.branches.get? branch).isSome = true := hr branch path file hold
        cases hleaves : leaves sha branch r call with
        | none => simpa using hthere
        | some left =>
          cases left with
          | none => exact absurd ⟨branch, path, file, hleaves, hold⟩ hnone
          | some tip => rfl
      · rw [hmoved]
        rfl

/-! ## Runs -/

theorem file_kept {actions : List Action} (houtlives : Outlives p (key repo) actions s)
    (hget : s.get? repo = some r) :
    ∃ r', (run p actions s).get? repo = some r' ∧
      ∀ k file, r.files.get? k = some file → r'.files.get? k = some file :=
  outlived (R := fun r r' => ∀ k file, r.files.get? k = some file → r'.files.get? k = some file)
    (fun _ _ _ h => h) (fun _ _ _ h h' k file hfile => h' k file (h k file hfile))
    (fun _ _ _ h k file hfile => by
      cases h with
      | aside => exact hfile
      | edited _ _ hedit => exact hedit.keeps_file hfile)
    houtlives hget

theorem new_branch_empty {base revision : String} (hreads : ReadsFromBranches p s)
    (hdone : ((forge p).createBranch repo base revision branch s).result = .ok ()) :
    ∃ r, ((forge p).createBranch repo base revision branch s).state.get? repo = some r ∧
      r.branches.contains branch = true ∧ ∀ path, r.files.get? (branch, path) = none := by
  obtain ⟨-, r, r', hget, hr', hrepos⟩ := done_of_result hdone
  have hedit : Edit "" repo r (.createBranch repo base revision branch) .nothing r' :=
    Repository.edit_of_createBranch hr'
  refine ⟨r', ?_, ?_⟩
  · show (InMemory.repos _).get? (key repo) = some r'
    rw [show ((forge p).createBranch repo base revision branch s).state.repos = _ from hrepos,
      Table.get?_insert, if_pos rfl]
  cases hedit with
  | createBranch _ hnew =>
    refine ⟨by simp [Table.contains], fun path => ?_⟩
    cases hfile : r.files.get? (branch, path) with
    | none => rfl
    | some file =>
      have hthere := readsFromBranches_iff.mp hreads repo r hget branch path file hfile
      rw [hnew] at hthere
      cases hthere

theorem createFile_eq_ok {content : String} (hget : s.get? repo = some r)
    (hfailure : s.failureOf (.createFile (key repo) path branch) = none)
    (hthere : r.branches.contains branch = true) (hnew : r.files.get? (branch, path) = none) :
    ((forge p).createFile repo path content branch s).result =
      .ok ⟨commitHash s.nextCommit, content⟩ := by
  obtain ⟨tip, htip⟩ := Table.contains_eq_true_iff.mp hthere
  obtain ⟨r', hchange⟩ : ∃ r', r.createFile (Context.createFile path branch (key repo)) path content
      branch (commitHash s.nextCommit) = .ok (⟨commitHash s.nextCommit, content⟩, r') := by
    simp only [Repository.createFile, Repository.tip, htip, Table.contains, hnew]
    exact ⟨_, rfl⟩
  exact result_eq_ok_iff.mpr ⟨hfailure, r, r', hget, hchange⟩

/-- Files are read from branches that are there all along a run exactly unless a branch is taken
away that has files. As long as that is so, a new branch shows no file and is in the way of none;
and a file that can be read can be read as long as its repository is there, whether its branch is
or not. -/
theorem files_on_branches_iff (p : Provider) :
    (∀ actions : List Action,
      (∀ before after, actions = before ++ after → ReadsFromBranches p (run p before {})) ↔
        ∀ m ∈ trace p actions {}, ∀ repo, ¬ m.Strands p repo) ∧
    (∀ (s : InMemory) (repo base revision branch : String), ReadsFromBranches p s →
      ((forge p).createBranch repo base revision branch s).result = .ok () →
      let s' := ((forge p).createBranch repo base revision branch s).state.clearFailure
      ∀ path, (∀ file, ((forge p).getFile repo path branch s').result ≠ .ok file) ∧
        ∀ content, ((forge p).createFile repo path content branch s').result =
          .ok ⟨commitHash s'.nextCommit, content⟩) ∧
    ∀ (actions : List Action) (s : InMemory) (repo path branch : String) (file : RepositoryFile),
      Outlives p (key repo) actions s →
      ((forge p).getFile repo path branch s.clearFailure).result = .ok file →
      ((forge p).getFile repo path branch (run p actions s).clearFailure).result = .ok file := by
  refine ⟨fun actions => ?_, fun s repo base revision branch hreads hdone => ?_,
    fun actions s repo path branch file houtlives hread => ?_⟩
  · simp only [readsFromBranches_iff]
    exact filesOnBranches_keptUnless.throughout_iff p actions
  · obtain ⟨r, hget, hthere, hempty⟩ := new_branch_empty hreads hdone
    intro s' path
    have hget' : s'.get? repo = some r := hget
    refine ⟨fun file hread => ?_, fun content => createFile_eq_ok hget' rfl hthere (hempty path)⟩
    obtain ⟨-, r', hr', hfile⟩ := getFile_eq_ok_iff.mp hread
    rw [hget'] at hr'
    cases hr'
    rw [hempty] at hfile
    cases hfile
  · obtain ⟨-, r, hget, hfile⟩ := getFile_eq_ok_iff.mp hread
    obtain ⟨r', hget', hkept⟩ := file_kept houtlives hget
    exact getFile_eq_ok_iff.mpr ⟨rfl, r', hget', hkept _ _ hfile⟩

/-- A branch with a file is deleted. -/
def strandedFile : List Action :=
  [.withRepository "o/r" ["main"],
    .call (.createBranch "o/r" "main" "" "feat"),
    .call (.createFile "o/r" "a.txt" "old" "feat"),
    .call (.deleteBranch "o/r" "feat")]

/-- The file is still read, and when the branch is made again it is in the way of a new one. -/
theorem file_stranded :
    let s := run .gitHub strandedFile {}
    let s' := act .gitHub s (.call (.createBranch "o/r" "main" "" "feat"))
    ((forge .gitHub).branchExists "o/r" "feat" s).result = .ok false ∧
      ((forge .gitHub).getFile "o/r" "a.txt" "feat" s).result = .ok ⟨commitHash 2, "old"⟩ ∧
      ((forge .gitHub).getFile "o/r" "a.txt" "feat" s').result = .ok ⟨commitHash 2, "old"⟩ ∧
      ((forge .gitHub).createFile "o/r" "a.txt" "new" "feat" s').result =
        .error (.conflict (Context.createFile "a.txt" "feat" "o/r") "file already exists") := by
  refine ⟨?_, ?_, ?_, ?_⟩
  all_goals rfl

end InMemory
end ForgeChores
