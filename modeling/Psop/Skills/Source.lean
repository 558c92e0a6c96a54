import Mathlib.Data.List.Nodup
import Psop.Json

/-!
The source of a skill: a branch of its repository, and the document a version freezes.

A commit request is applied as a whole on top of the head of the branch, and a read returns what the
branch holds at that moment. A `Branch` is its commits, newest first, each on top of the next one down
to the first commit of all; whoever adds a commit gives it a fresh sha. What a commit holds is found again on every later state of
the branch (`Branch.advance_commit?`).
-/
namespace Psop.Skills

/-- Paths and contents; a binary file's is its base64 text. -/
abbrev Files := List (String × String)

def fileAt (path : String) (files : Files) : Option String := files.lookup path

structure Commit where
  sha : String
  parent : Option String
  files : Files
  /-- The request that made it, which GitLab does not say. -/
  request : String
deriving DecidableEq, Repr

structure Branch where
  commits : List Commit
  nonempty : commits ≠ []
  distinct : (commits.map Commit.sha).Nodup
  chained : commits.IsChain fun newer older => newer.parent = some older.sha
  rooted : ∀ c ∈ commits.getLast?, c.parent = none

namespace Branch

variable {b b' : Branch} {sha request : String} {files : Files}

def head (b : Branch) : Commit := b.commits.head b.nonempty

/-- The branch of a new repository. -/
def root (sha : String) (files : Files) : Branch where
  commits := [⟨sha, none, files, ""⟩]
  nonempty := List.cons_ne_nil _ _
  distinct := List.nodup_singleton _
  chained := .singleton _
  rooted c isLast := by
    obtain rfl : _ = c := Option.some.inj isLast
    rfl

/-- The commit a sha names. -/
def commit? (sha : String) (b : Branch) : Option Commit := b.commits.find? fun c => c.sha == sha

/-- What a commit on top of the head would be. -/
def next (sha request : String) (files : Files) (b : Branch) : Commit :=
  ⟨sha, some b.head.sha, files, request⟩

/-- A commit that leaves the branch with `files`. -/
def advance (sha request : String) (files : Files) (b : Branch) : Option Branch :=
  if fresh : sha ∉ b.commits.map Commit.sha then
    some
      { commits := b.next sha request files :: b.commits
        nonempty := List.cons_ne_nil _ _
        distinct := List.nodup_cons.mpr ⟨fresh, b.distinct⟩
        chained := by
          obtain ⟨commits, nonempty, -, chained, -⟩ := b
          cases commits with
          | nil => exact absurd rfl nonempty
          | cons top earlier => exact .cons_cons rfl chained
        rooted := by
          obtain ⟨commits, nonempty, -, -, rooted⟩ := b
          cases commits with
          | nil => exact absurd rfl nonempty
          | cons top earlier => exact rooted }
  else none

theorem advance_spec (advanced : b.advance sha request files = some b') :
    sha ∉ b.commits.map Commit.sha ∧ b'.commits = b.next sha request files :: b.commits := by
  unfold advance at advanced
  split at advanced
  · rename_i fresh
    obtain rfl := Option.some.inj advanced
    exact ⟨fresh, rfl⟩
  · cases advanced

theorem advance_head (advanced : b.advance sha request files = some b') :
    b'.head = b.next sha request files := by
  unfold head
  simp only [(advance_spec advanced).2, List.head_cons]

theorem head_mem (b : Branch) : b.head ∈ b.commits := List.head_mem b.nonempty

theorem commit?_mem {c : Commit} (found : b.commit? sha = some c) : c ∈ b.commits ∧ c.sha = sha :=
  ⟨List.mem_of_find?_eq_some found, by simpa using List.find?_some found⟩

theorem commit?_head (b : Branch) : b.commit? b.head.sha = some b.head := by
  obtain ⟨commits, nonempty, -, -, -⟩ := b
  cases commits with
  | nil => exact absurd rfl nonempty
  | cons top earlier => exact List.find?_cons_of_pos (beq_self_eq_true _)

/-- What a sha names stays. -/
theorem advance_commit? {old : String} {c : Commit} (advanced : b.advance sha request files = some b')
    (found : b.commit? old = some c) : b'.commit? old = some c := by
  obtain ⟨fresh, commits⟩ := advance_spec advanced
  obtain ⟨isCommit, rfl⟩ := commit?_mem found
  have differ : sha ≠ c.sha := fun same => fresh (List.mem_map.mpr ⟨c, isCommit, same.symm⟩)
  simp only [commit?, commits, List.find?_cons, next, beq_false_of_ne differ]
  exact found

end Branch

/-! ### Documents -/

structure PromptMaterial where
  readme : String := ""
  skillMd : String := ""
deriving DecidableEq, Repr

/-- A `SkillDocument`; `rest` is what no function here looks into. -/
structure SkillDocument where
  key : String
  name : String
  description : String := ""
  promptMaterial : PromptMaterial := {}
  runtimePolicy : Json
  rest : Json
deriving Repr

/-- The equality of two dumps. -/
def SkillDocument.same (a b : SkillDocument) : Bool :=
  a.key == b.key && a.name == b.name && a.description == b.description &&
    a.promptMaterial == b.promptMaterial && Json.pyEq a.runtimePolicy b.runtimePolicy &&
    Json.pyEq a.rest b.rest

/-- `document_with_prompt_material` -/
def SkillDocument.withPromptMaterial (readme skillMd : Option String) (document : SkillDocument) :
    SkillDocument :=
  { document with promptMaterial :=
      { readme := readme.getD document.promptMaterial.readme
        skillMd := skillMd.getD document.promptMaterial.skillMd } }

/-- `SkillSourceBundle` -/
structure SourceBundle where
  readmeContent : String
  skillMdContent : String
  skillYamlContent : String
  headCommitSha : String
deriving Repr

end Psop.Skills
