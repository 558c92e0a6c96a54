import Psop.Paths

/-!
The paths of an agent's local sandbox (`agent_harness/sandbox/local.py`).

A virtual path under one of two mounted roots is resolved to a host path under the sandbox's own
workspace or outputs directory, and a host path there is given a virtual path again. A resolved host
path is the list of its names, and without symbolic links resolving is a matter of text: `.` and
empty components go, `..` takes the last name back. `sandbox_confined` says that every virtual path
is refused or resolved inside a root, and that the resolved path has a virtual path that resolves to
it. It needs nothing of the two roots: they may even lie inside each other.
-/
namespace Psop.Agents.Sandbox

open Paths

/-! ### Host paths -/

/-- A component a resolved path can have. -/
structure Name (cs : List Char) : Prop where
  nonempty : cs ≠ []
  one : '/' ∉ cs
  noNull : '\x00' ∉ cs
  notHere : cs ≠ ['.']
  notUp : cs ≠ ['.', '.']

/-- A resolved host path. -/
structure HostPath where
  names : List (List Char)
  resolved : ∀ name ∈ names, Name name

/-- The parts of `Path(path)`: no empty ones and no `.`. -/
def parts (path : List Char) : List (List Char) := (words '/' path).filter (· ≠ ['.'])

/-- `(root / path).resolve()` where no component is a symbolic link. -/
def resolve (root : List (List Char)) (path : List Char) : List (List Char) :=
  (parts path).foldl (fun names part =>
    if part = ['.', '.'] then names.dropLast else names ++ [part]) root

/-! ### The sandbox -/

/-- The resolved workspace and outputs directories. -/
structure LocalAgentSandbox where
  workspacePath : HostPath
  outputsPath : HostPath

def psopWorkspaceVirtualRoot : List Char := "/mnt/psop/workspace".toList
def psopOutputsVirtualRoot : List Char := "/mnt/psop/outputs".toList

/-- `_has_parent_traversal` -/
def hasParentTraversal (path : List Char) : Bool := (parts path).any (· = ['.', '.'])

/-- `_ensure_run_path`, of resolved paths. -/
def ensureRunPath (root path : List (List Char)) : Except String (List (List Char)) :=
  if root <+: path then .ok path else .error "sandbox 文件路径越界。"

/-- `_resolve_inside` -/
def resolveInside (root : HostPath) (relativePath : List Char) :
    Except String (List (List Char)) :=
  if relativePath = [] then .ok root.names
  else ensureRunPath root.names (resolve root.names relativePath)

/-- `virtual_path[len(virtual_root):].lstrip("/")` -/
def relativeTo (virtualRoot virtualPath : List Char) : List Char :=
  (virtualPath.drop virtualRoot.length).dropWhile (· = '/')

variable (sandbox : LocalAgentSandbox)

def resolveVirtualPath (virtualPath : List Char) : Except String (List (List Char)) :=
  if virtualPath = [] ∨ '\x00' ∈ virtualPath then .error "sandbox 路径不能为空。"
  else if ['/'] <+: virtualPath ∧ ¬"/mnt/psop/".toList <+: virtualPath then
    .error "sandbox 禁止访问 host 绝对路径。"
  else if ¬"/mnt/psop/".toList <+: virtualPath then
    .error "sandbox 路径必须使用 /mnt/psop 虚拟路径。"
  else if hasParentTraversal virtualPath then .error "sandbox 路径不能包含父目录穿越。"
  else if virtualPath = psopWorkspaceVirtualRoot then .ok sandbox.workspacePath.names
  else if psopWorkspaceVirtualRoot ++ ['/'] <+: virtualPath then
    resolveInside sandbox.workspacePath (relativeTo psopWorkspaceVirtualRoot virtualPath)
  else if virtualPath = psopOutputsVirtualRoot then .ok sandbox.outputsPath.names
  else if psopOutputsVirtualRoot ++ ['/'] <+: virtualPath then
    resolveInside sandbox.outputsPath (relativeTo psopOutputsVirtualRoot virtualPath)
  else .error "不支持的 sandbox 虚拟路径。"

/-- The virtual path of what lies under a root: the root itself has no suffix. -/
def virtualUnder (virtualRoot : List Char) (relative : List (List Char)) : List Char :=
  if relative = [] then virtualRoot else virtualRoot ++ '/' :: join '/' relative

/-- `virtualize_path`, of a resolved path. -/
def virtualizePath (path : List (List Char)) : Except String (List Char) :=
  if sandbox.workspacePath.names <+: path then
    .ok (virtualUnder psopWorkspaceVirtualRoot
      (path.drop sandbox.workspacePath.names.length))
  else if sandbox.outputsPath.names <+: path then
    .ok (virtualUnder psopOutputsVirtualRoot (path.drop sandbox.outputsPath.names.length))
  else .error "host 路径不在 sandbox 可见目录内。"

/-! ### Resolving below a root -/

theorem part_name {path part : List Char} (noNull : '\x00' ∉ path) (isPart : part ∈ parts path)
    (notUp : part ≠ ['.', '.']) : Name part := by
  obtain ⟨isWord, notHere⟩ := List.mem_filter.mp isPart
  obtain ⟨nonempty, one⟩ := word_of_mem isWord
  exact ⟨nonempty, one, fun isNull => noNull (mem_of_word isWord isNull), by simpa using notHere,
    notUp⟩

theorem not_traversal {path : List Char} :
    hasParentTraversal path = false ↔ ∀ part ∈ parts path, part ≠ ['.', '.'] := by
  simp [hasParentTraversal]

/-- Without `..` a path is appended to its root. -/
theorem resolve_append {path : List Char} (inside : ∀ part ∈ parts path, part ≠ ['.', '.'])
    (root : List (List Char)) : resolve root path = root ++ parts path := by
  rw [resolve]
  generalize parts path = names at inside ⊢
  induction names generalizing root with
  | nil => simp
  | cons name names ih =>
    rw [List.foldl_cons, if_neg (inside name List.mem_cons_self),
      ih _ (fun part isPart => inside part (List.mem_cons_of_mem _ isPart)), List.append_assoc,
      List.singleton_append]

theorem resolve_inside_ok {path : List Char} (inside : ∀ part ∈ parts path, part ≠ ['.', '.'])
    (root : HostPath) : resolveInside root path = .ok (root.names ++ parts path) := by
  rw [resolveInside]
  split
  · rename_i empty
    simp [empty, parts]
  · rw [ensureRunPath, resolve_append inside, if_pos (List.prefix_append _ _)]

/-- The parts of a path under a virtual root are the root's and those of the relative path. -/
theorem parts_under {virtualRoot virtualPath : List Char}
    (under : virtualRoot ++ ['/'] <+: virtualPath) :
    parts virtualPath = parts virtualRoot ++ parts (relativeTo virtualRoot virtualPath) := by
  obtain ⟨rest, rfl⟩ := under
  rw [relativeTo, List.append_assoc, List.singleton_append, List.drop_left,
    List.dropWhile_cons_of_pos (by simp), parts, words_append, List.filter_append]
  congr 1
  rw [parts, words_dropWhile]

/-- The names of a resolved path, joined, are its parts. -/
theorem parts_join {names : List (List Char)} (resolved : ∀ name ∈ names, Name name) :
    parts (join '/' names) = names := by
  rw [parts, words_join fun name isIn => ⟨(resolved name isIn).nonempty, (resolved name isIn).one⟩,
    List.filter_eq_self]
  exact fun name isIn => by simpa using (resolved name isIn).notHere

/-- **A virtual path that is accepted** lies under one of the roots, and is resolved to that root's
directory and its own parts. -/
theorem resolve_spec {virtualPath : List Char} {host : List (List Char)}
    (accepted : resolveVirtualPath sandbox virtualPath = .ok host) :
    ∃ root relative, (root = sandbox.workspacePath ∨ root = sandbox.outputsPath) ∧
      host = root.names ++ relative ∧ ∀ name ∈ relative, Name name := by
  rw [resolveVirtualPath] at accepted
  split at accepted
  · cases accepted
  rename_i present
  split at accepted
  · cases accepted
  split at accepted
  · cases accepted
  split at accepted
  · cases accepted
  rename_i straight
  have noNull : '\x00' ∉ virtualPath := fun isNull => present (.inr isNull)
  have allParts := not_traversal.mp (Bool.not_eq_true _ ▸ straight)
  have below : ∀ {virtualRoot : List Char} {root : HostPath},
      virtualRoot ++ ['/'] <+: virtualPath →
      resolveInside root (relativeTo virtualRoot virtualPath) = .ok host →
      ∃ relative, host = root.names ++ relative ∧ ∀ name ∈ relative, Name name := by
    intro virtualRoot root under given
    have own := parts_under under
    have inside : ∀ part ∈ parts (relativeTo virtualRoot virtualPath), part ≠ ['.', '.'] :=
      fun part isPart => allParts part (own ▸ List.mem_append_right _ isPart)
    rw [resolve_inside_ok inside] at given
    refine ⟨_, (Except.ok.inj given).symm, fun name isName => ?_⟩
    exact part_name noNull (own ▸ List.mem_append_right _ isName) (inside name isName)
  split at accepted
  · exact ⟨_, [], .inl rfl, by rw [List.append_nil]; exact (Except.ok.inj accepted).symm, nofun⟩
  split at accepted
  · rename_i under
    obtain ⟨relative, isHost, named⟩ := below under accepted
    exact ⟨_, relative, .inl rfl, isHost, named⟩
  split at accepted
  · exact ⟨_, [], .inr rfl, by rw [List.append_nil]; exact (Except.ok.inj accepted).symm, nofun⟩
  split at accepted
  · rename_i under
    obtain ⟨relative, isHost, named⟩ := below under accepted
    exact ⟨_, relative, .inr rfl, isHost, named⟩
  · cases accepted

/-! ### The way back -/

/-- The two mounted roots. -/
inductive Mounted : List Char → HostPath → Prop
  | workspace : Mounted psopWorkspaceVirtualRoot sandbox.workspacePath
  | outputs : Mounted psopOutputsVirtualRoot sandbox.outputsPath

theorem virtual_null {virtualRoot : List Char} {root : HostPath}
    (mounted : Mounted sandbox virtualRoot root) {relative : List (List Char)}
    (named : ∀ name ∈ relative, Name name) : '\x00' ∉ virtualUnder virtualRoot relative := by
  have noNull : '\x00' ∉ virtualRoot := by cases mounted <;> decide
  rw [virtualUnder]
  split
  · exact noNull
  · rw [List.mem_append, List.mem_cons]
    rintro (inRoot | isSlash | inRest)
    · exact noNull inRoot
    · exact absurd isSlash (by decide)
    · rcases mem_join inRest with isSlash | ⟨name, isName, isIn⟩
      · exact absurd isSlash (by decide)
      · exact (named name isName).noNull isIn

theorem virtual_parts (virtualRoot : List Char) {relative : List (List Char)}
    (named : ∀ name ∈ relative, Name name) :
    parts (virtualUnder virtualRoot relative) = parts virtualRoot ++ relative := by
  rw [virtualUnder]
  split
  · rename_i empty
    rw [empty, List.append_nil]
  · rw [parts, words_append, List.filter_append]
    congr 1
    exact parts_join named

/-- The virtual path of what lies under a mounted root resolves to it. -/
theorem resolve_virtual {virtualRoot : List Char} {root : HostPath}
    (mounted : Mounted sandbox virtualRoot root) {relative : List (List Char)}
    (named : ∀ name ∈ relative, Name name) :
    resolveVirtualPath sandbox (virtualUnder virtualRoot relative) =
      .ok (root.names ++ relative) := by
  have noNull := virtual_null sandbox mounted named
  have own := virtual_parts virtualRoot named
  have rootStraight : ∀ part ∈ parts virtualRoot, part ≠ ['.', '.'] := by
    cases mounted <;> decide
  have straight : hasParentTraversal (virtualUnder virtualRoot relative) = false := by
    rw [not_traversal, own]
    intro part isPart
    rcases List.mem_append.mp isPart with ofRoot | ofRest
    · exact rootStraight part ofRoot
    · exact (named part ofRest).notUp
  have under : relative ≠ [] → virtualRoot ++ ['/'] <+: virtualUnder virtualRoot relative := by
    intro some
    rw [virtualUnder, if_neg some]
    exact ⟨join '/' relative, by rw [List.append_assoc, List.singleton_append]⟩
  have relativeParts : relative ≠ [] →
      parts (relativeTo virtualRoot (virtualUnder virtualRoot relative)) = relative := by
    intro some
    have split := parts_under (under some)
    rw [own] at split
    exact (List.append_cancel_left split).symm
  have begins : virtualRoot <+: virtualUnder virtualRoot relative := by
    rw [virtualUnder]
    split
    · exact List.prefix_rfl
    · exact List.prefix_append _ _
  have mountedRoot : "/mnt/psop/".toList <+: virtualUnder virtualRoot relative := by
    refine List.IsPrefix.trans ?_ begins
    cases mounted <;> decide
  have present : ¬(virtualUnder virtualRoot relative = [] ∨
      '\x00' ∈ virtualUnder virtualRoot relative) := by
    rintro (empty | isNull)
    · rw [empty] at mountedRoot
      exact absurd mountedRoot (by decide)
    · exact noNull isNull
  have resolved : relative ≠ [] →
      resolveInside root (relativeTo virtualRoot (virtualUnder virtualRoot relative)) =
        .ok (root.names ++ relative) := by
    intro some
    have inside : ∀ part ∈ parts (relativeTo virtualRoot (virtualUnder virtualRoot relative)),
        part ≠ ['.', '.'] := by
      rw [relativeParts some]
      exact fun part isPart => (named part isPart).notUp
    rw [resolve_inside_ok inside, relativeParts some]
  have longer : relative ≠ [] → virtualUnder virtualRoot relative ≠ virtualRoot := by
    intro some same
    have lengths := (under some).length_le
    rw [same, List.length_append, List.length_singleton] at lengths
    omega
  rw [resolveVirtualPath, if_neg present, if_neg fun both => both.2 mountedRoot,
    if_neg fun outside => outside mountedRoot, straight, if_neg Bool.false_ne_true]
  cases mounted with
  | workspace =>
    by_cases empty : relative = []
    · rw [if_pos (by rw [virtualUnder, if_pos empty]), empty, List.append_nil]
    · rw [if_neg (longer empty), if_pos (under empty), resolved empty]
  | outputs =>
    -- What begins with the outputs root is not under the workspace root.
    have notWorkspace : virtualUnder psopOutputsVirtualRoot relative ≠ psopWorkspaceVirtualRoot := by
      intro same
      rw [same] at begins
      exact absurd begins (by decide)
    have notUnder :
        ¬psopWorkspaceVirtualRoot ++ ['/'] <+: virtualUnder psopOutputsVirtualRoot relative := by
      intro other
      rcases List.prefix_or_prefix_of_prefix other begins with longest | longest
      · exact absurd longest (by decide)
      · exact absurd longest (by decide)
    rw [if_neg notWorkspace, if_neg notUnder]
    by_cases empty : relative = []
    · rw [if_pos (by rw [virtualUnder, if_pos empty]), empty, List.append_nil]
    · rw [if_neg (longer empty), if_pos (under empty), resolved empty]

theorem virtualize_spec {root : HostPath}
    (isRoot : root = sandbox.workspacePath ∨ root = sandbox.outputsPath)
    {relative : List (List Char)} (named : ∀ name ∈ relative, Name name) :
    ∃ virtualRoot mountedAt rest, Mounted sandbox virtualRoot mountedAt ∧
      virtualizePath sandbox (root.names ++ relative) = .ok (virtualUnder virtualRoot rest) ∧
      root.names ++ relative = mountedAt.names ++ rest ∧ ∀ name ∈ rest, Name name := by
  have all : ∀ name ∈ root.names ++ relative, Name name := by
    intro name isIn
    rcases List.mem_append.mp isIn with ofRoot | ofRest
    · exact root.resolved name ofRoot
    · exact named name ofRest
  rw [virtualizePath]
  split
  · rename_i below
    obtain ⟨rest, whole⟩ := below
    rw [← whole, List.drop_left]
    exact ⟨_, _, rest, .workspace, rfl, rfl, fun name isIn =>
      all name (whole ▸ List.mem_append_right _ isIn)⟩
  · rename_i beside
    have isOutputs : root = sandbox.outputsPath := by
      refine isRoot.resolve_left fun isWorkspace => beside ?_
      rw [isWorkspace]
      exact List.prefix_append _ _
    subst isOutputs
    rw [if_pos (List.prefix_append _ _), List.drop_left]
    exact ⟨_, _, relative, .outputs, rfl, rfl, named⟩

/-- **The sandbox.** Every virtual path is refused, or resolved inside the workspace or the outputs
directory; and the virtual path of what it was resolved to resolves to the same. -/
theorem sandbox_confined (virtualPath : List Char) :
    (∃ message, resolveVirtualPath sandbox virtualPath = .error message) ∨
      ∃ host, resolveVirtualPath sandbox virtualPath = .ok host ∧
        (sandbox.workspacePath.names <+: host ∨ sandbox.outputsPath.names <+: host) ∧
        ∃ again, virtualizePath sandbox host = .ok again ∧
          resolveVirtualPath sandbox again = .ok host := by
  cases answer : resolveVirtualPath sandbox virtualPath with
  | error message => exact .inl ⟨message, rfl⟩
  | ok host =>
    right
    obtain ⟨root, relative, isRoot, rfl, named⟩ := resolve_spec sandbox answer
    refine ⟨_, rfl, ?_, ?_⟩
    · rcases isRoot with rfl | rfl
      · exact .inl (List.prefix_append _ _)
      · exact .inr (List.prefix_append _ _)
    · obtain ⟨virtualRoot, mountedAt, rest, mounted, virtual, same, restNamed⟩ :=
        virtualize_spec sandbox isRoot named
      refine ⟨_, virtual, ?_⟩
      rw [same]
      exact resolve_virtual sandbox mounted restNamed

end Psop.Agents.Sandbox
