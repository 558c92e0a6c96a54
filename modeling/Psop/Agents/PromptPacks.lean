import Psop.Json

/-!
Prompt packs: their definitions, versions and bindings.

A definition holds numbered versions of the files an agent is prompted with; a binding says which
version an agent uses. Versions are drafted, edited, published and activated on request, and
`ensureSeedData` puts the packs of the repository in their place whenever a request asks for it. Each
operation is one transaction and is undefined where the source raises: nothing is committed then.

Ids are chosen by the environment, and so is the row a query without an order returns first. YAML and
the hash function are parameters.
-/
namespace Psop.Agents

open Json

abbrev Files := List (String × String)

structure Host where
  sha256 : String → String
  /-- `yaml.safe_load`, `none` where it raises. -/
  safeLoad : String → Option Json
  safeDump : Json → String

/-! ### Files -/

def fileAt (path : String) (files : Files) : Option String := files.lookup path

def setFile (path content : String) : Files → Files
  | [] => [(path, content)]
  | (p, c) :: rest => if p = path then (path, content) :: rest else (p, c) :: setFile path content rest

def insertFile (file : String × String) : Files → Files
  | [] => [file]
  | other :: rest =>
    if Text.codesLt (Text.codes file.1) (Text.codes other.1) then file :: other :: rest
    else other :: insertFile file rest

/-- `content_hash` -/
def contentHash (host : Host) (files : Files) : String :=
  let mark := String.singleton (Char.ofNat 0)
  host.sha256 (String.join ((files.foldr insertFile []).map fun file =>
    file.1 ++ mark ++ file.2 ++ mark))

/-- `path.strip().strip("/")` -/
def cleanPath (path : String) : String :=
  let slash := fun c => c == '/'
  String.ofList ((((Text.strip path).toList.dropWhile slash).reverse.dropWhile slash).reverse)

/-- `_normalize_files` -/
def normalizeFiles (files : Files) : Option Files :=
  files.foldlM (fun normalized file =>
    let path := cleanPath file.1
    if path = "" ∨ Text.startsWith "." path = true ∨ ".." ∈ Text.splitOn '/' path then none
    else some (setFile path file.2 normalized)) []

def textRouteKey : String := "text"

def supportedRouteKeys : List String := [textRouteKey, "multimodal"]

/-- `yaml.safe_load(text) or {}` -/
def loadSpec (host : Host) (text : String) : Option Json :=
  (host.safeLoad text).map fun spec => spec.or (obj [])

/-- `_route_key_from_files` -/
def routeKeyFromFiles (host : Host) (files : Files) (default : String) : String :=
  match loadSpec host ((fileAt "agent.yaml" files).getD "") with
  | some (obj spec) => ((obj spec).field "route_key").strOr
      (if default = "" then textRouteKey else default)
  | _ => default

structure PackMetadata where
  agentId : String
  scenario : String
  routeKey : String
deriving Repr

def isWord (value : Json) : Option String :=
  value.str?.bind fun word => if Text.strip word = "" then none else some word

/-- `_validate_files`: the metadata of files that pass. -/
def validateFiles (host : Host) (files : Files) : Option PackMetadata := do
  let spec ← (fileAt "agent.yaml" files).bind (loadSpec host)
  if !spec.isObj || Text.strip ((fileAt "system.md" files).getD "") == "" then none
  else
    let agentId ← isWord (spec.field "agent_id")
    let scenario ← isWord (spec.field "scenario")
    let routeKey ← isWord (spec.field "route_key")
    if routeKey ∈ supportedRouteKeys then some ⟨agentId, scenario, routeKey⟩ else none

/-! ### Rows -/

inductive VersionStatus where
  | draft | published | archived
deriving DecidableEq, Repr

structure Definition where
  id : String
  key : String
  agentId : String
  scenario : String
  name : String
  description : String
  activeVersionId : Option String := none
deriving Repr

structure Version where
  id : String
  definitionId : String
  versionNo : Nat
  versionLabel : String
  status : VersionStatus
  routeKey : String
  files : Files
  contentHash : String
  parentVersionId : Option String := none
deriving Repr

structure Binding where
  usageKey : String
  definitionId : String
  activeVersionId : Option String
deriving Repr

structure Store where
  definitions : List Definition
  versions : List Version
  bindings : List Binding
deriving Repr

namespace Store

def empty : Store := ⟨[], [], []⟩

def definition? (id : String) (s : Store) : Option Definition :=
  s.definitions.find? fun definition => definition.id == id

/-- `get_definition_by_key` -/
def definitionByKey? (key : String) (s : Store) : Option Definition :=
  s.definitions.find? fun definition => definition.key == key

def version? (id : String) (s : Store) : Option Version :=
  s.versions.find? fun version => version.id == id

/-- `_get_version_for_definition` -/
def versionOf? (definition : Definition) (id : String) (s : Store) : Option Version :=
  (s.version? id).bind fun version =>
    if version.definitionId = definition.id then some version else none

/-- A definition and one of its versions. -/
def ownVersion? (definitionId versionId : String) (s : Store) : Option (Definition × Version) :=
  (s.definition? definitionId).bind fun definition =>
    (s.versionOf? definition versionId).map fun version => (definition, version)

/-- `list_versions`, in no order -/
def versionsOf (definitionId : String) (s : Store) : List Version :=
  s.versions.filter fun version => version.definitionId == definitionId

/-- `next_version_no` -/
def nextVersionNo (definitionId : String) (s : Store) : Nat :=
  (((s.versionsOf definitionId).map Version.versionNo).max?.getD 0) + 1

/-- `latest_version`: the version with the highest number. -/
def latestVersion (definitionId : String) (s : Store) : Option Version :=
  (s.versionsOf definitionId).find? fun version =>
    version.versionNo + 1 == s.nextVersionNo definitionId

/-- `get_version_by_hash`: one of the versions with the hash, the environment says which. -/
def versionByHash (row : Nat) (definitionId contentHash : String) (s : Store) : Option Version :=
  let found := (s.versionsOf definitionId).filter fun version => version.contentHash == contentHash
  found[row % found.length]?

def binding? (usageKey : String) (s : Store) : Option Binding :=
  s.bindings.find? fun binding => binding.usageKey == usageKey

/-- An insert; an id that is taken violates the primary key. -/
def addDefinition (definition : Definition) (s : Store) : Option Store :=
  if (s.definition? definition.id).isSome || (s.definitionByKey? definition.key).isSome then none
  else some { s with definitions := s.definitions ++ [definition] }

def addVersion (version : Version) (s : Store) : Option Store :=
  if (s.version? version.id).isSome then none
  else some { s with versions := s.versions ++ [version] }

def setDefinition (definition : Definition) (s : Store) : Store :=
  { s with definitions := s.definitions.map fun other =>
      if other.id = definition.id then definition else other }

def setVersion (version : Version) (s : Store) : Store :=
  { s with versions := s.versions.map fun other =>
      if other.id = version.id then version else other }

/-- The binding of a usage key, added where there is none. -/
def bind (binding : Binding) (s : Store) : Store :=
  match s.binding? binding.usageKey with
  | none => { s with bindings := s.bindings ++ [binding] }
  | some _ => { s with bindings := s.bindings.map fun other =>
      if other.usageKey = binding.usageKey then binding else other }

end Store

/-! ### Seeding -/

structure Seed where
  definitionKey : String
  ref : String
  name : String
  usageKeys : List String
deriving Repr

/-- `DEFAULT_AGENT_PROMPT_SEEDS` -/
def defaultSeeds : List Seed :=
  [⟨"skill_compilation.formal_v5_compile", "skill_compilation/formal_v5_compile/v1", "SKILL 编译智能体",
      ["default.compile_agent"]⟩,
    ⟨"skill_creation.conversational_draft", "skill_creation/conversational_draft/v1",
      "Skill 构建智能体", ["default.skill_creation_agent"]⟩,
    ⟨"skill_test.semantic_judge", "skill_test/semantic_judge/v1", "测试语义 Judge",
      ["skill_test.semantic_judge"]⟩,
    ⟨"runtime_execution.llm_node_fallback", "runtime_execution/llm_node_fallback/v1",
      "Runtime LLM 节点兜底提示词", ["runtime.llm_node_fallback"]⟩]

/-- A pack of the repository, as far as seeding reads it. -/
structure Pack where
  agentId : String
  version : String
  scenario : String
  routeKey : String
  description : String
  files : Files
deriving Repr

/-- What a seeding finds outside the tables: the packs, fresh ids, and the row its query returns. -/
structure Seeding where
  load : String → Option Pack
  definitionId : String → String
  versionId : String → String
  row : Nat

/-- `_seed_version_label` -/
def seedVersionLabel (assetVersion : String) (versionNo : Nat) : String :=
  if versionNo ≤ 1 ∧ assetVersion ≠ "" then assetVersion else "v" ++ toString versionNo

/-- The definition of a seed, brought in line with its pack. -/
def seededDefinition (pack : Pack) (definition : Definition) : Definition :=
  { definition with
    agentId := pack.agentId, scenario := pack.scenario
    description := if definition.description = "" then pack.description else definition.description }

/-- The definition a seed names, added where there is none. -/
def ensureDefinition (seeding : Seeding) (seed : Seed) (pack : Pack) (s : Store) :
    Option (Definition × Store) :=
  match s.definitionByKey? seed.definitionKey with
  | some definition =>
    some (seededDefinition pack definition, s.setDefinition (seededDefinition pack definition))
  | none =>
    let definition : Definition :=
      { id := seeding.definitionId seed.definitionKey, key := seed.definitionKey
        agentId := pack.agentId, scenario := pack.scenario, name := seed.name
        description := pack.description }
    (s.addDefinition definition).map fun s => (definition, s)

/-- The version that holds the pack's files: found by their hash alone, or published now. -/
def ensureVersion (host : Host) (seeding : Seeding) (seed : Seed) (pack : Pack)
    (definitionId : String) (s : Store) : Option (Version × Store) :=
  match s.versionByHash seeding.row definitionId (contentHash host pack.files) with
  | some version =>
    let version := { version with versionLabel := seedVersionLabel pack.version version.versionNo }
    some (version, s.setVersion version)
  | none =>
    let versionNo := s.nextVersionNo definitionId
    let version : Version :=
      { id := seeding.versionId seed.definitionKey, definitionId := definitionId
        versionNo := versionNo, versionLabel := seedVersionLabel pack.version versionNo
        status := .published, routeKey := pack.routeKey, files := pack.files
        contentHash := contentHash host pack.files }
    (s.addVersion version).map fun s => (version, s)

/-- A usage key without a binding gets one. -/
def seedBinding (definitionId versionId : String) (s : Store) (usageKey : String) : Store :=
  match s.binding? usageKey with
  | some _ => s
  | none => s.bind ⟨usageKey, definitionId, some versionId⟩

/-- What is missing is filled in with the version. -/
def seedLinks (seed : Seed) (definition : Definition) (version : Version) (s : Store) : Store :=
  let s := if definition.activeVersionId.isSome then s
    else s.setDefinition { definition with activeVersionId := some version.id }
  seed.usageKeys.foldl (seedBinding definition.id version.id) s

/-- One round of the loop of `ensure_seed_data`; a pack that cannot be loaded is passed over. -/
def seedOne (host : Host) (seeding : Seeding) (seed : Seed) (s : Store) : Option Store :=
  match seeding.load seed.ref with
  | none => some s
  | some pack => (ensureDefinition seeding seed pack s).bind fun (definition, s) =>
      (ensureVersion host seeding seed pack definition.id s).map fun (version, s) =>
        seedLinks seed definition version s

def seedAll (host : Host) (seeding : Seeding) : List Seed → Store → Option Store
  | [], s => some s
  | seed :: rest, s => (seedOne host seeding seed s).bind (seedAll host seeding rest)

/-- `ensure_seed_data` -/
def ensureSeedData (host : Host) (seeding : Seeding) (s : Store) : Option Store :=
  seedAll host seeding defaultSeeds s

/-! ### Requests -/

structure CreateRequest where
  key : String
  agentId : String
  scenario : String
  name : String
  description : String := ""
  routeKey : String := "text"
  files : Files := []
deriving Repr

def orText (value : String) : String := if value = "" then textRouteKey else value

/-- The files of a new definition, with what every pack has. -/
def initialFiles (host : Host) (request : CreateRequest) (files : Files) : Files :=
  let files := if (fileAt "agent.yaml" files).isSome then files
    else setFile "agent.yaml" (host.safeDump (obj [("agent_id", str request.agentId),
      ("version", str "v1"), ("scenario", str request.scenario),
      ("route_key", str (orText request.routeKey)), ("description", str request.description)])) files
  if (fileAt "system.md" files).isSome then files else setFile "system.md" "" files

/-- `create_definition` -/
def createDefinition (host : Host) (definitionId versionId : String) (request : CreateRequest)
    (s : Store) : Option Store :=
  (normalizeFiles request.files).bind fun files =>
    let files := initialFiles host request files
    (s.addDefinition
      { id := definitionId, key := request.key, agentId := request.agentId
        scenario := request.scenario, name := request.name
        description := request.description }).bind fun s =>
      s.addVersion
        { id := versionId, definitionId := definitionId, versionNo := 1, versionLabel := "v1"
          status := .draft, routeKey := orText request.routeKey, files := files
          contentHash := contentHash host files }

/-- The version a new one starts from, undefined where the named one is not there. -/
def parentVersion (definition : Definition) (parentVersionId : Option String) (s : Store) :
    Option (Option Version) :=
  match parentVersionId with
  | some id => (s.versionOf? definition id).map some
  | none => some (s.latestVersion definition.id)

/-- The files of a new version: the given ones, or those of the version it starts from. -/
def draftedFiles (files : Option Files) (parent : Option Version) : Option Files :=
  match files with
  | some files => normalizeFiles files
  | none => some ((parent.map Version.files).getD [])

/-- `create_version` -/
def createVersion (host : Host) (definitionId versionId : String) (label : Option String)
    (files : Option Files) (parentVersionId : Option String) (s : Store) : Option Store := do
  let definition ← s.definition? definitionId
  let parent ← parentVersion definition parentVersionId s
  let files ← draftedFiles files parent
  let versionNo := s.nextVersionNo definition.id
  s.addVersion
    { id := versionId, definitionId := definition.id, versionNo := versionNo
      versionLabel := match label with
        | some label => if label = "" then "v" ++ toString versionNo else label
        | none => "v" ++ toString versionNo
      status := .draft
      routeKey := routeKeyFromFiles host files ((parent.map Version.routeKey).getD textRouteKey)
      files := files, contentHash := contentHash host files
      parentVersionId := parent.map Version.id }

/-- `update_version_files`: only a draft can be edited. -/
def updateVersionFiles (host : Host) (definitionId versionId : String) (files : Files) (s : Store) :
    Option Store :=
  (s.ownVersion? definitionId versionId).bind fun (_, version) =>
    if version.status ≠ .draft then none
    else (normalizeFiles files).map fun files => s.setVersion { version with
      files := files, routeKey := routeKeyFromFiles host files version.routeKey
      contentHash := contentHash host files }

/-- `publish_version` -/
def publishVersion (host : Host) (definitionId versionId : String) (s : Store) : Option Store :=
  (s.ownVersion? definitionId versionId).bind fun (definition, version) =>
    (validateFiles host version.files).bind fun metadata =>
      if version.status = .archived then none
      else some ((s.setVersion { version with
          status := .published, routeKey := metadata.routeKey
          contentHash := contentHash host version.files }).setDefinition { definition with
            agentId := metadata.agentId, scenario := metadata.scenario })

/-- `_default_usage_keys_for_definition` -/
def defaultUsageKeys (definitionKey : String) : List String :=
  match defaultSeeds.find? fun seed => seed.definitionKey == definitionKey with
  | some seed => seed.usageKeys
  | none => [definitionKey]

/-- The usage keys an activation is about. -/
def activatedKeys (usageKey : Option String) (definition : Definition) (s : Store) : List String :=
  let keys := match usageKey with
    | some key => if key = "" then none else some [key]
    | none => none
  match keys with
  | some keys => keys
  | none =>
    match s.bindings.filter fun binding => binding.definitionId == definition.id with
    | [] => defaultUsageKeys definition.key
    | bindings => bindings.map Binding.usageKey

/-- A usage key bound to another definition is refused. -/
def activateKey (definitionId versionId : String) (s : Store) (usageKey : String) : Option Store :=
  match s.binding? usageKey with
  | some binding => if binding.definitionId ≠ definitionId then none
      else some (s.bind ⟨usageKey, definitionId, some versionId⟩)
  | none => some (s.bind ⟨usageKey, definitionId, some versionId⟩)

/-- `activate_version` -/
def activateVersion (definitionId versionId : String) (usageKey : Option String) (s : Store) :
    Option Store :=
  (s.ownVersion? definitionId versionId).bind fun (definition, version) =>
    if version.status ≠ .published then none
    else ((activatedKeys usageKey definition s).foldlM (activateKey definition.id version.id) s).map
      fun s => s.setDefinition { definition with activeVersionId := some version.id }

/-- `update_binding` -/
def updateBinding (usageKey definitionId versionId : String) (s : Store) : Option Store :=
  (s.ownVersion? definitionId versionId).bind fun (definition, version) =>
    if version.status ≠ .published then none
    else some ((s.bind ⟨usageKey, definition.id, some version.id⟩).setDefinition
      { definition with activeVersionId := some version.id })

/-! ### Steps -/

inductive PromptEvent where
  | seed (seeding : Seeding)
  | createDefinition (definitionId versionId : String) (request : CreateRequest)
  | createVersion (definitionId versionId : String) (label : Option String) (files : Option Files)
      (parentVersionId : Option String)
  | updateVersionFiles (definitionId versionId : String) (files : Files)
  | publishVersion (definitionId versionId : String)
  | activateVersion (definitionId versionId : String) (usageKey : Option String)
  | updateBinding (usageKey definitionId versionId : String)

def Store.step (host : Host) (s : Store) : PromptEvent → Option Store
  | .seed seeding => ensureSeedData host seeding s
  | .createDefinition definitionId versionId request =>
    Agents.createDefinition host definitionId versionId request s
  | .createVersion definitionId versionId label files parentVersionId =>
    Agents.createVersion host definitionId versionId label files parentVersionId s
  | .updateVersionFiles definitionId versionId files =>
    Agents.updateVersionFiles host definitionId versionId files s
  | .publishVersion definitionId versionId => Agents.publishVersion host definitionId versionId s
  | .activateVersion definitionId versionId usageKey =>
    Agents.activateVersion definitionId versionId usageKey s
  | .updateBinding usageKey definitionId versionId =>
    Agents.updateBinding usageKey definitionId versionId s

end Psop.Agents
