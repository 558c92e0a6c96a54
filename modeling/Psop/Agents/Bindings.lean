import Mathlib.Data.List.Nodup
import Psop.Agents.PromptPacks
import Psop.Runs

/-!
What links bindings and definitions to the versions in use.

`Numbered` is what holds of the tables in every state: ids and version numbers are distinct and every
version belongs to a definition. A published version keeps its files along every run
(`published_kept`). That bindings and definitions only ever lead to published versions of their own
definition is lost where seeding finds a draft: it looks a version up by the hash of its files and does
not ask whether it is published. `bindings_published` says that this is the only way.
-/
namespace Psop.Agents

open Json

variable {host : Host} {s t u : Store}

/-! ### The tables -/

structure Numbered (s : Store) : Prop where
  ids : (s.versions.map Version.id).Nodup
  numbers : (s.versions.map fun version => (version.definitionId, version.versionNo)).Nodup
  owned : ∀ version ∈ s.versions, ∃ definition ∈ s.definitions, definition.id = version.definitionId

/-- A published version of the definition. -/
def Usable (s : Store) (definitionId versionId : String) : Prop :=
  ∃ version ∈ s.versions, version.id = versionId ∧ version.definitionId = definitionId ∧
    version.status = .published

/-- A published version stays what it is. -/
def KeepsPublished (s t : Store) : Prop :=
  ∀ version ∈ s.versions, version.status = .published → ∃ later ∈ t.versions,
    later.id = version.id ∧ later.definitionId = version.definitionId ∧
    later.versionNo = version.versionNo ∧ later.status = .published ∧ later.files = version.files

theorem KeepsPublished.refl (s : Store) : KeepsPublished s s :=
  fun version isVersion published => ⟨version, isVersion, rfl, rfl, rfl, published, rfl⟩

theorem KeepsPublished.trans (first : KeepsPublished s t) (second : KeepsPublished t u) :
    KeepsPublished s u := by
  intro version isVersion published
  obtain ⟨later, isLater, sameId, sameDefinition, sameNo, stays, sameFiles⟩ :=
    first version isVersion published
  obtain ⟨last, isLast, sameId', sameDefinition', sameNo', stays', sameFiles'⟩ :=
    second later isLater stays
  exact ⟨last, isLast, sameId'.trans sameId, sameDefinition'.trans sameDefinition,
    sameNo'.trans sameNo, stays', sameFiles'.trans sameFiles⟩

theorem Usable.mono {definitionId versionId : String} (usable : Usable s definitionId versionId)
    (keeps : KeepsPublished s t) : Usable t definitionId versionId := by
  obtain ⟨version, isVersion, rfl, rfl, published⟩ := usable
  obtain ⟨later, isLater, sameId, sameDefinition, -, stays, -⟩ := keeps version isVersion published
  exact ⟨later, isLater, sameId, sameDefinition, stays⟩

/-- The tables stay in order, and what is published stays. -/
def KeepsTables (s t : Store) : Prop := Numbered s → Numbered t ∧ KeepsPublished s t

theorem KeepsTables.refl (s : Store) : KeepsTables s s := fun numbered => ⟨numbered, .refl s⟩

theorem KeepsTables.trans (first : KeepsTables s t) (second : KeepsTables t u) : KeepsTables s u := by
  intro numbered
  obtain ⟨between, keeps⟩ := first numbered
  obtain ⟨after, keeps'⟩ := second between
  exact ⟨after, keeps.trans keeps'⟩

/-- Without a change to the versions. -/
theorem KeepsTables.of_versions (same : t.versions = s.versions)
    (definitions : ∀ definition ∈ s.definitions, ∃ later ∈ t.definitions, later.id = definition.id) :
    KeepsTables s t := by
  intro numbered
  refine ⟨⟨same ▸ numbered.ids, same ▸ numbered.numbers, fun version isVersion => ?_⟩, ?_⟩
  · obtain ⟨definition, isDefinition, owns⟩ := numbered.owned version (same ▸ isVersion)
    obtain ⟨later, isLater, sameId⟩ := definitions definition isDefinition
    exact ⟨later, isLater, sameId.trans owns⟩
  · exact fun version isVersion published =>
      ⟨version, same ▸ isVersion, rfl, rfl, rfl, published, rfl⟩

theorem setDefinition_ids (definition : Definition) (s : Store) :
    ∀ other ∈ s.definitions, ∃ later ∈ (s.setDefinition definition).definitions,
      later.id = other.id := by
  intro other isOther
  refine ⟨_, List.mem_map_of_mem isOther, ?_⟩
  split
  · rename_i same
    exact same.symm
  · rfl

theorem kept_setDefinition (definition : Definition) (s : Store) :
    KeepsTables s (s.setDefinition definition) :=
  .of_versions rfl (setDefinition_ids definition s)

theorem kept_bind (binding : Binding) (s : Store) : KeepsTables s (s.bind binding) := by
  refine .of_versions ?_ fun definition isDefinition => ⟨definition, ?_, rfl⟩
  · unfold Store.bind
    split <;> rfl
  · unfold Store.bind
    split <;> exact isDefinition

/-! ### Versions -/

theorem addVersion_spec {version : Version} (added : s.addVersion version = some t) :
    version.id ∉ s.versions.map Version.id ∧
      t = { s with versions := s.versions ++ [version] } := by
  unfold Store.addVersion at added
  split at added
  · cases added
  · rename_i fresh
    refine ⟨fun taken => fresh ?_, (Option.some.inj added).symm⟩
    obtain ⟨other, isOther, same⟩ := List.mem_map.mp taken
    exact List.find?_isSome.mpr ⟨other, isOther, beq_iff_eq.mpr same⟩

theorem addDefinition_spec {definition : Definition} (added : s.addDefinition definition = some t) :
    (∀ other ∈ s.definitions, other.id ≠ definition.id) ∧
      t = { s with definitions := s.definitions ++ [definition] } := by
  unfold Store.addDefinition at added
  split at added
  · cases added
  · rename_i fresh
    rw [Bool.or_eq_true, not_or] at fresh
    refine ⟨fun other isOther same => fresh.1 ?_, (Option.some.inj added).symm⟩
    exact List.find?_isSome.mpr ⟨other, isOther, beq_iff_eq.mpr same⟩

theorem kept_addDefinition {definition : Definition} (added : s.addDefinition definition = some t) :
    KeepsTables s t := by
  obtain ⟨-, rfl⟩ := addDefinition_spec added
  exact .of_versions rfl fun other isOther => ⟨other, List.mem_append_left _ isOther, rfl⟩

/-- A version under a number its definition has not used. -/
theorem kept_addVersion {version : Version} (added : s.addVersion version = some t)
    (fresh : ∀ other ∈ s.versions, other.definitionId = version.definitionId →
      other.versionNo ≠ version.versionNo)
    (owned : ∃ definition ∈ s.definitions, definition.id = version.definitionId) : KeepsTables s t := by
  obtain ⟨newId, rfl⟩ := addVersion_spec added
  intro numbered
  refine ⟨⟨?_, ?_, ?_⟩, fun other isOther published =>
    ⟨other, List.mem_append_left _ isOther, rfl, rfl, rfl, published, rfl⟩⟩
  · rw [List.map_append]
    refine List.Nodup.append numbered.ids (List.nodup_singleton _) ?_
    intro id isOld isNew
    rw [List.mem_singleton.mp isNew] at isOld
    exact newId isOld
  · rw [List.map_append]
    refine List.Nodup.append numbered.numbers (List.nodup_singleton _) ?_
    intro number isOld isNew
    obtain ⟨other, isOther, same⟩ := List.mem_map.mp isOld
    rw [List.mem_singleton.mp isNew] at same
    exact fresh other isOther (Prod.mk.inj same).1 (Prod.mk.inj same).2
  · intro other isOther
    rcases List.mem_append.mp isOther with isOld | isNew
    · exact numbered.owned other isOld
    · rw [List.mem_singleton.mp isNew]
      exact owned

/-- The next number is above all numbers of the definition. -/
theorem below_next {definitionId : String} {version : Version} (isVersion : version ∈ s.versions)
    (own : version.definitionId = definitionId) : version.versionNo < s.nextVersionNo definitionId := by
  have isNo : version.versionNo ∈ (s.versionsOf definitionId).map Version.versionNo :=
    List.mem_map_of_mem (List.mem_filter.mpr ⟨isVersion, beq_iff_eq.mpr own⟩)
  unfold Store.nextVersionNo
  cases most : ((s.versionsOf definitionId).map Version.versionNo).max? with
  | none =>
    rw [List.max?_eq_none_iff.mp most] at isNo
    cases isNo
  | some most' =>
    have bound := (List.max?_eq_some_iff.mp most).2 _ isNo
    rw [Option.getD_some]
    omega

/-- A version is rewritten in place: under its number, and as it was where it is published. -/
theorem kept_setVersion {version later : Version} (isVersion : version ∈ s.versions)
    (sameId : later.id = version.id) (sameDefinition : later.definitionId = version.definitionId)
    (sameNo : later.versionNo = version.versionNo)
    (published : version.status = .published →
      later.status = .published ∧ later.files = version.files) : KeepsTables s (s.setVersion later) := by
  intro numbered
  have own : ∀ other ∈ s.versions, other.id = later.id → other = version := fun other isOther same =>
    List.inj_on_of_nodup_map numbered.ids isOther isVersion (same.trans sameId)
  have unchanged : ∀ {α : Type} (read : Version → α), read later = read version →
      (s.setVersion later).versions.map read = s.versions.map read := by
    intro α read same
    rw [Store.setVersion, List.map_map]
    refine List.map_congr_left fun other isOther => ?_
    show read (if other.id = later.id then later else other) = read other
    split
    · rename_i isLater
      rw [own other isOther isLater, same]
    · rfl
  refine ⟨⟨?_, ?_, ?_⟩, ?_⟩
  · rw [unchanged Version.id sameId]
    exact numbered.ids
  · rw [unchanged (fun version => (version.definitionId, version.versionNo))
      (by rw [sameDefinition, sameNo])]
    exact numbered.numbers
  · intro other isOther
    obtain ⟨before, isBefore, rfl⟩ := List.mem_map.mp isOther
    split
    · rw [sameDefinition]
      exact numbered.owned version isVersion
    · exact numbered.owned before isBefore
  · intro other isOther isPublished
    refine ⟨_, List.mem_map_of_mem isOther, ?_⟩
    split
    · rename_i isLater
      obtain rfl := own other isOther isLater
      obtain ⟨stays, sameFiles⟩ := published isPublished
      exact ⟨sameId, sameDefinition, sameNo, stays, sameFiles⟩
    · exact ⟨rfl, rfl, rfl, isPublished, rfl⟩

/-! ### Requests -/

theorem ownVersion_spec {definitionId versionId : String} {definition : Definition} {version : Version}
    (found : s.ownVersion? definitionId versionId = some (definition, version)) :
    definition ∈ s.definitions ∧ version ∈ s.versions ∧ version.definitionId = definition.id := by
  obtain ⟨definition', isDefinition, found⟩ := Option.bind_eq_some_iff.mp found
  obtain ⟨version', own, same⟩ := Option.map_eq_some_iff.mp found
  obtain ⟨rfl, rfl⟩ := Prod.mk.inj same
  obtain ⟨version, isVersion, own⟩ := Option.bind_eq_some_iff.mp own
  split at own
  · rename_i belongs
    obtain rfl := Option.some.inj own
    exact ⟨List.mem_of_find?_eq_some isDefinition, List.mem_of_find?_eq_some isVersion, belongs⟩
  · cases own

theorem create_kept {definitionId versionId : String} {request : CreateRequest}
    (stepped : createDefinition host definitionId versionId request s = some t) : KeepsTables s t := by
  obtain ⟨files, -, stepped⟩ := Option.bind_eq_some_iff.mp stepped
  obtain ⟨between, defined, added⟩ := Option.bind_eq_some_iff.mp stepped
  intro numbered
  obtain ⟨numbered', keeps⟩ := kept_addDefinition defined numbered
  obtain ⟨fresh, rfl⟩ := addDefinition_spec defined
  obtain ⟨numbered'', keeps'⟩ := kept_addVersion added
    (fun other isOther own => by
      obtain ⟨owner, isOwner, owns⟩ := numbered.owned other isOther
      exact absurd (owns.trans own) (fresh owner isOwner))
    ⟨_, List.mem_append_right _ (List.mem_singleton_self _), rfl⟩ numbered'
  exact ⟨numbered'', keeps.trans keeps'⟩

theorem draft_kept {definitionId versionId : String} {label : Option String} {files : Option Files}
    {parentVersionId : Option String}
    (stepped : createVersion host definitionId versionId label files parentVersionId s = some t) :
    KeepsTables s t ∧ t.definitions = s.definitions ∧ t.bindings = s.bindings := by
  obtain ⟨definition, isDefinition, stepped⟩ := Option.bind_eq_some_iff.mp stepped
  obtain ⟨parent, -, stepped⟩ := Option.bind_eq_some_iff.mp stepped
  obtain ⟨drafted, -, added⟩ := Option.bind_eq_some_iff.mp stepped
  have kept := kept_addVersion added
    (fun other isOther own => Nat.ne_of_lt (below_next isOther own))
    ⟨definition, List.mem_of_find?_eq_some isDefinition, rfl⟩
  obtain ⟨-, rfl⟩ := addVersion_spec added
  exact ⟨kept, rfl, rfl⟩

theorem edit_spec {definitionId versionId : String} {files : Files}
    (stepped : updateVersionFiles host definitionId versionId files s = some t) :
    KeepsTables s t ∧ t.definitions = s.definitions ∧ t.bindings = s.bindings := by
  obtain ⟨⟨definition, version⟩, found, stepped⟩ := Option.bind_eq_some_iff.mp stepped
  dsimp only at stepped
  split at stepped
  · cases stepped
  · rename_i isDraft
    obtain ⟨files, -, rfl⟩ := Option.map_eq_some_iff.mp stepped
    refine ⟨kept_setVersion (ownVersion_spec found).2.1 rfl rfl rfl fun published => ?_, rfl, rfl⟩
    exact absurd (not_not.mp isDraft) (published ▸ by decide)

/-! ### Links -/

structure Linked (s : Store) : Prop where
  bindings : ∀ binding ∈ s.bindings, ∃ versionId, binding.activeVersionId = some versionId ∧
    Usable s binding.definitionId versionId
  definitions : ∀ definition ∈ s.definitions, ∀ versionId,
    definition.activeVersionId = some versionId → Usable s definition.id versionId

/-- What is linked stays linked while published versions stay. -/
theorem Linked.mono (linked : Linked s) (keeps : KeepsPublished s t)
    (definitions : t.definitions = s.definitions) (bindings : t.bindings = s.bindings) : Linked t := by
  constructor
  · intro binding isBinding
    obtain ⟨versionId, active, usable⟩ := linked.bindings binding (bindings ▸ isBinding)
    exact ⟨versionId, active, usable.mono keeps⟩
  · intro definition isDefinition versionId active
    exact (linked.definitions definition (definitions ▸ isDefinition) versionId active).mono keeps

/-- A definition is rewritten with an active version that can be used. -/
theorem Linked.setDefinition (linked : Linked s) {definition : Definition}
    (usable : ∀ versionId, definition.activeVersionId = some versionId →
      Usable s definition.id versionId) : Linked (s.setDefinition definition) := by
  constructor
  · exact linked.bindings
  · intro other isOther versionId active
    obtain ⟨before, isBefore, rfl⟩ := List.mem_map.mp isOther
    split at active
    · rename_i same
      rw [if_pos same]
      exact usable versionId active
    · rename_i differ
      rw [if_neg differ]
      exact linked.definitions before isBefore versionId active

theorem Linked.addDefinition (linked : Linked s) {definition : Definition}
    (added : s.addDefinition definition = some t) (inactive : definition.activeVersionId = none) :
    Linked t := by
  obtain ⟨-, rfl⟩ := addDefinition_spec added
  constructor
  · exact linked.bindings
  · intro other isOther versionId active
    rcases List.mem_append.mp isOther with isOld | isNew
    · exact linked.definitions other isOld versionId active
    · rw [List.mem_singleton.mp isNew, inactive] at active
      cases active

theorem bind_versions (binding : Binding) (s : Store) : (s.bind binding).versions = s.versions := by
  unfold Store.bind
  split <;> rfl

theorem bind_definitions (binding : Binding) (s : Store) :
    (s.bind binding).definitions = s.definitions := by
  unfold Store.bind
  split <;> rfl

/-- A binding to a version that can be used. -/
theorem Linked.bind (linked : Linked s) {usageKey definitionId versionId : String}
    (usable : Usable s definitionId versionId) :
    Linked (s.bind ⟨usageKey, definitionId, some versionId⟩) := by
  have same : ∀ d v, Usable s d v → Usable (s.bind ⟨usageKey, definitionId, some versionId⟩) d v := by
    rintro d v ⟨version, isVersion, rest⟩
    exact ⟨version, (bind_versions _ s).symm ▸ isVersion, rest⟩
  constructor
  · intro binding isBinding
    unfold Store.bind at isBinding
    split at isBinding
    · rcases List.mem_append.mp isBinding with isOld | isNew
      · obtain ⟨id, active, usable⟩ := linked.bindings binding isOld
        exact ⟨id, active, same _ _ usable⟩
      · rw [List.mem_singleton.mp isNew]
        exact ⟨versionId, rfl, same _ _ usable⟩
    · obtain ⟨before, isBefore, rfl⟩ := List.mem_map.mp isBinding
      split
      · exact ⟨versionId, rfl, same _ _ usable⟩
      · obtain ⟨id, active, usable⟩ := linked.bindings before isBefore
        exact ⟨id, active, same _ _ usable⟩
  · rw [bind_definitions]
    exact fun definition isDefinition id active =>
      same _ _ (linked.definitions definition isDefinition id active)

/-! ### What one operation keeps -/

structure KeepsLinks (s t : Store) : Prop where
  kept : KeepsTables s t
  linked : Numbered s → Linked s → Linked t

theorem KeepsLinks.refl (s : Store) : KeepsLinks s s := ⟨.refl s, fun _ linked => linked⟩

theorem KeepsLinks.trans (first : KeepsLinks s t) (second : KeepsLinks t u) : KeepsLinks s u :=
  ⟨first.kept.trans second.kept, fun numbered linked =>
    second.linked (first.kept numbered).1 (first.linked numbered linked)⟩

/-- Nothing but versions change. -/
theorem KeepsLinks.of_kept (kept : KeepsTables s t) (definitions : t.definitions = s.definitions)
    (bindings : t.bindings = s.bindings) : KeepsLinks s t :=
  ⟨kept, fun numbered linked => linked.mono (kept numbered).2 definitions bindings⟩

theorem sound_bind {definitionId versionId : String} (usageKey : String)
    (usable : Usable s definitionId versionId) :
    KeepsLinks s (s.bind ⟨usageKey, definitionId, some versionId⟩) :=
  ⟨kept_bind _ s, fun _ linked => linked.bind usable⟩

theorem sound_setDefinition {definition : Definition}
    (usable : Linked s → ∀ versionId, definition.activeVersionId = some versionId →
      Usable s definition.id versionId) : KeepsLinks s (s.setDefinition definition) :=
  ⟨kept_setDefinition _ s, fun _ linked => linked.setDefinition (usable linked)⟩

/-- A definition of the table is rewritten without a change to its active version. -/
theorem sound_redefine {definition later : Definition} (isDefinition : definition ∈ s.definitions)
    (sameId : later.id = definition.id) (sameActive : later.activeVersionId = definition.activeVersionId) :
    KeepsLinks s (s.setDefinition later) :=
  sound_setDefinition fun linked versionId active =>
    sameId ▸ linked.definitions definition isDefinition versionId (sameActive ▸ active)

theorem createDefinition_sound {definitionId versionId : String} {request : CreateRequest}
    (stepped : createDefinition host definitionId versionId request s = some t) : KeepsLinks s t := by
  refine ⟨create_kept stepped, fun numbered linked => ?_⟩
  obtain ⟨files, -, stepped⟩ := Option.bind_eq_some_iff.mp stepped
  obtain ⟨between, defined, added⟩ := Option.bind_eq_some_iff.mp stepped
  obtain ⟨-, rfl⟩ := addVersion_spec added
  have linked' := linked.addDefinition defined rfl
  refine linked'.mono (fun other isOther published => ?_) rfl rfl
  exact ⟨other, List.mem_append_left _ isOther, rfl, rfl, rfl, published, rfl⟩

theorem publish_sound {definitionId versionId : String}
    (stepped : publishVersion host definitionId versionId s = some t) : KeepsLinks s t := by
  obtain ⟨⟨definition, version⟩, found, stepped⟩ := Option.bind_eq_some_iff.mp stepped
  obtain ⟨metadata, -, stepped⟩ := Option.bind_eq_some_iff.mp stepped
  obtain ⟨isDefinition, isVersion, -⟩ := ownVersion_spec found
  split at stepped
  · cases stepped
  · obtain rfl := Option.some.inj stepped
    have kept : KeepsTables s (s.setVersion { version with
        status := .published, routeKey := metadata.routeKey
        contentHash := contentHash host version.files }) :=
      kept_setVersion isVersion rfl rfl rfl fun _ => ⟨rfl, rfl⟩
    exact (KeepsLinks.of_kept kept rfl rfl).trans (sound_redefine isDefinition rfl rfl)

/-- A published version that a request names can be used. -/
theorem ownVersion_usable {definitionId versionId : String} {definition : Definition}
    {version : Version} (found : s.ownVersion? definitionId versionId = some (definition, version))
    (published : version.status = .published) : Usable s definition.id version.id := by
  obtain ⟨-, isVersion, own⟩ := ownVersion_spec found
  exact ⟨version, isVersion, rfl, own, published⟩

theorem Usable.of_bind {definitionId versionId : String} {binding : Binding}
    (usable : Usable s definitionId versionId) : Usable (s.bind binding) definitionId versionId := by
  obtain ⟨version, isVersion, rest⟩ := usable
  exact ⟨version, (bind_versions binding s).symm ▸ isVersion, rest⟩

theorem activateKey_spec {definitionId versionId usageKey : String}
    (stepped : activateKey definitionId versionId s usageKey = some t) :
    t = s.bind ⟨usageKey, definitionId, some versionId⟩ := by
  unfold activateKey at stepped
  split at stepped
  · split at stepped
    · cases stepped
    · exact (Option.some.inj stepped).symm
  · exact (Option.some.inj stepped).symm

theorem activateKeys_sound {definitionId versionId : String} {usageKeys : List String}
    (usable : Usable s definitionId versionId)
    (stepped : usageKeys.foldlM (activateKey definitionId versionId) s = some t) :
    KeepsLinks s t ∧ Usable t definitionId versionId := by
  induction usageKeys generalizing s with
  | nil =>
    obtain rfl : s = t := Option.some.inj stepped
    exact ⟨.refl s, usable⟩
  | cons usageKey rest ih =>
    obtain ⟨between, bound, stepped⟩ := Option.bind_eq_some_iff.mp stepped
    obtain rfl := activateKey_spec bound
    obtain ⟨sound, usable'⟩ := ih usable.of_bind stepped
    exact ⟨(sound_bind usageKey usable).trans sound, usable'⟩

theorem activate_sound {definitionId versionId : String} {usageKey : Option String}
    (stepped : activateVersion definitionId versionId usageKey s = some t) : KeepsLinks s t := by
  obtain ⟨⟨definition, version⟩, found, stepped⟩ := Option.bind_eq_some_iff.mp stepped
  dsimp only at stepped
  split at stepped
  · cases stepped
  · rename_i isPublished
    obtain ⟨between, activated, rfl⟩ := Option.map_eq_some_iff.mp stepped
    have usable := ownVersion_usable found (not_not.mp isPublished)
    obtain ⟨sound, usable'⟩ := activateKeys_sound usable activated
    refine sound.trans (sound_setDefinition fun _ versionId active => ?_)
    rw [← Option.some.inj active]
    exact usable'

theorem updateBinding_sound {usageKey definitionId versionId : String}
    (stepped : updateBinding usageKey definitionId versionId s = some t) : KeepsLinks s t := by
  obtain ⟨⟨definition, version⟩, found, stepped⟩ := Option.bind_eq_some_iff.mp stepped
  dsimp only at stepped
  split at stepped
  · cases stepped
  · rename_i isPublished
    obtain rfl := Option.some.inj stepped
    have usable := ownVersion_usable found (not_not.mp isPublished)
    refine (sound_bind usageKey usable).trans (sound_setDefinition fun _ versionId active => ?_)
    rw [← Option.some.inj active]
    exact usable.of_bind

/-! ### Seeding -/

theorem ensureDefinition_spec {seeding : Seeding} {seed : Seed} {pack : Pack}
    {definition : Definition} (ensured : ensureDefinition seeding seed pack s = some (definition, t)) :
    KeepsLinks s t ∧ definition ∈ t.definitions ∧ t.bindings = s.bindings ∧ t.versions = s.versions ∧
      ((∃ before, s.definitionByKey? seed.definitionKey = some before ∧ before.id = definition.id ∧
          before.activeVersionId = definition.activeVersionId) ∨
        ∀ other ∈ s.definitions, other.id ≠ definition.id) := by
  unfold ensureDefinition at ensured
  split at ensured
  · rename_i before found
    obtain ⟨rfl, rfl⟩ := Prod.mk.inj (Option.some.inj ensured)
    have isBefore := List.mem_of_find?_eq_some found
    refine ⟨sound_redefine isBefore rfl rfl, ?_, rfl, rfl, .inl ⟨before, found, rfl, rfl⟩⟩
    refine List.mem_map.mpr ⟨before, isBefore, if_pos rfl⟩
  · obtain ⟨store, added, same⟩ := Option.map_eq_some_iff.mp ensured
    obtain ⟨rfl, rfl⟩ := Prod.mk.inj same
    obtain ⟨fresh, rfl⟩ := addDefinition_spec added
    refine ⟨⟨kept_addDefinition added, fun _ linked => linked.addDefinition added rfl⟩, ?_, rfl, rfl,
      .inr fresh⟩
    exact List.mem_append_right _ (List.mem_singleton_self _)

theorem versionByHash_spec {row : Nat} {definitionId hash : String} {version : Version}
    (found : s.versionByHash row definitionId hash = some version) :
    version ∈ s.versions ∧ version.definitionId = definitionId := by
  have isFound := (List.mem_filter.mp (List.mem_of_getElem? found)).1
  exact ⟨(List.mem_filter.mp isFound).1, beq_iff_eq.mp (List.mem_filter.mp isFound).2⟩

/-- The version that holds the pack's files can be used where it was published before. -/
theorem ensureVersion_spec {seeding : Seeding} {seed : Seed} {pack : Pack} {definitionId : String}
    {version : Version} (owned : ∃ definition ∈ s.definitions, definition.id = definitionId)
    (ensured : ensureVersion host seeding seed pack definitionId s = some (version, t)) :
    KeepsLinks s t ∧ t.definitions = s.definitions ∧ t.bindings = s.bindings ∧
      (Usable t definitionId version.id ∨ ∃ before,
        s.versionByHash seeding.row definitionId (contentHash host pack.files) = some before ∧
        before.status ≠ .published) := by
  unfold ensureVersion at ensured
  split at ensured
  · rename_i before found
    obtain ⟨rfl, rfl⟩ := Prod.mk.inj (Option.some.inj ensured)
    obtain ⟨isBefore, own⟩ := versionByHash_spec found
    refine ⟨.of_kept (kept_setVersion isBefore rfl rfl rfl fun published => ⟨published, rfl⟩) rfl rfl,
      rfl, rfl, ?_⟩
    by_cases published : before.status = .published
    · exact .inl ⟨_, List.mem_map.mpr ⟨before, isBefore, if_pos rfl⟩, rfl, own, published⟩
    · exact .inr ⟨before, found, published⟩
  · obtain ⟨store, added, same⟩ := Option.map_eq_some_iff.mp ensured
    obtain ⟨rfl, rfl⟩ := Prod.mk.inj same
    have kept := kept_addVersion added
      (fun other isOther own => Nat.ne_of_lt (below_next isOther own)) owned
    obtain ⟨-, rfl⟩ := addVersion_spec added
    exact ⟨.of_kept kept rfl rfl, rfl, rfl,
      .inl ⟨_, List.mem_append_right _ (List.mem_singleton_self _), rfl, rfl, rfl⟩⟩

theorem seedBinding_eq {definitionId versionId usageKey : String}
    (bound : (s.binding? usageKey).isSome) : seedBinding definitionId versionId s usageKey = s := by
  obtain ⟨binding, found⟩ := Option.isSome_iff_exists.mp bound
  rw [seedBinding, found]

theorem seedBindings_sound {definitionId versionId : String} (usageKeys : List String)
    (usable : Usable s definitionId versionId) :
    KeepsLinks s (usageKeys.foldl (seedBinding definitionId versionId) s) := by
  induction usageKeys generalizing s with
  | nil => exact .refl s
  | cons usageKey rest ih =>
    rw [List.foldl_cons]
    cases found : s.binding? usageKey with
    | some binding =>
      rw [seedBinding_eq (by rw [found]; rfl)]
      exact ih usable
    | none =>
      have added : seedBinding definitionId versionId s usageKey =
          s.bind ⟨usageKey, definitionId, some versionId⟩ := by
        rw [seedBinding, found]
      rw [added]
      exact (sound_bind usageKey usable).trans (ih usable.of_bind)

theorem seedLinks_sound {seed : Seed} {definition : Definition} {version : Version}
    (usable : Usable s definition.id version.id) : KeepsLinks s (seedLinks seed definition version s) := by
  unfold seedLinks
  split
  · exact seedBindings_sound _ usable
  · have activated : KeepsLinks s (s.setDefinition { definition with activeVersionId := some version.id }) :=
      sound_setDefinition fun _ versionId active => Option.some.inj active ▸ usable
    exact activated.trans (seedBindings_sound _ usable)

/-- Nothing is missing, so nothing is linked. -/
theorem seedLinks_eq {seed : Seed} {definition : Definition} {version : Version}
    (active : definition.activeVersionId.isSome)
    (bound : ∀ usageKey ∈ seed.usageKeys, (s.binding? usageKey).isSome) :
    seedLinks seed definition version s = s := by
  rw [seedLinks, if_pos active]
  generalize seed.usageKeys = usageKeys at bound
  induction usageKeys with
  | nil => rfl
  | cons usageKey rest ih =>
    rw [List.foldl_cons, seedBinding_eq (bound _ List.mem_cons_self)]
    exact ih fun key isKey => bound key (List.mem_cons_of_mem _ isKey)

theorem kept_seedLinks (seed : Seed) (definition : Definition) (version : Version) (s : Store) :
    KeepsTables s (seedLinks seed definition version s) := by
  have bound : ∀ (usageKeys : List String) (s : Store),
      KeepsTables s (usageKeys.foldl (seedBinding definition.id version.id) s) := by
    intro usageKeys
    induction usageKeys with
    | nil => exact .refl
    | cons usageKey rest ih =>
      intro s
      refine KeepsTables.trans ?_ (ih _)
      unfold seedBinding
      split
      · exact .refl s
      · exact kept_bind _ s
  unfold seedLinks
  split
  · exact bound _ s
  · exact (kept_setDefinition _ s).trans (bound _ _)

theorem kept_seedOne {seeding : Seeding} {seed : Seed}
    (stepped : seedOne host seeding seed s = some t) : KeepsTables s t := by
  unfold seedOne at stepped
  split at stepped
  · obtain rfl := Option.some.inj stepped
    exact .refl s
  · obtain ⟨⟨definition, between⟩, defined, stepped⟩ := Option.bind_eq_some_iff.mp stepped
    obtain ⟨⟨version, after⟩, versioned, rfl⟩ := Option.map_eq_some_iff.mp stepped
    obtain ⟨sound, isDefinition, -⟩ := ensureDefinition_spec defined
    obtain ⟨sound', -⟩ := ensureVersion_spec ⟨definition, isDefinition, rfl⟩ versioned
    exact (sound.kept.trans sound'.kept).trans (kept_seedLinks seed definition version after)

theorem kept_seedAll {seeding : Seeding} {seeds : List Seed}
    (stepped : seedAll host seeding seeds s = some t) : KeepsTables s t := by
  induction seeds generalizing s with
  | nil =>
    obtain rfl := Option.some.inj stepped
    exact .refl s
  | cons seed rest ih =>
    obtain ⟨between, one, stepped⟩ := Option.bind_eq_some_iff.mp stepped
    exact (kept_seedOne one).trans (ih stepped)

/-- A seed whose pack is found in a version that is not published has nothing left to link. -/
def SeedClean (host : Host) (seeding : Seeding) (seed : Seed) (s : Store) : Prop :=
  ∀ pack ∈ seeding.load seed.ref, ∀ definition ∈ s.definitionByKey? seed.definitionKey,
    ∀ version ∈ s.versionByHash seeding.row definition.id (contentHash host pack.files),
    version.status ≠ .published →
    definition.activeVersionId.isSome ∧
      ∀ usageKey ∈ seed.usageKeys, (s.binding? usageKey).isSome

theorem seedOne_sound {seeding : Seeding} {seed : Seed} (numbered : Numbered s)
    (clean : SeedClean host seeding seed s)
    (stepped : seedOne host seeding seed s = some t) : KeepsLinks s t := by
  unfold seedOne at stepped
  split at stepped
  · obtain rfl := Option.some.inj stepped
    exact .refl s
  · rename_i pack loaded
    obtain ⟨⟨definition, between⟩, defined, stepped⟩ := Option.bind_eq_some_iff.mp stepped
    obtain ⟨⟨version, after⟩, versioned, rfl⟩ := Option.map_eq_some_iff.mp stepped
    obtain ⟨sound, isDefinition, sameBindings, sameVersions, origin⟩ := ensureDefinition_spec defined
    obtain ⟨sound', -, sameBindings', usable⟩ :=
      ensureVersion_spec ⟨definition, isDefinition, rfl⟩ versioned
    refine (sound.trans sound').trans ?_
    rcases usable with usable | ⟨before, found, unpublished⟩
    · exact seedLinks_sound usable
    · have found' : s.versionByHash seeding.row definition.id (contentHash host pack.files) =
          some before := by
        simpa only [Store.versionByHash, Store.versionsOf, sameVersions] using found
      rcases origin with ⟨earlier, isEarlier, sameId, sameActive⟩ | fresh
      · obtain ⟨active, bound⟩ :=
          clean pack loaded earlier isEarlier before (sameId ▸ found') unpublished
        have complete : seedLinks seed definition version after = after :=
          seedLinks_eq (sameActive ▸ active) fun usageKey isKey => by
            rw [Store.binding?, sameBindings', sameBindings]
            exact bound usageKey isKey
        dsimp only
        rw [complete]
        exact .refl after
      · -- a definition just added has no versions yet
        obtain ⟨isBefore, own⟩ := versionByHash_spec found'
        obtain ⟨owner, isOwner, owns⟩ := numbered.owned before isBefore
        exact absurd (owns.trans own) (fresh owner isOwner)

/-- Every round of a seeding is clean in the state it starts from. -/
def SeedsClean (host : Host) (seeding : Seeding) : List Seed → Store → Prop
  | [], _ => True
  | seed :: rest, s => SeedClean host seeding seed s ∧
      ∀ t ∈ seedOne host seeding seed s, SeedsClean host seeding rest t

theorem seedAll_sound {seeding : Seeding} {seeds : List Seed} (numbered : Numbered s)
    (clean : SeedsClean host seeding seeds s)
    (stepped : seedAll host seeding seeds s = some t) : KeepsLinks s t := by
  induction seeds generalizing s with
  | nil =>
    obtain rfl := Option.some.inj stepped
    exact .refl s
  | cons seed rest ih =>
    obtain ⟨between, one, stepped⟩ := Option.bind_eq_some_iff.mp stepped
    have sound := seedOne_sound numbered clean.1 one
    exact sound.trans (ih (sound.kept numbered).1 (clean.2 between one) stepped)

/-! ### Runs -/

def CleanSeeding (host : Host) (s : Store) : PromptEvent → Prop
  | .seed seeding => SeedsClean host seeding defaultSeeds s
  | _ => True

instance (host : Host) (seeding : Seeding) (seed : Seed) (s : Store) :
    Decidable (SeedClean host seeding seed s) := by
  unfold SeedClean
  infer_instance

instance decidableSeedsClean (host : Host) (seeding : Seeding) :
    ∀ seeds s, Decidable (SeedsClean host seeding seeds s)
  | [], _ => inferInstanceAs (Decidable True)
  | seed :: rest, s =>
    have := decidableSeedsClean host seeding rest
    inferInstanceAs (Decidable (SeedClean host seeding seed s ∧
      ∀ t ∈ seedOne host seeding seed s, SeedsClean host seeding rest t))

instance (host : Host) : ∀ s e, Decidable (CleanSeeding host s e)
  | s, .seed seeding => inferInstanceAs (Decidable (SeedsClean host seeding defaultSeeds s))
  | _, .createDefinition .. | _, .createVersion .. | _, .updateVersionFiles ..
  | _, .publishVersion .. | _, .activateVersion .. | _, .updateBinding .. =>
    inferInstanceAs (Decidable True)

/-- The operations other than a seeding. -/
theorem request_sound {e : PromptEvent} (request : ∀ seeding, e ≠ .seed seeding)
    (stepped : s.step host e = some t) : KeepsLinks s t := by
  cases e with
  | seed seeding => exact absurd rfl (request seeding)
  | createDefinition definitionId versionId request => exact createDefinition_sound stepped
  | createVersion definitionId versionId label files parentVersionId =>
    obtain ⟨kept, sameDefinitions, sameBindings⟩ := draft_kept stepped
    exact .of_kept kept sameDefinitions sameBindings
  | updateVersionFiles definitionId versionId files =>
    obtain ⟨kept, sameDefinitions, sameBindings⟩ := edit_spec stepped
    exact .of_kept kept sameDefinitions sameBindings
  | publishVersion definitionId versionId => exact publish_sound stepped
  | activateVersion definitionId versionId usageKey => exact activate_sound stepped
  | updateBinding usageKey definitionId versionId => exact updateBinding_sound stepped

theorem kept_step {e : PromptEvent} (stepped : s.step host e = some t) : KeepsTables s t := by
  by_cases isSeeding : ∃ seeding, e = .seed seeding
  · obtain ⟨seeding, rfl⟩ := isSeeding
    exact kept_seedAll stepped
  · exact (request_sound (fun seeding same => isSeeding ⟨seeding, same⟩) stepped).kept

theorem step_sound {e : PromptEvent} (numbered : Numbered s) (clean : CleanSeeding host s e)
    (stepped : s.step host e = some t) : KeepsLinks s t := by
  by_cases isSeeding : ∃ seeding, e = .seed seeding
  · obtain ⟨seeding, rfl⟩ := isSeeding
    exact seedAll_sound numbered clean stepped
  · exact request_sound (fun seeding same => isSeeding ⟨seeding, same⟩) stepped

theorem numbered_empty : Numbered .empty :=
  ⟨List.nodup_nil, List.nodup_nil, fun _ isVersion => absurd isVersion List.not_mem_nil⟩

theorem linked_empty : Linked .empty :=
  ⟨fun _ isBinding => absurd isBinding List.not_mem_nil,
    fun _ isDefinition => absurd isDefinition List.not_mem_nil⟩

/-- **In every run, clean or not, version numbers are distinct and a published version keeps its
files.** -/
theorem published_kept (before : Run (Store.step host) anyStep .empty s)
    (after : Run (Store.step host) anyStep s t) : Numbered t ∧ KeepsPublished s t := by
  have preserved : ∀ s e t, Numbered s → anyStep s e → s.step host e = some t → Numbered t :=
    fun s e t numbered _ stepped => (kept_step stepped numbered).1
  have reached := before.invariant preserved numbered_empty
  refine ⟨after.invariant preserved reached, ?_⟩
  exact after.related KeepsPublished.refl (fun _ _ _ first second => first.trans second) preserved
    (fun s e t numbered _ stepped => (kept_step stepped numbered).2) reached

/-- **In every run whose seedings are clean, bindings and definitions lead to published versions of
their own definition, numbers are distinct, and what is published keeps its files from then on.** -/
theorem bindings_published (before : Run (Store.step host) (CleanSeeding host) .empty s)
    (after : Run (Store.step host) (CleanSeeding host) s t) :
    Linked t ∧ (t.versions.map fun version => (version.definitionId, version.versionNo)).Nodup ∧
      KeepsPublished s t := by
  have preserved : ∀ s e t, Numbered s ∧ Linked s → CleanSeeding host s e →
      s.step host e = some t → Numbered t ∧ Linked t := by
    rintro s e t ⟨numbered, linked⟩ clean stepped
    have sound := step_sound numbered clean stepped
    exact ⟨(sound.kept numbered).1, sound.linked numbered linked⟩
  have linked : Linked t := ((before.trans after).invariant preserved
    ⟨numbered_empty, linked_empty⟩).2
  obtain ⟨numbered, keeps⟩ :=
    published_kept (before.mono fun _ _ _ => trivial) (after.mono fun _ _ _ => trivial)
  exact ⟨linked, numbered.numbers, keeps⟩

/-! ### A draft under a seeded key -/

/-- The hash of the files below. -/
def plainHost : Host where
  sha256 := fun _ => "cbcdb96037e00a438b99abe8c38b4dbab06e5cd119aef6827143b4cd34885a2e"
  safeLoad := fun _ => some (obj [("agent_id", str "compiler"), ("scenario", str "skill_compilation"),
    ("route_key", str "text")])
  safeDump := fun _ => ""

def compilerFiles : Files :=
  [("agent.yaml", "agent_id: compiler\nscenario: skill_compilation\nroute_key: text\n"),
    ("system.md", "Compile the skill.\n")]

/-- The repository has the pack of the compiler only. -/
def compilerSeeding : Seeding where
  load := fun ref => if ref = "skill_compilation/formal_v5_compile/v1" then
      some ⟨"compiler", "v1", "skill_compilation", "text", "", compilerFiles⟩
    else none
  definitionId := fun key => "definition of " ++ key
  versionId := fun key => "version of " ++ key
  row := 0

def draftFirst : PromptEvent := .createDefinition "definition-1" "version-1"
  { key := "skill_compilation.formal_v5_compile", agentId := "compiler"
    scenario := "skill_compilation", name := "Compiler", files := compilerFiles }

/-- A draft of the pack's files is bound where the seeding comes after it. -/
theorem seeding_links_draft : ¬ ∀ t, Run (Store.step plainHost) anyStep .empty t → Linked t := by
  intro always
  obtain ⟨t, followed, unlinked⟩ : ∃ t,
      follow (Store.step plainHost) anyStep .empty [draftFirst, .seed compilerSeeding] = some t ∧
      (t.versions.all (·.status == .draft) && !t.bindings.isEmpty) = true :=
    (Option.any_eq_true ..).mp (by decide +kernel)
  obtain ⟨drafts, bound⟩ := Bool.and_eq_true_iff.mp unlinked
  cases held : t.bindings with
  | nil => rw [held] at bound; cases bound
  | cons binding rest =>
    obtain ⟨versionId, -, version, isVersion, -, -, published⟩ :=
      (always t (run_of_follow followed)).bindings binding (held ▸ List.mem_cons_self)
    have isDraft := eq_of_beq (List.all_eq_true.mp drafts version isVersion)
    rw [isDraft] at published
    cases published

/-- The seeding first, then a new version that is published and activated. -/
theorem bindings_published_upgrade : ∃ s t,
    Run (Store.step plainHost) (CleanSeeding plainHost) .empty s ∧
    Run (Store.step plainHost) (CleanSeeding plainHost) s t ∧ t.versions.length = 2 ∧
    Linked t ∧ (t.versions.map fun version => (version.definitionId, version.versionNo)).Nodup ∧
    KeepsPublished s t := by
  have checked : ((follow (Store.step plainHost) (CleanSeeding plainHost) .empty
      [.seed compilerSeeding]).bind fun s =>
        follow (Store.step plainHost) (CleanSeeding plainHost) s
          [.createVersion "definition of skill_compilation.formal_v5_compile" "version-2" none none none,
            .publishVersion "definition of skill_compilation.formal_v5_compile" "version-2",
            .activateVersion "definition of skill_compilation.formal_v5_compile" "version-2" none,
            .seed compilerSeeding]).any (fun t => t.versions.length == 2) = true := by
    decide +kernel
  obtain ⟨s, t, first, second, two⟩ := checked_run checked
  exact ⟨s, t, run_of_follow first, run_of_follow second, beq_iff_eq.mp two,
    bindings_published (run_of_follow first) (run_of_follow second)⟩

end Psop.Agents
