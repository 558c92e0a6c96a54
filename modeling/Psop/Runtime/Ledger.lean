import Mathlib.Data.List.Forall2
import Psop.Runner.Assessment
import Psop.Runtime.Node

/-!
The evidence ledger under the results of one observation.

A validated observation names each requirement at most once, so an entry of the ledger changes by one
result or not at all (`merge_results_settles`). Such a result leaves what the artifact declared,
lengthens the lists of references, and takes an accepted requirement back only to reject it or to find
it not applicable (`Advance`); an entry that lists evidence of its checkpoint still does afterwards
(`Backed`).
-/
namespace Psop.Runtime

open Json Psop.Runner

/-! ### Lists of references -/

/-- Strings after strings that differ: what is new is appended. -/
theorem unique_append {values more : List String} (nodup : values.Nodup) :
    ∃ added, Text.unique (values ++ more) = values ++ added ∧ (values ++ added).Nodup ∧
      added ⊆ more ∧ ∀ value ∈ more, value ∈ values ++ added := by
  have known : ∀ seen rest : List String, (seen ++ rest).Nodup →
      rest.foldl (fun seen value => if value ∈ seen then seen else seen ++ [value]) seen =
        seen ++ rest := by
    intro seen rest
    induction rest generalizing seen with
    | nil => simp
    | cons value rest ih =>
      intro nodup
      have fresh : value ∉ seen := fun isSeen =>
        (List.nodup_append.mp nodup).2.2 value isSeen value List.mem_cons_self rfl
      rw [List.foldl_cons, if_neg fresh, ih _ (by simpa using nodup), List.append_assoc]
      rfl
  have adds : ∀ more seen : List String, seen.Nodup → ∃ added,
      more.foldl (fun seen value => if value ∈ seen then seen else seen ++ [value]) seen =
        seen ++ added ∧ (seen ++ added).Nodup ∧ added ⊆ more ∧
        ∀ value ∈ more, value ∈ seen ++ added := by
    intro more
    induction more with
    | nil => exact fun seen nodup => ⟨[], by simp, by simpa using nodup, nofun, nofun⟩
    | cons value more ih =>
      intro seen nodup
      rw [List.foldl_cons]
      by_cases isSeen : value ∈ seen
      · rw [if_pos isSeen]
        obtain ⟨added, same, nodup', sub, all⟩ := ih seen nodup
        refine ⟨added, same, nodup', fun v isV => List.mem_cons_of_mem _ (sub isV), fun v isV => ?_⟩
        rcases List.mem_cons.mp isV with rfl | later
        · exact List.mem_append_left _ isSeen
        · exact all v later
      · rw [if_neg isSeen]
        have nodup₁ : (seen ++ [value]).Nodup := by
          rw [List.nodup_append]
          refine ⟨nodup, by simp, fun a isA b isB same => isSeen ?_⟩
          obtain rfl := List.mem_singleton.mp isB
          exact same ▸ isA
        obtain ⟨added, same, nodup', sub, all⟩ := ih (seen ++ [value]) nodup₁
        refine ⟨value :: added, by rw [same, List.append_assoc]; rfl, by simpa using nodup',
          fun v isV => ?_, fun v isV => ?_⟩
        · rcases List.mem_cons.mp isV with rfl | later
          · exact List.mem_cons_self
          · exact List.mem_cons_of_mem _ (sub later)
        · rcases List.mem_cons.mp isV with rfl | later
          · simp
          · have found := all v later
            rwa [List.append_assoc] at found
  obtain ⟨added, same, rest⟩ := adds more values nodup
  refine ⟨added, ?_, rest⟩
  rw [Text.unique, List.foldl_append, known [] values nodup]
  exact same

/-- The entry lists these references under the key: no two the same, none blank or untrimmed. -/
structure Lists (key : String) (refs : List String) (entry : Json) : Prop where
  stored : entry.field key = arr (refs.map str)
  nodup : refs.Nodup
  trimmed : ∀ ref ∈ refs, Text.strip ref = ref ∧ ref ≠ ""

theorem string_list_refs (refs : List String) :
    stringList (arr (refs.map str)) = cleanRefs refs := by
  rw [stringList, cleanRefs, items, List.map_map]
  rfl

theorem clean_refs_trimmed {refs : List String} {ref : String} (isRef : ref ∈ cleanRefs refs) :
    Text.strip ref = ref ∧ ref ≠ "" := by
  obtain ⟨isRef, nonempty⟩ := List.mem_filter.mp isRef
  obtain ⟨raw, -, rfl⟩ := List.mem_map.mp isRef
  exact ⟨Text.strip_strip raw, of_decide_eq_true nonempty⟩

theorem clean_refs_of_trimmed {refs : List String}
    (trimmed : ∀ ref ∈ refs, Text.strip ref = ref ∧ ref ≠ "") : cleanRefs refs = refs := by
  induction refs with
  | nil => rfl
  | cons ref rest ih =>
    obtain ⟨same, nonempty⟩ := trimmed ref List.mem_cons_self
    have later := ih fun other isOther => trimmed other (List.mem_cons_of_mem _ isOther)
    rw [cleanRefs, List.map_cons, same, List.filter_cons_of_pos (by simpa using nonempty)]
    exact congrArg (ref :: ·) later

/-! ### One result -/

/-- What every result writes into an entry. -/
def resultFields : List String :=
  ["status", "latest_event_refs", "reason", "satisfied_by", "updated_at", "updated_by_node"]

/-- The lists results add to. -/
def listFields : List String := ["accepted_event_refs", "rejected_event_refs"]

def assessedFields : List String := resultFields ++ listFields

/-- The list a result of this status adds its references to. -/
def collectedUnder : RequirementStatus → Option String
  | .accepted => some "accepted_event_refs"
  | .rejected => some "rejected_event_refs"
  | _ => none

def entryStatus (entry : Json) : Option String := (entry.field "status").str?

/-- A status that leaves an accepted requirement as it is. -/
def passedOver (status : RequirementStatus) : Prop := status = .missing ∨ status = .ambiguous

/-- Fields written one after the other. -/
def setKeys (writes fs : Fields) : Fields := writes.foldl (fun fs w => setKey w.1 w.2 fs) fs

theorem lookup_setKeys_other {key : String} {writes : Fields} (beside : key ∉ writes.map Prod.fst)
    (fs : Fields) : lookup key (setKeys writes fs) = lookup key fs := by
  induction writes generalizing fs with
  | nil => rfl
  | cons w rest ih =>
    simp only [List.map_cons, List.mem_cons, not_or] at beside
    exact (ih beside.2 _).trans (lookup_setKey_other (Ne.symm beside.1) _ _)

/-- What a result of this status writes into an entry. -/
def resultWrites (now nodeId : String) (result : RequirementResult) (entry : Json) : Fields :=
  [("status", str result.status.name),
    ("latest_event_refs", arr ((cleanRefs result.eventRefs).map str)),
    ("reason", str result.reason), ("satisfied_by", str result.satisfiedBy), ("updated_at", str now),
    ("updated_by_node", str nodeId)] ++
  match collectedUnder result.status with
  | some key => [(key, arr ((Text.unique (stringList (entry.field key) ++
      cleanRefs result.eventRefs)).map str))]
  | none => []

theorem str_or_str (s : String) : (str s).strOr = s := by
  by_cases empty : s = ""
  · subst empty
    rfl
  · simp [strOr, truthy, empty, toStr]

instance (status : RequirementStatus) : Decidable (passedOver status) :=
  inferInstanceAs (Decidable (_ ∨ _))

theorem apply_result_writes (now nodeId : String) (result : RequirementResult) (entry : Json) :
    applyResult now nodeId (requirementResultJson result) entry =
      if entryStatus entry = some "accepted" ∧ passedOver result.status then none
      else some (obj (setKeys (resultWrites now nodeId result entry) entry.fields)) := by
  obtain ⟨key, status, refs, satisfied, reason⟩ := result
  have reads : ∀ status : RequirementStatus,
      let json := requirementResultJson ⟨key, status, refs, satisfied, reason⟩
      json.field "status" = str status.name ∧ json.field "event_refs" = arr (refs.map str) ∧
        json.field "satisfied_by" = str satisfied ∧ json.field "reason" = str reason :=
    fun _ => ⟨rfl, rfl, rfl, rfl⟩
  obtain ⟨isStatus, isRefs, isSatisfied, isReason⟩ := reads status
  have name : Text.lower (Text.strip status.name) = status.name := by
    cases status <;> decide
  have listed : status.name ∈ evidenceStatuses := by
    cases status <;> decide
  have passes : (status.name = "missing" ∨ status.name = "ambiguous") ↔ passedOver status := by
    cases status <;> decide
  unfold applyResult
  simp only [isStatus, isRefs, isSatisfied, isReason, str_or_str, name, string_list_refs, passes]
  rw [if_neg (not_not.mpr listed)]
  refine if_congr Iff.rfl rfl ?_
  cases status <;> rfl

theorem lookup_setKeys_written {key : String} {value : Json} {before later : Fields}
    (last : key ∉ later.map Prod.fst) (fs : Fields) :
    lookup key (setKeys (before ++ (key, value) :: later) fs) = some value := by
  rw [setKeys, List.foldl_append, List.foldl_cons]
  exact (lookup_setKeys_other last _).trans (lookup_setKey_same _ _ _)

/-- What a result makes of an entry. -/
structure Assesses (result : RequirementResult) (entry entry' : Json) : Prop where
  isObj : entry'.isObj = true
  status : entryStatus entry' = some result.status.name
  declared : ∀ key, key ∉ assessedFields → entry'.field? key = entry.field? key
  collects : ∀ key, collectedUnder result.status = some key →
    entry'.field key = arr ((Text.unique (stringList (entry.field key) ++
      cleanRefs result.eventRefs)).map str)
  others : ∀ key ∈ listFields, collectedUnder result.status ≠ some key → entry'.field key = entry.field key
  leaves : entryStatus entry = some "accepted" → ¬ passedOver result.status

theorem result_writes_keys (now nodeId : String) (result : RequirementResult) (entry : Json) :
    (resultWrites now nodeId result entry).map Prod.fst =
      resultFields ++ (collectedUnder result.status).toList := by
  unfold resultWrites
  cases collectedUnder result.status <;> rfl

theorem collected_under_assessed {status : RequirementStatus} {key : String}
    (collects : collectedUnder status = some key) :
    key ∈ listFields := by
  cases status <;> cases collects <;> decide

theorem list_field_beside {key : String} (isList : key ∈ listFields) : key ∉ resultFields := by
  revert key
  decide

/-- **One result**: an accepted requirement is passed over by a result that only misses it; any other
result is written. -/
theorem apply_result_spec {now nodeId : String} {result : RequirementResult} {entry entry' : Json}
    (applied : applyResult now nodeId (requirementResultJson result) entry = some entry') :
    Assesses result entry entry' := by
  rw [apply_result_writes] at applied
  split at applied
  · cases applied
  rename_i kept
  obtain rfl := Option.some.inj applied
  have keys := result_writes_keys now nodeId result entry
  refine ⟨rfl, ?_, fun key beside => ?_, fun key collects => ?_, fun key isList differs => ?_,
    fun accepted passed => kept ⟨accepted, passed⟩⟩
  · have later : "status" ∉ (List.drop 1 (resultWrites now nodeId result entry)).map Prod.fst := by
      rw [List.map_drop, keys]
      cases result.status <;> decide
    have written := @lookup_setKeys_written "status" (str result.status.name) [] _ later entry.fields
    rw [entryStatus, field_obj]
    exact congrArg (fun value : Option Json => (value.getD null).str?) written
  · refine lookup_setKeys_other (fun isKey => beside ?_) _
    rw [keys] at isKey
    rcases List.mem_append.mp isKey with first | collected
    · exact List.mem_append_left _ first
    · exact List.mem_append_right _ (collected_under_assessed (Option.mem_toList.mp collected))
  · have written : lookup key (setKeys (resultWrites now nodeId result entry) entry.fields) = some
        (arr ((Text.unique (stringList (entry.field key) ++ cleanRefs result.eventRefs)).map str)) := by
      rw [resultWrites, collects]
      exact lookup_setKeys_written (List.not_mem_nil) _
    rw [field_obj, written, Option.getD_some]
  · have beside : key ∉ (resultWrites now nodeId result entry).map Prod.fst := by
      rw [keys]
      intro isKey
      rcases List.mem_append.mp isKey with first | collected
      · exact list_field_beside isList first
      · exact differs (Option.mem_toList.mp collected)
    rw [field_obj, lookup_setKeys_other beside]
    rfl

/-! ### Entries over time -/

/-- The reference names an event of the evidence by its number. -/
def Names (evidence : List Json) (ref : String) : Prop :=
  ∃ item ∈ evidence, ∃ seqNo, terminalRefSeq ref = some seqNo ∧
    strictInt? (item.field "seq_no") = some seqNo

theorem Names.grow {evidence later : List Json} {ref : String} (names : Names evidence ref)
    (more : evidence ⊆ later) : Names later ref := by
  obtain ⟨item, isItem, named⟩ := names
  exact ⟨item, more isItem, named⟩

/-- What an entry may become while its checkpoint lasts. -/
structure Advance (entry entry' : Json) : Prop where
  declared : ∀ key, key ∉ assessedFields → entry'.field? key = entry.field? key
  grows : ∀ key ∈ listFields, ∀ refs, Lists key refs entry →
    ∃ added, Lists key (refs ++ added) entry'

theorem Advance.refl (entry : Json) : Advance entry entry :=
  ⟨fun _ _ => rfl, fun _ _ refs lists => ⟨[], by rwa [List.append_nil]⟩⟩

theorem Advance.trans {a b c : Json} (first : Advance a b) (second : Advance b c) : Advance a c := by
  refine ⟨fun key beside => (second.declared key beside).trans (first.declared key beside),
    fun key isList refs lists => ?_⟩
  obtain ⟨more, lists⟩ := first.grows key isList refs lists
  obtain ⟨added, lists⟩ := second.grows key isList _ lists
  exact ⟨more ++ added, by rwa [List.append_assoc] at lists⟩

/-- An accepted requirement is taken back only as rejected or as not applicable. -/
def Releases (entry entry' : Json) : Prop :=
  entryStatus entry = some "accepted" → entryStatus entry' = some "accepted" ∨
    entryStatus entry' = some "rejected" ∨ entryStatus entry' = some "not_applicable"

/-- An entry whose accepted references name evidence. -/
structure Backed (evidence : List Json) (entry : Json) : Prop where
  isObj : entry.isObj = true
  accepted : ∃ refs, Lists "accepted_event_refs" refs entry ∧
    (∀ ref ∈ refs, Names evidence ref) ∧ (entryStatus entry = some "accepted" → refs ≠ [])
  rejected : ∃ refs, Lists "rejected_event_refs" refs entry

theorem Backed.grow {evidence later : List Json} {entry : Json} (backed : Backed evidence entry)
    (more : evidence ⊆ later) : Backed later entry := by
  obtain ⟨refs, lists, names, some_⟩ := backed.accepted
  exact ⟨backed.isObj, ⟨refs, lists, fun ref isRef => (names ref isRef).grow more, some_⟩,
    backed.rejected⟩

/-- An accepting result cites evidence, and nothing else. -/
structure Vouched (evidence : List Json) (result : RequirementResult) : Prop where
  cites : result.status = .accepted → cleanRefs result.eventRefs ≠ []
  names : result.status = .accepted → ∀ ref ∈ cleanRefs result.eventRefs, Names evidence ref

/-- A list under a result: the one it collects under grows by its references, the other stays. -/
theorem Assesses.lists {result : RequirementResult} {entry entry' : Json}
    (assesses : Assesses result entry entry') {key : String} (isList : key ∈ listFields)
    {refs : List String} (lists : Lists key refs entry) :
    ∃ added, Lists key (refs ++ added) entry' ∧ added ⊆ cleanRefs result.eventRefs ∧
      (collectedUnder result.status = some key →
        ∀ ref ∈ cleanRefs result.eventRefs, ref ∈ refs ++ added) ∧
      (collectedUnder result.status ≠ some key → added = []) := by
  by_cases collects : collectedUnder result.status = some key
  · obtain ⟨added, same, nodup, sub, all⟩ :=
      @unique_append refs (cleanRefs result.eventRefs) lists.nodup
    have stored := assesses.collects key collects
    rw [lists.stored, string_list_refs, clean_refs_of_trimmed lists.trimmed, same] at stored
    refine ⟨added, ⟨stored, nodup, fun ref isRef => ?_⟩, sub, fun _ => all,
      fun differs => absurd collects differs⟩
    rcases List.mem_append.mp isRef with old | new
    · exact lists.trimmed ref old
    · exact clean_refs_trimmed (sub new)
  · have kept := assesses.others key isList collects
    refine ⟨[], ?_, nofun, fun same => absurd same collects, fun _ => rfl⟩
    rw [List.append_nil]
    exact ⟨kept.trans lists.stored, lists.nodup, lists.trimmed⟩

theorem Assesses.advance {result : RequirementResult} {entry entry' : Json}
    (assesses : Assesses result entry entry') : Advance entry entry' := by
  refine ⟨assesses.declared, fun key isList refs lists => ?_⟩
  obtain ⟨added, lists, -⟩ := assesses.lists isList lists
  exact ⟨added, lists⟩

theorem Assesses.releases {result : RequirementResult} {entry entry' : Json}
    (assesses : Assesses result entry entry') : Releases entry entry' := by
  intro accepted
  have leaves := assesses.leaves accepted
  rw [assesses.status]
  cases status : result.status with
  | accepted => exact .inl rfl
  | rejected => exact .inr (.inl rfl)
  | notApplicable => exact .inr (.inr rfl)
  | missing => exact absurd (.inl status) leaves
  | ambiguous => exact absurd (.inr status) leaves

/-- **An entry stays backed** under a result that cites evidence. -/
theorem Assesses.backed {evidence : List Json} {result : RequirementResult} {entry entry' : Json}
    (assesses : Assesses result entry entry') (backed : Backed evidence entry)
    (vouched : Vouched evidence result) : Backed evidence entry' := by
  obtain ⟨refs, lists, names, some_⟩ := backed.accepted
  obtain ⟨rejected, rejects⟩ := backed.rejected
  obtain ⟨added, listed, sub, all, none_⟩ := assesses.lists (by decide) lists
  obtain ⟨more, rejects, -⟩ := assesses.lists (by decide) rejects
  have collects : result.status = .accepted ↔
      collectedUnder result.status = some "accepted_event_refs" := by
    cases result.status <;> decide
  refine ⟨assesses.isObj, ⟨refs ++ added, listed, fun ref isRef => ?_, fun accepted => ?_⟩,
    _, rejects⟩
  · rcases List.mem_append.mp isRef with old | new
    · exact names ref old
    · by_cases accepted : result.status = .accepted
      · exact vouched.names accepted ref (sub new)
      · rw [none_ fun same => accepted (collects.mpr same)] at new
        cases new
  · have isStatus := Option.some.inj (assesses.status.symm.trans accepted)
    have accepted : result.status = .accepted :=
      RequirementStatus.name_inj (isStatus.trans (rfl : "accepted" = RequirementStatus.accepted.name))
    obtain ⟨ref, isRef⟩ := List.exists_mem_of_ne_nil _ (vouched.cites accepted)
    exact List.ne_nil_of_mem (all (collects.mp accepted) ref isRef)

/-- An accepting result is not passed over. -/
theorem accepted_applies (now nodeId : String) {result : RequirementResult}
    (accepted : result.status = .accepted) (entry : Json) :
    ∃ entry', applyResult now nodeId (requirementResultJson result) entry = some entry' ∧
      entryStatus entry' = some "accepted" := by
  have written := apply_result_writes now nodeId result entry
  rw [if_neg (by simp [accepted, passedOver])] at written
  refine ⟨_, written, ?_⟩
  have status := (apply_result_spec written).status
  rwa [accepted] at status

/-! ### Merging -/

/-- Lists related over a list between them. -/
theorem forall_two_trans {α β γ : Type} {R : α → β → Prop} {S : β → γ → Prop} {T : α → γ → Prop}
    (through : ∀ a b c, R a b → S b c → T a c) {xs : List α} {ys : List β} {zs : List γ}
    (first : List.Forall₂ R xs ys) (second : List.Forall₂ S ys zs) : List.Forall₂ T xs zs := by
  induction first generalizing zs with
  | nil =>
    cases second
    exact .nil
  | cons head _ ih =>
    cases second with
    | cons head' rest => exact .cons (through _ _ _ head head') (ih rest)

theorem update_keyed_spec (key : String) (update : Json → Option Json) (entries : List Json) :
    List.Forall₂ (fun entry entry' =>
      entry' = entry ∨ requirementKey entry = key ∧ update entry = some entry')
      entries (updateKeyed key update entries) := by
  induction entries with
  | nil => exact .nil
  | cons entry rest ih =>
    have same : List.Forall₂ (fun entry entry' : Json =>
        entry' = entry ∨ requirementKey entry = key ∧ update entry = some entry') rest rest :=
      List.forall₂_same.mpr fun _ _ => .inl rfl
    unfold updateKeyed
    split
    · exact .cons (.inl rfl) ih
    · split
      · rename_i isKey
        refine .cons ?_ same
        cases updated : update entry with
        | none => exact .inl rfl
        | some entry' => exact .inr ⟨isKey, rfl⟩
      · exact .cons (.inl rfl) same

/-- Where the keys differ the entry of the key is updated. -/
theorem update_keyed_distinct {key : String} {update : Json → Option Json} {entries : List Json}
    (distinct : (entries.map requirementKey).Nodup) :
    updateKeyed key update entries = entries.map fun entry =>
      if requirementKey entry = key then (update entry).getD entry else entry := by
  induction entries with
  | nil => rfl
  | cons entry rest ih =>
    obtain ⟨fresh, distinct⟩ := List.nodup_cons.mp distinct
    unfold updateKeyed
    rw [List.map_cons]
    split
    · rename_i later
      obtain ⟨other, isOther, same⟩ := List.any_eq_true.mp later
      have differs : requirementKey entry ≠ key := fun isKey => fresh
        (List.mem_map.mpr ⟨other, isOther, (beq_iff_eq.mp same).trans isKey.symm⟩)
      rw [if_neg differs, ih distinct]
    · rename_i last
      have rests : (rest.map fun entry =>
          if requirementKey entry = key then (update entry).getD entry else entry) = rest := by
        refine (List.map_congr_left fun other isOther => ?_).trans (List.map_id rest)
        refine if_neg fun isKey => last (List.any_eq_true.mpr ⟨other, isOther, ?_⟩)
        exact beq_iff_eq.mpr isKey
      rw [rests]
      split <;> rfl

section Merging

variable {now nodeId : String} {results : List RequirementResult}

/-- One of the results is applied, or none. -/
def Settles (now nodeId : String) (results : List RequirementResult) (entry entry' : Json) : Prop :=
  entry' = entry ∨ ∃ result ∈ results, resultKey result = requirementKey entry ∧
    applyResult now nodeId (requirementResultJson result) entry = some entry'

theorem applied_key {result : RequirementResult} {entry entry' : Json}
    (applied : applyResult now nodeId (requirementResultJson result) entry = some entry') :
    requirementKey entry' = requirementKey entry := by
  rw [requirementKey, field, (apply_result_spec applied).declared _ (by decide)]
  rfl

theorem merge_result_eq {result : RequirementResult} (named : resultKey result ≠ "")
    (entries : List Json) : mergeResult now nodeId entries (requirementResultJson result) =
      updateKeyed (resultKey result) (applyResult now nodeId (requirementResultJson result))
        entries := by
  have key : Text.strip ((requirementResultJson result).field "requirement_key").strOr =
      resultKey result := congrArg Text.strip (str_or_str result.requirementKey)
  simp only [mergeResult, key]
  rw [if_neg (by simpa [requirementResultJson, isObj] using named)]

theorem merge_results_settles (named : ∀ result ∈ results, resultKey result ≠ "")
    (distinct : (results.map resultKey).Nodup) (entries : List Json) :
    List.Forall₂ (Settles now nodeId results) entries
      ((results.map requirementResultJson).foldl (mergeResult now nodeId) entries) := by
  induction results generalizing entries with
  | nil => exact List.forall₂_same.mpr fun _ _ => .inl rfl
  | cons result rest ih =>
    obtain ⟨fresh, distinct⟩ := List.nodup_cons.mp distinct
    rw [List.map_cons, List.foldl_cons, merge_result_eq (named result List.mem_cons_self)]
    refine forall_two_trans (fun a b c first later => ?_) (update_keyed_spec ..)
      (ih (fun other isOther => named other (List.mem_cons_of_mem _ isOther)) distinct _)
    rcases first with rfl | ⟨isKey, applied⟩
    · rcases later with rfl | ⟨other, isOther, found⟩
      · exact .inl rfl
      · exact .inr ⟨other, List.mem_cons_of_mem _ isOther, found⟩
    · have kept : requirementKey b = resultKey result := (applied_key applied).trans isKey
      rcases later with rfl | ⟨other, isOther, isKey', -⟩
      · exact .inr ⟨result, List.mem_cons_self, isKey.symm, applied⟩
      · exact absurd (List.mem_map.mpr ⟨other, isOther, isKey'.trans kept⟩) fresh

/-- Where the keys of the ledger differ too, each result reaches its entry. -/
theorem merge_results_reach (named : ∀ result ∈ results, resultKey result ≠ "")
    (distinct : (results.map resultKey).Nodup) {entries : List Json}
    (keys : (entries.map requirementKey).Nodup) :
    List.Forall₂ (fun entry entry' => ∀ result ∈ results, resultKey result = requirementKey entry →
        entry' = (applyResult now nodeId (requirementResultJson result) entry).getD entry)
      entries ((results.map requirementResultJson).foldl (mergeResult now nodeId) entries) := by
  induction results generalizing entries with
  | nil => exact List.forall₂_same.mpr fun _ _ => nofun
  | cons result rest ih =>
    obtain ⟨fresh, distinct⟩ := List.nodup_cons.mp distinct
    have named' : ∀ other ∈ rest, resultKey other ≠ "" := fun other isOther =>
      named other (List.mem_cons_of_mem _ isOther)
    rw [List.map_cons, List.foldl_cons, merge_result_eq (named result List.mem_cons_self),
      update_keyed_distinct keys]
    generalize isNext : (fun entry => if requirementKey entry = resultKey result then
      (applyResult now nodeId (requirementResultJson result) entry).getD entry else entry) = next
    have next_key : ∀ entry, requirementKey (next entry) = requirementKey entry := by
      intro entry
      subst isNext
      simp only
      split
      · cases applied : applyResult now nodeId (requirementResultJson result) entry with
        | none => rfl
        | some entry' => exact applied_key applied
      · rfl
    have keys' : ((entries.map next).map requirementKey).Nodup := by
      rw [List.map_map, show requirementKey ∘ next = requirementKey from funext next_key]
      exact keys
    have settled := @merge_results_settles now nodeId _ named' distinct (entries.map next)
    have reached := ih named' distinct keys'
    rw [List.forall₂_map_left_iff] at settled reached
    refine List.Forall₂.mp (fun entry entry' settles reaches other isOther isKey => ?_) settled reached
    rcases List.mem_cons.mp isOther with rfl | later
    · have applied : next entry =
          (applyResult now nodeId (requirementResultJson other) entry).getD entry := by
        subst isNext
        exact if_pos isKey.symm
      rcases settles with same | ⟨third, isThird, isKey', -⟩
      · rw [same, applied]
      · exact absurd (List.mem_map.mpr ⟨third, isThird, (isKey'.trans (next_key entry)).trans
          isKey.symm⟩) fresh
    · have kept : next entry = entry := by
        subst isNext
        refine if_neg fun same => fresh (List.mem_map.mpr ⟨other, later, isKey.trans same⟩)
      rw [kept] at reaches
      exact reaches other later isKey

end Merging

/-! ### A new ledger -/

theorem numbered_key_trimmed (index : Nat) :
    Text.strip (numberedKey index) = numberedKey index ∧ numberedKey index ≠ "" := by
  have chars : (numberedKey index).toList = 'e' :: ("vidence_".toList ++ (toString index).toList) := by
    rw [numberedKey, String.toList_append]
    rfl
  refine ⟨Text.strip_of_ends (fun c isFirst => ?_) fun c isLast => ?_, fun empty => ?_⟩
  · rw [chars] at isFirst
    obtain rfl : 'e' = c := Option.some.inj isFirst
    decide
  · have nonempty : (toString index).toList ≠ [] := by
      intro none_
      have read := Text.digits_numeral index
      rw [none_] at read
      cases read
    rw [numberedKey, String.toList_append, List.getLast?_append,
      List.getLast?_eq_some_getLast nonempty, Option.some_or] at isLast
    obtain rfl := Option.some.inj isLast
    exact Text.isSpace_of_isDigit (Text.isDigit_of_numeral (List.getLast_mem nonempty))
  · rw [empty] at chars
    cases chars

/-- A requirement as an artifact declares it: under a trimmed key, not assessed yet. -/
structure Declares (requirement : Json) : Prop where
  trimmed : Text.strip (requirementKey requirement) = requirementKey requirement ∧
    requirementKey requirement ≠ ""
  unassessed : ∀ key ∈ assessedFields, requirement.field? key = none

theorem named_key_trimmed (name : String) (index : Nat) :
    let key := if Text.strip name = "" then numberedKey index else Text.strip name
    Text.strip key = key ∧ key ≠ "" := by
  simp only
  split
  · exact numbered_key_trimmed index
  · rename_i named
    exact ⟨Text.strip_strip name, named⟩

/-- The keys of a declared requirement after its own. -/
def declaredFields : List String :=
  ["description", "required", "kind", "event_kind", "evidence_options"]

theorem normalize_spec (index : Nat) (raw : Json) :
    ∃ key rest, normalizeRequirement index raw = obj (("requirement_key", str key) :: rest) ∧
      (Text.strip key = key ∧ key ≠ "") ∧ ∀ f ∈ rest, f.1 ∈ declaredFields := by
  refine ⟨_, _, rfl, named_key_trimmed _ index, fun f isField => ?_⟩
  · rw [List.append_eq, List.mem_append, List.append_eq, List.mem_append] at isField
    rcases isField with (first | kinds) | options
    · simp only [List.mem_cons, List.not_mem_nil, or_false] at first
      rcases first with rfl | rfl
      · exact (show "description" ∈ declaredFields by decide)
      · exact (show "required" ∈ declaredFields by decide)
    · have declared : ∀ key ∈ ["kind", "event_kind"], key ∈ declaredFields := by decide
      obtain ⟨key, isKind, wrote⟩ := List.mem_filterMap.mp kinds
      obtain ⟨-, same⟩ := Option.ite_none_right_eq_some.mp wrote
      obtain rfl := Option.some.inj same
      exact declared key isKind
    · split at options
      · obtain rfl := List.mem_singleton.mp options
        exact (show "evidence_options" ∈ declaredFields by decide)
      · cases options

theorem normalize_declares (index : Nat) (raw : Json) : Declares (normalizeRequirement index raw) := by
  obtain ⟨key, rest, same, trimmed, later⟩ := normalize_spec index raw
  rw [same]
  have isKey : requirementKey (obj (("requirement_key", str key) :: rest)) = key := str_or_str key
  have differ : ∀ key ∈ declaredFields, key ∉ assessedFields := by decide
  refine ⟨isKey.symm ▸ trimmed, fun other isAssessed => lookup_none_of_not_mem fun written => ?_⟩
  obtain ⟨f, isField, rfl⟩ := List.mem_map.mp written
  rcases List.mem_cons.mp isField with rfl | isLater
  · exact absurd isAssessed (show "requirement_key" ∉ assessedFields by decide)
  · exact differ _ (later f isLater) isAssessed

theorem evidence_requirements_declare {artifact requirement : Json} {workflowStepId : String}
    (declared : requirement ∈ evidenceRequirements artifact workflowStepId) :
    Declares requirement := by
  change requirement ∈ normalizeFrom 1 (requirementItems _) at declared
  generalize requirementItems _ = raws at declared
  suffices general : ∀ index, requirement ∈ normalizeFrom index raws → Declares requirement from
    general _ declared
  clear declared
  induction raws with
  | nil => exact nofun
  | cons raw rest ih =>
    intro index declared
    rcases List.mem_cons.mp declared with rfl | later
    · exact normalize_declares index raw
    · exact ih _ later

/-- An entry of a ledger under the requirement it was opened for. -/
structure KeptEntry (evidence : List Json) (requirement entry : Json) : Prop where
  declared : ∀ key, key ∉ assessedFields → entry.field? key = requirement.field? key
  backed : Backed evidence entry

theorem KeptEntry.grow {evidence later : List Json} {requirement entry : Json}
    (kept : KeptEntry evidence requirement entry) (more : evidence ⊆ later) :
    KeptEntry later requirement entry := ⟨kept.declared, kept.backed.grow more⟩

theorem KeptEntry.key {evidence : List Json} {requirement entry : Json}
    (kept : KeptEntry evidence requirement entry) : requirementKey entry = requirementKey requirement := by
  rw [requirementKey, field, kept.declared _ (by decide)]
  rfl

theorem open_requirement_kept (now nodeId : String) {requirement : Json}
    (declares : Declares requirement) :
    KeptEntry [] requirement (openRequirement now nodeId requirement) := by
  have reads : ∀ key, (openRequirement now nodeId requirement).field? key =
      (requirement.field? key).or (lookup key [("status", str "missing"),
        ("accepted_event_refs", arr []), ("rejected_event_refs", arr []),
        ("latest_event_refs", arr []), ("reason", str ""), ("updated_at", str now),
        ("updated_by_node", str nodeId)]) := fun key => lookup_append ..
  have assessed : ∀ key ∈ assessedFields, (openRequirement now nodeId requirement).field? key =
      lookup key [("status", str "missing"), ("accepted_event_refs", arr []),
        ("rejected_event_refs", arr []), ("latest_event_refs", arr []), ("reason", str ""),
        ("updated_at", str now), ("updated_by_node", str nodeId)] := fun key isKey => by
    rw [reads, declares.unassessed key isKey, Option.none_or]
  refine ⟨fun key beside => ?_, rfl, ⟨[], ⟨?_, .nil, nofun⟩, nofun, fun accepted => ?_⟩,
    [], ?_, .nil, nofun⟩
  · rw [reads, lookup_none_of_not_mem, Option.or_none]
    have written : ∀ key ∈ ["status", "accepted_event_refs", "rejected_event_refs",
        "latest_event_refs", "reason", "updated_at", "updated_by_node"], key ∈ assessedFields := by
      decide
    exact fun isKey => beside (written key isKey)
  · rw [field, assessed _ (by decide)]
    rfl
  · rw [entryStatus, field, assessed _ (by decide)] at accepted
    exact absurd (Option.some.inj accepted) (by decide)
  · rw [field, assessed _ (by decide)]
    rfl

/-! ### The ledger of a checkpoint -/

/-- The entries of a ledger, each under the requirement it was opened for. -/
def Ledger (evidence requirements entries : List Json) : Prop :=
  List.Forall₂ (KeptEntry evidence) requirements entries

theorem Ledger.grow {evidence later requirements entries : List Json}
    (ledger : Ledger evidence requirements entries) (more : evidence ⊆ later) :
    Ledger later requirements entries :=
  List.Forall₂.imp (fun _ _ kept => KeptEntry.grow kept more) ledger

theorem ledger_opens (now nodeId : String) (artifact : Json) (workflowStepId : String) :
    Ledger [] (evidenceRequirements artifact workflowStepId)
      ((evidenceRequirements artifact workflowStepId).map (openRequirement now nodeId)) :=
  List.forall₂_map_right_iff.mpr (List.forall₂_same.mpr fun _ declared =>
    open_requirement_kept now nodeId (evidence_requirements_declare declared))

section Merged

variable {now nodeId : String} {results : List RequirementResult}
  {evidence requirements entries : List Json}

theorem Settles.advance {entry entry' : Json} (settles : Settles now nodeId results entry entry') :
    Advance entry entry' := by
  rcases settles with rfl | ⟨result, -, -, applied⟩
  · exact .refl _
  · exact (apply_result_spec applied).advance

theorem Settles.releases {entry entry' : Json} (settles : Settles now nodeId results entry entry') :
    Releases entry entry' := by
  rcases settles with rfl | ⟨result, -, -, applied⟩
  · exact .inl
  · exact (apply_result_spec applied).releases

theorem Settles.kept {requirement entry entry' : Json}
    (settles : Settles now nodeId results entry entry') (kept : KeptEntry evidence requirement entry)
    (vouched : ∀ result ∈ results, Vouched evidence result) : KeptEntry evidence requirement entry' := by
  rcases settles with rfl | ⟨result, isResult, -, applied⟩
  · exact kept
  · have assesses := apply_result_spec applied
    exact ⟨fun key beside => (assesses.declared key beside).trans (kept.declared key beside),
      assesses.backed kept.backed (vouched result isResult)⟩

/-- **Merging keeps a ledger**: of its entries each becomes what it may become, under results that cite
evidence of the checkpoint. -/
theorem Ledger.merged (ledger : Ledger evidence requirements entries)
    (named : ∀ result ∈ results, resultKey result ≠ "") (distinct : (results.map resultKey).Nodup)
    (vouched : ∀ result ∈ results, Vouched evidence result) :
    ∃ entries', (results.map requirementResultJson).foldl (mergeResult now nodeId) entries = entries' ∧
      Ledger evidence requirements entries' ∧ List.Forall₂ Advance entries entries' ∧
      List.Forall₂ Releases entries entries' := by
  have settled := @merge_results_settles now nodeId _ named distinct entries
  have kept := @forall_two_trans _ _ _ (KeptEntry evidence) _ (KeptEntry evidence)
    (fun _ _ _ kept settles => Settles.kept settles kept vouched) _ _ _ ledger settled
  exact ⟨_, rfl, kept, settled.imp fun _ _ => Settles.advance,
    settled.imp fun _ _ => Settles.releases⟩

theorem merge_results_fields {progress : Json}
    (listed : progress.field? "requirements" = some (arr entries)) (resultsJson : List Json) :
    (mergeResults now nodeId resultsJson progress).field? "requirements" =
      some (arr (resultsJson.foldl (mergeResult now nodeId) entries)) ∧
    ∀ key ∉ ["requirements", "updated_at", "updated_by_node"],
      (mergeResults now nodeId resultsJson progress).field? key = progress.field? key := by
  have isList : progress.field "requirements" = arr entries := by
    rw [field, listed]
    rfl
  unfold mergeResults
  rw [isList]
  simp only [field?_obj]
  refine ⟨?_, fun key beside => ?_⟩
  · rw [lookup_setKey_other (by decide), lookup_setKey_other (by decide), lookup_setKey_same]
  · simp only [List.mem_cons, List.not_mem_nil, or_false, not_or] at beside
    rw [lookup_setKey_other (Ne.symm beside.2.2), lookup_setKey_other (Ne.symm beside.2.1),
      lookup_setKey_other (Ne.symm beside.1)]
    rfl

end Merged

end Psop.Runtime
