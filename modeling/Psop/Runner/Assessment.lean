import Psop.Runner.Observation

/-!
What the validation of an evidence evaluation vouches for.

`validate_spec` reads the checks of an accepted observation off its context: every reference names a
visible event up to the cursor, the latest evidence is among the evaluated, and each result answers
to a requirement of the ledger (`Admits`), none twice. A reference is compared as a text by one check
and by its number in another, so it matters that `terminal_event:N` and `terminal_event:N:part` name
the number they were built from (`event_refs_seq`).
-/
namespace Psop.Runner

open Json

/-! ### References and their numbers -/

theorem decimal_numeral (n : Nat) : decimal? (toString n).toList = some (n : Int) := by
  have digits : (toString n).toList.any (fun c => (Text.digit? c).isNone) = false := by
    refine List.any_eq_false.mpr fun c isChar => ?_
    rw [Text.digit_of_isDigit (Text.isDigit_of_numeral isChar)]
    simp
  have nonempty : (toString n).toList.isEmpty = false := by
    cases cs : (toString n).toList with
    | nil =>
      have read := Text.digits_numeral n
      rw [cs] at read
      cases read
    | cons => rfl
  rw [decimal?, nonempty, digits, Text.digits_numeral]
  rfl

/-- Only of a natural number is the numeral a row of digits. -/
theorem decimal_of_int {seqNo m : Int} (read : decimal? (toString seqNo).toList = some m) :
    m = seqNo := by
  cases seqNo with
  | ofNat n => exact (Option.some.inj ((decimal_numeral n).symm.trans read)).symm
  | negSucc n =>
    have sign : (toString (Int.negSucc n)).toList = '-' :: (toString n.succ).toList := by
      rw [show toString (Int.negSucc n) = "-" ++ toString n.succ from rfl, String.toList_append]
      rfl
    rw [sign] at read
    simp [decimal?, Text.digit?] at read

theorem colon_not_in_numeral (seqNo : Int) : ':' ∉ (toString seqNo).toList := by
  have natural : ∀ n : Nat, ':' ∉ (toString n).toList := fun n isChar => by
    have digit := Text.isDigit_of_numeral isChar
    exact absurd digit (by decide)
  cases seqNo with
  | ofNat n => exact natural n
  | negSucc n =>
    rw [show toString (Int.negSucc n) = "-" ++ toString n.succ from rfl, String.toList_append]
    simp only [List.mem_append, not_or]
    exact ⟨by decide, natural _⟩

theorem event_ref_eq (seqNo : Int) : eventRef seqNo = "terminal_event:" ++ toString seqNo := rfl

theorem match_event_ref (n : Nat) : matchTerminalRef (eventRef n) = some (n : Int) := by
  rw [matchTerminalRef, event_ref_eq, Text.startsWith_iff.mpr ⟨_, rfl⟩, Text.dropLead_append,
    Text.split_chars_no_sep _ _ (colon_not_in_numeral _)]
  exact decimal_numeral n

theorem match_whole_ref {seqNo m : Int} (found : matchTerminalRef (eventRef seqNo) = some m) :
    m = seqNo := by
  rw [matchTerminalRef, event_ref_eq, Text.startsWith_iff.mpr ⟨_, rfl⟩, Text.dropLead_append,
    Text.split_chars_no_sep _ _ (colon_not_in_numeral _)] at found
  exact decimal_of_int found

theorem match_part_ref {seqNo m : Int} {part : String}
    (found : matchTerminalRef (eventRef seqNo ++ ":" ++ part) = some m) : m = seqNo := by
  have isText : eventRef seqNo ++ ":" ++ part =
      "terminal_event:" ++ (toString seqNo ++ ":" ++ part) := by
    simp only [event_ref_eq, String.append_assoc]
  have split : Text.splitChars ':' (toString seqNo ++ ":" ++ part).toList =
      (toString seqNo).toList :: Text.splitChars ':' part.toList := by
    rw [String.toList_append, String.toList_append, List.append_assoc]
    exact Text.split_chars_at_sep ':' _ _ (colon_not_in_numeral seqNo)
  rw [isText, matchTerminalRef, Text.startsWith_iff.mpr ⟨_, rfl⟩, Text.dropLead_append, split]
    at found
  simp only [Bool.not_true, Bool.false_eq_true, if_false] at found
  split at found
  · rename_i digits same
    obtain ⟨rfl, -⟩ := List.cons.inj same
    exact decimal_of_int found
  · rename_i digits rest same
    obtain ⟨rfl, -⟩ := List.cons.inj same
    split at found
    · cases found
    · exact decimal_of_int found
  · cases found

/-- What an event answers to: its number, or its number and the trimmed id of a part. -/
theorem mem_event_refs {event : Json} {ref : String} : ref ∈ eventRefs event ↔
    ∃ seqNo, strictInt? (event.field "seq_no") = some seqNo ∧ (ref = eventRef seqNo ∨
      ∃ part ∈ (event.field "parts").items, Text.strip (part.field "part_id").strOr ≠ "" ∧
        ref = eventRef seqNo ++ ":" ++ Text.strip (part.field "part_id").strOr) := by
  unfold eventRefs
  cases strictInt? (event.field "seq_no") with
  | none => simp
  | some seqNo =>
    simp only [List.mem_cons, List.mem_filterMap, Option.ite_none_left_eq_some, Option.some.injEq]
    constructor
    · rintro (rfl | ⟨part, isPart, named, rfl⟩)
      · exact ⟨seqNo, rfl, .inl rfl⟩
      · exact ⟨seqNo, rfl, .inr ⟨part, isPart, named, rfl⟩⟩
    · rintro ⟨_, rfl, rfl | ⟨part, isPart, named, rfl⟩⟩
      · exact .inl rfl
      · exact .inr ⟨part, isPart, named, rfl⟩

theorem strip_event_ref (seqNo : Int) {suffix : List Char}
    (last : ∀ c ∈ suffix.getLast?, Text.isSpace c = false) :
    Text.strip (eventRef seqNo ++ String.ofList suffix) = eventRef seqNo ++ String.ofList suffix := by
  have digit : ∀ c ∈ (toString seqNo).toList.getLast?, Text.isSpace c = false := by
    have natural : ∀ n : Nat, ∀ c ∈ (toString n).toList.getLast?, Text.isSpace c = false :=
      fun n c isLast =>
        Text.isSpace_of_isDigit (Text.isDigit_of_numeral (List.mem_of_getLast? isLast))
    cases seqNo with
    | ofNat n => exact natural n
    | negSucc n =>
      intro c isLast
      rw [show toString (Int.negSucc n) = "-" ++ toString n.succ from rfl, String.toList_append,
        List.getLast?_append] at isLast
      cases below : (toString n.succ).toList.getLast? with
      | none =>
        rw [below] at isLast
        obtain rfl : '-' = c := Option.some.inj isLast
        decide
      | some d =>
        rw [below] at isLast
        obtain rfl : d = c := Option.some.inj isLast
        exact natural n.succ d below
  refine Text.strip_of_ends (fun c isFirst => ?_) fun c isLast => ?_
  · have lead : "terminal_event:".toList = 't' :: "erminal_event:".toList := by decide
    rw [event_ref_eq, String.append_assoc, String.toList_append, lead] at isFirst
    obtain rfl : 't' = c := Option.some.inj isFirst
    decide
  · rw [String.toList_append, String.toList_ofList, List.getLast?_append] at isLast
    cases tail : suffix.getLast? with
    | some d =>
      rw [tail] at isLast
      obtain rfl : d = c := Option.some.inj isLast
      exact last d tail
    | none =>
      rw [tail, event_ref_eq, String.toList_append, List.getLast?_append] at isLast
      cases number : (toString seqNo).toList.getLast? with
      | some d =>
        rw [number] at isLast
        obtain rfl : d = c := Option.some.inj isLast
        exact digit d number
      | none =>
        rw [number] at isLast
        obtain rfl : ':' = c := Option.some.inj isLast
        decide

theorem strip_ref {event : Json} {ref : String} (answers : ref ∈ eventRefs event) :
    Text.strip ref = ref := by
  obtain ⟨seqNo, -, rfl | ⟨part, -, named, rfl⟩⟩ := mem_event_refs.mp answers
  · have whole := @strip_event_ref seqNo [] nofun
    simpa using whole
  · have ends := (Text.strip_ends (part.field "part_id").strOr).2
    have isText : eventRef seqNo ++ ":" ++ Text.strip (part.field "part_id").strOr = eventRef seqNo ++
        String.ofList (':' :: (Text.strip (part.field "part_id").strOr).toList) := by
      rw [String.append_assoc]
      refine congrArg (eventRef seqNo ++ ·) (String.toList_inj.mp ?_)
      rw [String.toList_append, String.toList_ofList, String.toList_ofList, List.singleton_append]
    rw [isText]
    refine strip_event_ref seqNo fun c isLast => ends c ?_
    cases chars : (Text.strip (part.field "part_id").strOr).toList with
    | nil => exact absurd (String.toList_inj.mp chars) named
    | cons d ds =>
      rw [chars, List.getLast?_cons_cons] at isLast
      exact isLast

/-- **A reference names the number of the event that answers to it.** -/
theorem event_refs_seq {event : Json} {ref : String} {m : Int} (answers : ref ∈ eventRefs event)
    (names : terminalRefSeq ref = some m) : strictInt? (event.field "seq_no") = some m := by
  rw [terminalRefSeq, strip_ref answers] at names
  obtain ⟨seqNo, number, rfl | ⟨part, -, -, rfl⟩⟩ := mem_event_refs.mp answers
  · rw [number, match_whole_ref names]
  · rw [number, match_part_ref names]

/-- An event answers to its own number. -/
theorem event_ref_own {event : Json} {n : Nat}
    (number : strictInt? (event.field "seq_no") = some (n : Int)) :
    eventRef n ∈ eventRefs event ∧ terminalRefSeq (eventRef n) = some (n : Int) := by
  have answers : eventRef n ∈ eventRefs event := mem_event_refs.mpr ⟨n, number, .inl rfl⟩
  refine ⟨answers, ?_⟩
  rw [terminalRefSeq, strip_ref answers]
  exact match_event_ref n

/-! ### The single checks -/

theorem require_ok {ok : Bool} {message : String} (passed : require ok message = .ok ()) :
    ok = true := by
  unfold require at passed
  split at passed
  · assumption
  · cases passed

/-- A check over a list passes where it passes for each member. -/
theorem forM_ok {α : Type} {check : α → Check} {items : List α} (passed : items.forM check = .ok ()) :
    ∀ item ∈ items, check item = .ok () := by
  induction items with
  | nil => exact nofun
  | cons item rest ih =>
    change (check item >>= fun _ => rest.forM check) = .ok () at passed
    intro other isItem
    cases first : check item with
    | error message =>
      rw [first] at passed
      cases passed
    | ok =>
      rw [first] at passed
      rcases List.mem_cons.mp isItem with rfl | later
      · exact first
      · exact ih passed other later

theorem bind_ok {α β : Type} {x : Except String α} {f : α → Except String β} {b : β}
    (passed : (x >>= f) = .ok b) : ∃ a, x = .ok a ∧ f a = .ok b := by
  cases x with
  | error => cases passed
  | ok a => exact ⟨a, rfl, passed⟩

variable {context : RunnerContext}

/-- Of the events a reference may name, one answers to it, and it is not beyond the cursor. -/
def Visible (context : RunnerContext) (ref : String) : Prop :=
  ∃ event ∈ context.refEvents, ref ∈ eventRefs event ∧
    ∃ seqNo, strictInt? (event.field "seq_no") = some seqNo ∧ seqNo ≤ context.cursor

theorem validate_event_ref_spec {ref : String}
    (passed : validateTerminalEventRef context ref = .ok ()) : Visible context ref := by
  unfold validateTerminalEventRef at passed
  split at passed
  · cases passed
  · rename_i seqNo found
    have below := of_decide_eq_true (require_ok passed)
    obtain ⟨event, isFirst, number⟩ := Option.bind_eq_some_iff.mp found
    have answers := List.find?_some isFirst
    exact ⟨event, List.mem_of_find?_eq_some isFirst, of_decide_eq_true answers, seqNo, number, below⟩

theorem validate_event_refs_spec {refs : List String}
    (passed : validateEvidenceEventRefs context refs = .ok ()) :
    ∀ raw ∈ refs, (terminalRefSeq (Text.strip raw)).isSome = true ∧
      Visible context (Text.strip raw) := by
  intro raw isRef
  obtain ⟨_, matched, visible⟩ := bind_ok (forM_ok passed raw isRef)
  exact ⟨require_ok matched, validate_event_ref_spec visible⟩

theorem validate_freshness_spec {assessment : EvidenceAssessment}
    (passed : validateLatestEvidenceFreshness context assessment = .ok ()) {latest : Int}
    (number : strictInt? (context.latestEvidence.field "seq_no") = some latest) :
    ∃ ref ∈ cleanRefs assessment.evaluatedEventRefs, terminalRefSeq ref = some latest := by
  unfold validateLatestEvidenceFreshness at passed
  rw [number] at passed
  obtain ⟨_, evaluated, -⟩ := bind_ok passed
  obtain ⟨ref, isRef, names⟩ := List.any_eq_true.mp (require_ok evaluated)
  exact ⟨ref, isRef, beq_iff_eq.mp names⟩

/-! ### What a result shows -/

def resultKey (result : RequirementResult) : String := Text.strip result.requirementKey

/-- An event shows a kind: one of its parts is of it, or it is text and the event has some. An option
without a kind asks for nothing. -/
def ShowsKind (event : Json) (kind : String) : Prop :=
  kind = "" ∨ (∃ part ∈ (event.field "parts").items, part.isObj = true ∧
    normalizedText (part.field "kind") = kind) ∨
  kind = "text" ∧ ((event.field "text").or (event.field "payload_inline")).truthy = true

/-- The reference names a visible event of the option's event kind that shows the option's kind. -/
def MatchesOption (context : RunnerContext) (ref : String) (option : Json) : Prop :=
  ∃ seqNo event, terminalRefSeq ref = some seqNo ∧ context.visibleEvent? seqNo = some event ∧
    (Text.strip (option.field "event_kind").strOr = "" ∨
      (event.field "event_kind").strOr = Text.strip (option.field "event_kind").strOr ∨
      (event.field "event_kind").strOr = "terminal.multimodal.input.v1" ∧
        Text.strip (option.field "event_kind").strOr =
          "terminal." ++ normalizedText (option.field "kind") ++ ".input.v1") ∧
    ShowsKind event (normalizedText (option.field "kind"))

theorem ref_matches_option_spec {ref : String} {option : Json}
    (found : refMatchesOption context ref option = true) : MatchesOption context ref option := by
  unfold refMatchesOption at found
  split at found
  · cases found
  rename_i seqNo names
  simp only at found
  split at found
  · cases found
  split at found
  · cases found
  split at found
  · cases found
  rename_i event visible
  split at found
  · cases found
  rename_i eventKind
  refine ⟨seqNo, event, names, visible, ?_, ?_⟩
  · simp only [Bool.and_eq_true, Bool.not_eq_true', bne_iff_ne, ne_eq, not_and,
      Bool.not_eq_false, beq_iff_eq] at eventKind
    by_cases blank : Text.strip (option.field "event_kind").strOr = ""
    · exact .inl blank
    by_cases same : (event.field "event_kind").strOr = Text.strip (option.field "event_kind").strOr
    · exact .inr (.inl same)
    · exact .inr (.inr (eventKind ⟨blank, same⟩))
  · split at found
    · rename_i blank
      exact .inl (beq_iff_eq.mp blank)
    have shows : ∀ {part : Json}, part ∈ ((event.field "parts").items.filter Json.isObj) →
        normalizedText (part.field "kind") = normalizedText (option.field "kind") →
        ShowsKind event (normalizedText (option.field "kind")) := fun isPart kind =>
      .inr (.inl ⟨_, List.mem_of_mem_filter isPart, List.of_mem_filter isPart, kind⟩)
    split at found
    · obtain ⟨part, isPart, same⟩ := List.any_eq_true.mp found
      exact shows isPart (beq_iff_eq.mp (Bool.and_eq_true_iff.mp same).2)
    · rcases Bool.or_eq_true_iff.mp found with ofPart | text
      · obtain ⟨part, isPart, same⟩ := List.any_eq_true.mp ofPart
        exact shows isPart (beq_iff_eq.mp same)
      · obtain ⟨isText, content⟩ := Bool.and_eq_true_iff.mp text
        exact .inr (.inr ⟨beq_iff_eq.mp isText, content⟩)

/-- The options a requirement declares. -/
def declaredOptions (requirement : Json) : List Json :=
  (requirement.field "evidence_options").items.filter Json.isObj

/-- What an accepted result for a requirement vouches for. -/
structure Admits (context : RunnerContext) (requirement : Json) (result : RequirementResult) :
    Prop where
  cites : result.status = .accepted → cleanRefs result.eventRefs ≠ []
  required : result.status = .notApplicable → isRequired requirement = false
  shows : context.isV2 = true → result.status = .accepted →
    ∃ option ∈ declaredOptions requirement, ∃ ref ∈ cleanRefs result.eventRefs,
      MatchesOption context ref option
  inside : context.checkpointEventRefs ≠ [] → ∀ ref ∈ cleanRefs result.eventRefs,
    ∃ seqNo, terminalRefSeq ref = some seqNo ∧
      ∃ candidate ∈ context.checkpointEventRefs, terminalRefSeq candidate = some seqNo

/-- A table of items by key holds items only. -/
theorem lookup_table {key : String} {value : Json} {keyOf : Json → String} {items : List Json}
    (found : lookup key (items.foldl (fun table item =>
      if item.isObj && keyOf item != "" then setKey (keyOf item) item table else table) []) =
        some value) :
    value ∈ items ∧ value.isObj = true ∧ keyOf value = key ∧ key ≠ "" := by
  suffices general : ∀ table : Fields, lookup key (items.foldl (fun table item =>
      if item.isObj && keyOf item != "" then setKey (keyOf item) item table else table) table) =
        some value →
      lookup key table = some value ∨ value ∈ items ∧ value.isObj = true ∧ keyOf value = key ∧
        key ≠ "" from (general [] found).resolve_left nofun
  clear found
  induction items with
  | nil => exact fun _ found => .inl found
  | cons item items ih =>
    intro table found
    rw [List.foldl_cons] at found
    rcases ih _ found with before | ⟨isItem, rest⟩
    · split at before
      · rename_i kept
        simp only [Bool.and_eq_true, bne_iff_ne, ne_eq] at kept
        by_cases same : keyOf item = key
        · rw [same, lookup_setKey_same] at before
          obtain rfl := Option.some.inj before
          exact .inr ⟨List.mem_cons_self, kept.1, same, same ▸ kept.2⟩
        · rw [lookup_setKey_other same] at before
          exact .inl before
      · exact .inl before
    · exact .inr ⟨List.mem_cons_of_mem _ isItem, rest⟩

theorem validate_satisfied_by_spec {requirement : Json} {result : RequirementResult}
    (passed : validateSatisfiedBy context requirement result = .ok ()) (v2 : context.isV2 = true)
    (accepted : result.status = .accepted) :
    ∃ option ∈ declaredOptions requirement, ∃ ref ∈ cleanRefs result.eventRefs,
      MatchesOption context ref option := by
  unfold validateSatisfiedBy at passed
  rw [if_neg (by simp [v2])] at passed
  simp only at passed
  rw [if_neg (by simp [accepted])] at passed
  split at passed
  · cases passed
  · rename_i option found
    obtain ⟨isOption, isObj, -⟩ :=
      @lookup_table _ _ (fun option => Text.strip (option.field "option_key").strOr) _ found
    obtain ⟨ref, isRef, fits⟩ := List.any_eq_true.mp (require_ok passed)
    exact ⟨option, List.mem_filter.mpr ⟨isOption, isObj⟩, ref, isRef, ref_matches_option_spec fits⟩

theorem validate_checkpoint_refs_spec {refs : List String}
    (passed : validateCheckpointEventRefs context refs = .ok ())
    (some_ : context.checkpointEventRefs ≠ []) :
    ∀ ref ∈ refs, ∃ seqNo, terminalRefSeq ref = some seqNo ∧
      ∃ candidate ∈ context.checkpointEventRefs, terminalRefSeq candidate = some seqNo := by
  unfold validateCheckpointEventRefs at passed
  simp only at passed
  rw [if_neg (by simpa using some_)] at passed
  intro ref isRef
  have inside := require_ok (forM_ok passed ref isRef)
  split at inside
  · cases inside
  · rename_i seqNo names
    obtain ⟨candidate, isCandidate, same⟩ := List.any_eq_true.mp inside
    exact ⟨seqNo, names, candidate, isCandidate, beq_iff_eq.mp same⟩

/-! ### The ledger's gate -/

theorem validate_result_spec {statuses statuses' : List (String × RequirementStatus)}
    {result : RequirementResult} (passed : validateResult context statuses result = .ok statuses') :
    statuses' = statuses ++ [(resultKey result, result.status)] ∧
    resultKey result ∉ statuses.map Prod.fst ∧
    ∃ requirement, lookup (resultKey result) context.requirements = some requirement ∧
      Admits context requirement result := by
  unfold validateResult at passed
  simp only at passed
  split at passed
  · cases passed
  rename_i requirement found
  obtain ⟨_, fresh, passed⟩ := bind_ok passed
  obtain ⟨_, cites, passed⟩ := bind_ok passed
  obtain ⟨_, required, passed⟩ := bind_ok passed
  obtain ⟨_, -, passed⟩ := bind_ok passed
  obtain ⟨_, satisfied, passed⟩ := bind_ok passed
  obtain ⟨_, inside, passed⟩ := bind_ok passed
  refine ⟨(Except.ok.inj passed).symm, fun known => ?_, requirement, found,
    fun accepted empty => ?_, fun notApplicable => ?_, validate_satisfied_by_spec satisfied,
    validate_checkpoint_refs_spec inside⟩
  · obtain ⟨entry, isEntry, same⟩ := List.mem_map.mp known
    have differs := List.all_eq_true.mp (require_ok fresh) entry isEntry
    exact absurd same (bne_iff_ne.mp differs)
  · have cited := require_ok cites
    simp [accepted, empty] at cited
  · have optional := require_ok required
    simpa [notApplicable] using optional

theorem validate_results_spec {results : List RequirementResult}
    {statuses statuses' : List (String × RequirementStatus)} (nodup : (statuses.map Prod.fst).Nodup)
    (passed : results.foldlM (validateResult context) statuses = .ok statuses') :
    statuses' = statuses ++ results.map (fun result => (resultKey result, result.status)) ∧
    (statuses'.map Prod.fst).Nodup ∧
    ∀ result ∈ results, ∃ requirement,
      lookup (resultKey result) context.requirements = some requirement ∧
      Admits context requirement result := by
  induction results generalizing statuses with
  | nil =>
    obtain rfl := Except.ok.inj passed
    exact ⟨by simp, nodup, nofun⟩
  | cons result rest ih =>
    rw [List.foldlM_cons] at passed
    obtain ⟨next, first, passed⟩ := bind_ok passed
    obtain ⟨rfl, fresh, requirement, found, admits⟩ := validate_result_spec first
    have nodupNext : ((statuses ++ [(resultKey result, result.status)]).map Prod.fst).Nodup := by
      rw [List.map_append, List.nodup_append]
      refine ⟨nodup, by simp, fun key isKey other isOther same => fresh ?_⟩
      obtain rfl : other = resultKey result := by simpa using isOther
      exact same ▸ isKey
    obtain ⟨isStatuses, nodup', rest⟩ := ih nodupNext passed
    refine ⟨by rw [isStatuses]; simp, nodup', fun other isResult => ?_⟩
    rcases List.mem_cons.mp isResult with rfl | later
    · exact ⟨requirement, found, admits⟩
    · exact rest other later

/-- What an accepted ledger vouches for. -/
structure Assessed (context : RunnerContext) (decision : RunnerDecision)
    (results : List RequirementResult) : Prop where
  known : ∀ result ∈ results, ∃ requirement,
    lookup (resultKey result) context.requirements = some requirement ∧
    Admits context requirement result
  distinct : (results.map resultKey).Nodup
  complete : context.isV2 = true → ∀ key requirement,
    lookup key context.requirements = some requirement → key ∈ results.map resultKey
  resolved : context.isV2 = true → decision = .continue_ → ∀ key requirement,
    lookup key context.requirements = some requirement → isRequired requirement = true →
    ∃ result ∈ results, resultKey result = key ∧ result.status = .accepted

theorem mem_of_lookup {key : String} {value : Json} {table : Fields}
    (found : lookup key table = some value) : key ∈ table.map Prod.fst :=
  List.mem_map.mpr ⟨(key, value), lookup_mem found, rfl⟩

theorem find_status {results : List RequirementResult} {key : String}
    (isKey : key ∈ results.map resultKey) :
    ∃ result ∈ results, resultKey result = key ∧
      ((results.map fun result => (resultKey result, result.status)).find? fun entry =>
        entry.1 == key) = some (key, result.status) := by
  obtain ⟨entry, found⟩ : ∃ entry, ((results.map fun result => (resultKey result, result.status)).find?
      fun entry => entry.1 == key) = some entry := by
    obtain ⟨result, isResult, same⟩ := List.mem_map.mp isKey
    refine Option.isSome_iff_exists.mp (List.find?_isSome.mpr
      ⟨(resultKey result, result.status), List.mem_map.mpr ⟨result, isResult, rfl⟩, ?_⟩)
    exact beq_iff_eq.mpr same
  obtain ⟨result, isResult, rfl⟩ := List.mem_map.mp (List.mem_of_find?_eq_some found)
  have same := List.find?_some found
  obtain rfl : resultKey result = key := beq_iff_eq.mp same
  exact ⟨result, isResult, rfl, found⟩

theorem validate_requirement_results_spec {decision : RunnerDecision} {assessment : EvidenceAssessment}
    (passed : validateRequirementResults context decision assessment = .ok ()) :
    Assessed context decision assessment.requirementResults := by
  unfold validateRequirementResults at passed
  split at passed
  · rename_i none_
    have empty : context.requirements = [] := by simpa using require_ok passed
    have nothing : ∀ key requirement, lookup key context.requirements ≠ some requirement := by
      intro key requirement found
      rw [empty] at found
      cases found
    rw [none_]
    exact ⟨nofun, .nil, fun _ key requirement found => absurd found (nothing key requirement),
      fun _ _ key requirement found => absurd found (nothing key requirement)⟩
  · obtain ⟨_, -, passed⟩ := bind_ok passed
    obtain ⟨statuses, ran, passed⟩ := bind_ok passed
    obtain ⟨_, covered, passed⟩ := bind_ok passed
    have unresolved_ := require_ok passed
    have none_ : (([] : List (String × RequirementStatus)).map Prod.fst).Nodup := List.nodup_nil
    obtain ⟨isStatuses, nodup, known⟩ := validate_results_spec none_ ran
    rw [List.nil_append] at isStatuses
    subst isStatuses
    have keys : (assessment.requirementResults.map fun result =>
        (resultKey result, result.status)).map Prod.fst =
          assessment.requirementResults.map resultKey := by
      rw [List.map_map]
      rfl
    rw [keys] at nodup
    have complete : context.isV2 = true → ∀ key requirement,
        lookup key context.requirements = some requirement →
        key ∈ assessment.requirementResults.map resultKey := by
      intro v2 key requirement found
      have none_ := require_ok covered
      simp only [v2, Bool.not_true, Bool.false_or, List.isEmpty_iff, List.filter_eq_nil_iff] at none_
      have reported := none_ key (mem_of_lookup found)
      rw [← keys]
      by_contra absent
      refine reported (List.all_eq_true.mpr fun entry isEntry => bne_iff_ne.mpr fun same => ?_)
      exact absent (List.mem_map.mpr ⟨entry, isEntry, same⟩)
    refine ⟨known, nodup, complete, fun v2 continues key requirement found required => ?_⟩
    obtain ⟨result, isResult, isKey, status⟩ := find_status (complete v2 key requirement found)
    refine ⟨result, isResult, isKey, ?_⟩
    simp only [continues, bne_self_eq_false, Bool.false_or, List.isEmpty_iff, unresolved,
      List.map_eq_nil_iff, List.filter_eq_nil_iff] at unresolved_
    have accepted := unresolved_ (key, requirement) (lookup_mem found)
    simp only [required, Bool.true_and, bne_iff_ne, ne_eq, not_not, effectiveStatus, status]
      at accepted
    exact RequirementStatus.name_inj accepted

/-- What an accepted observation of an evaluation vouches for. -/
structure Evaluated (context : RunnerContext) (observation : RunnerObservation) : Prop where
  visible : ∀ raw ∈ evidenceEventRefs observation.evidenceAssessment,
    (terminalRefSeq (Text.strip raw)).isSome = true ∧ Visible context (Text.strip raw)
  fresh : ∀ latest, strictInt? (context.latestEvidence.field "seq_no") = some latest →
    ∃ ref ∈ cleanRefs observation.evidenceAssessment.evaluatedEventRefs,
      terminalRefSeq ref = some latest
  assessed : Assessed context observation.decision observation.evidenceAssessment.requirementResults

theorem normalize_results (context : RunnerContext) (assessment : EvidenceAssessment) :
    (normalizeEvidenceAssessment context assessment).requirementResults =
      assessment.requirementResults := by
  unfold normalizeEvidenceAssessment
  split <;> rfl

/-- **Validation.** An observation accepted in an evaluation passed every check of the evidence, and
its results and decision are the candidate's. -/
theorem validate_spec {observation validated : RunnerObservation}
    (accepted : validateRunnerObservation context observation = .ok validated)
    (evaluates : context.evidenceEvaluation = true) :
    Evaluated context observation ∧ validated.decision = observation.decision ∧
      validated.evidenceAssessment.requirementResults =
        observation.evidenceAssessment.requirementResults := by
  unfold validateRunnerObservation at accepted
  obtain ⟨expected, -, accepted⟩ := bind_ok accepted
  obtain ⟨_, -, accepted⟩ := bind_ok accepted
  obtain ⟨_, -, accepted⟩ := bind_ok accepted
  obtain ⟨_, -, accepted⟩ := bind_ok accepted
  obtain ⟨_, -, accepted⟩ := bind_ok accepted
  rw [if_pos evaluates] at accepted
  obtain ⟨_, visible, accepted⟩ := bind_ok accepted
  obtain ⟨_, fresh, accepted⟩ := bind_ok accepted
  obtain ⟨_, assessed, accepted⟩ := bind_ok accepted
  obtain rfl := Except.ok.inj accepted
  exact ⟨⟨validate_event_refs_spec visible, fun _ number => validate_freshness_spec fresh number,
    validate_requirement_results_spec assessed⟩, rfl, normalize_results ..⟩

/-! ### A ledger with keys of its own -/

/-- The entries of the ledger a context shows. -/
def RunnerContext.entries (context : RunnerContext) : List Json :=
  (context.evidenceProgress.field "requirements").items

def entryKey (entry : Json) : String := Text.strip (entry.field "requirement_key").strOr

theorem entry_is_obj {entry : Json} (named : entryKey entry ≠ "") : entry.isObj = true := by
  cases entry with
  | obj => rfl
  | _ => exact absurd rfl named

/-- A table by keys that differ holds every named item. -/
theorem table_has {keyOf : Json → String} {items : List Json} (distinct : (items.map keyOf).Nodup)
    {item : Json} (isItem : item ∈ items) (isObj : item.isObj = true) (named : keyOf item ≠ "") :
    lookup (keyOf item) (items.foldl (fun table item =>
      if item.isObj && keyOf item != "" then setKey (keyOf item) item table else table) []) =
        some item := by
  have others : ∀ (items : List Json) (key : String) (table : Fields), key ∉ items.map keyOf →
      lookup key (items.foldl (fun table item =>
        if item.isObj && keyOf item != "" then setKey (keyOf item) item table else table) table) =
          lookup key table := by
    intro items
    induction items with
    | nil => exact fun _ _ _ => rfl
    | cons item rest ih =>
      intro key table beside
      rw [List.map_cons, List.mem_cons, not_or] at beside
      rw [List.foldl_cons, ih key _ beside.2]
      split
      · exact lookup_setKey_other (Ne.symm beside.1) _ _
      · rfl
  generalize ([] : Fields) = table
  induction items generalizing table with
  | nil => cases isItem
  | cons first rest ih =>
    obtain ⟨fresh, distinct⟩ := List.nodup_cons.mp distinct
    rw [List.foldl_cons]
    rcases List.mem_cons.mp isItem with rfl | later
    · rw [others rest _ _ fresh, if_pos (by simp [isObj, named])]
      exact lookup_setKey_same _ _ _
    · exact ih distinct later _

theorem requirements_have {context : RunnerContext} (distinct : (context.entries.map entryKey).Nodup)
    {entry : Json} (isEntry : entry ∈ context.entries) (named : entryKey entry ≠ "") :
    lookup (entryKey entry) context.requirements = some entry :=
  table_has distinct isEntry (entry_is_obj named) named

theorem requirements_hold {context : RunnerContext} {key : String} {requirement : Json}
    (found : lookup key context.requirements = some requirement) :
    requirement ∈ context.entries ∧ entryKey requirement = key ∧ key ≠ "" := by
  obtain ⟨isEntry, -, isKey, named⟩ := @lookup_table _ _ entryKey _ found
  exact ⟨isEntry, isKey, named⟩

theorem mem_clean_refs {refs : List String} {ref : String} (isRef : ref ∈ cleanRefs refs) :
    ∃ raw ∈ refs, Text.strip raw = ref ∧ ref ≠ "" := by
  obtain ⟨isStripped, nonempty⟩ := List.mem_filter.mp isRef
  obtain ⟨raw, isRaw, same⟩ := List.mem_map.mp isStripped
  exact ⟨raw, isRaw, same, of_decide_eq_true nonempty⟩

/-- What an accepted observation says of the ledger it was asked about. -/
structure LedgerAssessed (context : RunnerContext) (decision : RunnerDecision)
    (assessment : EvidenceAssessment) : Prop where
  once : ∀ entry ∈ context.entries, entryKey entry ≠ "" →
    (assessment.requirementResults.map resultKey).count (entryKey entry) = 1
  cites : ∀ result ∈ assessment.requirementResults, result.status = .accepted →
    cleanRefs result.eventRefs ≠ []
  visible : ∀ result ∈ assessment.requirementResults, ∀ ref ∈ cleanRefs result.eventRefs,
    Visible context ref
  inside : context.checkpointEventRefs ≠ [] → ∀ result ∈ assessment.requirementResults,
    ∀ ref ∈ cleanRefs result.eventRefs, ∃ seqNo, terminalRefSeq ref = some seqNo ∧
      ∃ candidate ∈ context.checkpointEventRefs, terminalRefSeq candidate = some seqNo
  shows : ∀ result ∈ assessment.requirementResults, result.status = .accepted →
    ∃ entry ∈ context.entries, entryKey entry = resultKey result ∧
      ∃ option ∈ declaredOptions entry, ∃ ref ∈ cleanRefs result.eventRefs,
        MatchesOption context ref option
  required : ∀ result ∈ assessment.requirementResults, result.status = .notApplicable →
    ∀ entry ∈ context.entries, entryKey entry = resultKey result → isRequired entry = false
  fresh : ∀ latest, strictInt? (context.latestEvidence.field "seq_no") = some latest →
    ∃ ref ∈ cleanRefs assessment.evaluatedEventRefs, terminalRefSeq ref = some latest
  resolved : decision = .continue_ → ∀ entry ∈ context.entries, entryKey entry ≠ "" →
    isRequired entry = true → ∃ result ∈ assessment.requirementResults,
      resultKey result = entryKey entry ∧ result.status = .accepted

/-- **A validated evaluation is sound**, where the requirements of its ledger have keys of their own. -/
theorem validate_sound {observation validated : RunnerObservation}
    (accepted : validateRunnerObservation context observation = .ok validated)
    (evaluates : context.evidenceEvaluation = true) (v2 : context.isV2 = true)
    (distinct : (context.entries.map entryKey).Nodup) :
    LedgerAssessed context observation.decision observation.evidenceAssessment := by
  obtain ⟨⟨visible, fresh, assessed⟩, -, -⟩ := validate_spec accepted evaluates
  refine ⟨fun entry isEntry named => ?_, fun result isResult => ?_, fun result isResult ref isRef => ?_,
    fun some_ result isResult => ?_, fun result isResult isAccepted => ?_,
    fun result isResult notApplicable entry isEntry isKey => ?_, fresh,
    fun continues entry isEntry named required => ?_⟩
  · have isKey := assessed.complete v2 _ _ (requirements_have distinct isEntry named)
    rw [assessed.distinct.count, if_pos isKey]
  · obtain ⟨_, -, admits⟩ := assessed.known result isResult
    exact admits.cites
  · obtain ⟨raw, isRaw, rfl, nonempty⟩ := mem_clean_refs isRef
    refine (visible raw (List.mem_filter.mpr ⟨?_, decide_eq_true nonempty⟩)).2
    exact List.mem_append_right _ (List.mem_flatMap.mpr ⟨result, isResult, isRaw⟩)
  · obtain ⟨_, -, admits⟩ := assessed.known result isResult
    exact admits.inside some_
  · obtain ⟨entry, found, admits⟩ := assessed.known result isResult
    obtain ⟨isEntry, isKey, -⟩ := requirements_hold found
    exact ⟨entry, isEntry, isKey, admits.shows v2 isAccepted⟩
  · obtain ⟨requirement, found, admits⟩ := assessed.known result isResult
    obtain ⟨-, -, named⟩ := requirements_hold found
    have own := requirements_have distinct isEntry (isKey ▸ named)
    rw [isKey, found] at own
    obtain rfl := Option.some.inj own
    exact admits.required notApplicable
  · exact assessed.resolved v2 continues _ _ (requirements_have distinct isEntry named) required

end Psop.Runner
